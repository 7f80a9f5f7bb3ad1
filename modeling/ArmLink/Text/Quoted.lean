import ArmLink.Text.Printable

/-!
# Quoted text

A report that repeats what a controller sent shows it between double quotes, so
that blanks at the ends and characters that cannot be seen are visible. A double
quote and a backslash are escaped; so are tab, carriage return, line feed and
NUL, each by its letter; any other character that is not shown is written as its
code point in hexadecimal digits between braces.
-/

namespace ArmLink.Text

/-- How one character appears between the quotes. -/
def quoteChar (c : Char) : List Char :=
  if c = '\x00' then ['\\', '0']
  else if c = '\t' then ['\\', 't']
  else if c = '\r' then ['\\', 'r']
  else if c = '\n' then ['\\', 'n']
  else if c = '\\' then ['\\', '\\']
  else if c = '"' then ['\\', '"']
  else if isShown c then [c]
  else ['\\', 'u', '\x7b'] ++ Nat.toDigits 16 c.toNat ++ ['\x7d']

/-- A text between double quotes. -/
def quoted (text : String) : String :=
  String.ofList ('"' :: text.toList.flatMap quoteChar ++ ['"'])

end ArmLink.Text
