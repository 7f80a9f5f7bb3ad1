import ArmLink.Decimal.Shortest

/-!
# JSON values and their text

A value is written without blanks, its members in the order they are given.
Numbers have the fewest digits that name them and always a point or an exponent;
a number that is not finite has no JSON form and is written `null`. In strings
the quote, the backslash and the control characters of ASCII are escaped, and
everything else stands for itself.
-/

namespace ArmLink.Json

open ArmLink.Decimal (Layout integerChars)

inductive Value where
  | null
  | boolean (value : Bool)
  | integer (value : Int)
  | number (value : Float)
  | text (value : String)
  | array (elements : List Value)
  | object (members : List (String × Value))
  deriving Repr

/-- Numbers are written with a plain point from the fifth decimal to the sixteenth digit before the
point, and with an exponent beyond. -/
def numberLayout : Layout := ⟨-5, 15⟩

def numberChars (x : Float) : List Char :=
  (numberLayout.chars? x).getD ['n', 'u', 'l', 'l']

theorem numberChars_subset (x : Float) : numberChars x ⊆ Decimal.numerals := by
  rw [numberChars]
  cases hchars : numberLayout.chars? x with
  | none => decide
  | some cs => exact Decimal.Layout.chars?_subset hchars

/-- The digits of an escaped control character. -/
def controlDigits (c : Char) : List Char :=
  let ds := Nat.toDigits 16 c.toNat
  List.replicate (4 - ds.length) '0' ++ ds

/-- One character of a string. -/
def stringChar (c : Char) : List Char :=
  if c = '"' then ['\\', '"']
  else if c = '\\' then ['\\', '\\']
  else if c = '\n' then ['\\', 'n']
  else if c = '\r' then ['\\', 'r']
  else if c = '\t' then ['\\', 't']
  else if c = '\x08' then ['\\', 'b']
  else if c = '\x0c' then ['\\', 'f']
  else if c.toNat < 0x20 then '\\' :: 'u' :: controlDigits c
  else [c]

def stringChars (s : String) : List Char :=
  '"' :: s.toList.flatMap stringChar ++ ['"']

mutual

def Value.chars : Value → List Char
  | .null => ['n', 'u', 'l', 'l']
  | .boolean true => ['t', 'r', 'u', 'e']
  | .boolean false => ['f', 'a', 'l', 's', 'e']
  | .integer n => integerChars n
  | .number x => numberChars x
  | .text s => stringChars s
  | .array [] => ['[', ']']
  | .array (v :: rest) => '[' :: v.chars ++ elementChars rest
  | .object [] => ['\x7b', '\x7d']
  | .object ((key, v) :: rest) => '\x7b' :: stringChars key ++ ':' :: v.chars ++ memberChars rest

/-- The further elements of an array, and its end. -/
def elementChars : List Value → List Char
  | [] => [']']
  | v :: rest => ',' :: v.chars ++ elementChars rest

/-- The further members of an object, and its end. -/
def memberChars : List (String × Value) → List Char
  | [] => ['\x7d']
  | (key, v) :: rest => ',' :: stringChars key ++ ':' :: v.chars ++ memberChars rest

end

def Value.render (v : Value) : String :=
  String.ofList v.chars

def Value.numbers (xs : List Float) : Value :=
  .array (xs.map .number)

end ArmLink.Json
