import ArmLink.Decimal.Integer
import ArmLink.Text.Utf8

/-!
# Files

What a file holds is a matter of its bytes and of whether it could be read at
all; the reason that it could not is the system's own text with its number. A
file that is to be text has to be well-formed UTF-8.
-/

namespace ArmLink

/-- What reading a file gave: its bytes, or why it could not be read. -/
abbrev FileContents := Except String (List UInt8)

namespace FileContents

/-- The system refused to read a file, for a reason that has a number. -/
def refused (number : Nat) (reason : String) : FileContents :=
  .error (reason ++ " (os error " ++ Decimal.natText number ++ ")")

/-- A path that leads to no file. -/
def missing : FileContents := refused 2 "No such file or directory"

/-- A path that goes on behind a file. -/
def notDirectory : FileContents := refused 20 "Not a directory"

/-- A path that leads to a directory. -/
def directory : FileContents := refused 21 "Is a directory"

/-- A path that is too long, or has a name in it that is. -/
def nameTooLong : FileContents := refused 36 "File name too long"

/-- A path with a NUL character, which the system is not even asked for. -/
def unnameable : FileContents := .error "file name contained an unexpected NUL byte"

def text (contents : FileContents) : Except String String := do
  match Text.Utf8.decode? (← contents) with
  | some text => .ok text
  | none => .error "stream did not contain valid UTF-8"

end FileContents

end ArmLink
