import ArmLink.Decimal.Reading

/-!
# Kinds of values

An operand, or the value of an option, is a text or a number of some kind. A
value is checked against its kind as soon as it is complete, before anything
behind it is looked at.
-/

namespace ArmLink.CommandLine

/-- Reads a natural number below a bound. A sign may stand in front, a minus only where the number
is read as a signed one. -/
def natural? (bounds : Decimal.Bounds) (bound : Nat) (text : String) : Option Nat :=
  match Decimal.readInteger bounds text.toList with
  | .ok n => if 0 ≤ n ∧ n < bound then some n.toNat else none
  | .error _ => none

def byte? (text : String) : Option Nat :=
  natural? Decimal.int64 UInt8.size text

def count? (text : String) : Option Nat :=
  natural? Decimal.nat64 UInt64.size text

/-- What a value has to be. -/
inductive Kind where
  | text
  | byte
  | count
  | number
  deriving DecidableEq, Repr

/-- Whether a text can be read as a value of a kind. -/
def Kind.admits (text : String) : Kind → Bool
  | .text => true
  | .byte => (byte? text).isSome
  | .count => (count? text).isSome
  | .number => (Decimal.readFloat? text).isSome

end ArmLink.CommandLine
