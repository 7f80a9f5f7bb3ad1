import ArmLink.Decimal.Integer
import ArmLink.Text.Digit

/-!
# Reading a number

A number is written with an optional sign, digits that may hold one point, and an
optional exponent; at least one digit stands before the exponent, on either side
of the point, and at least one in it. Infinity and not-a-number are words, in
either case. The value is the double nearest to the exact decimal.
-/

namespace ArmLink.Decimal

open ArmLink.Text (digitValue?)

/-- The leading digits of a text as one number with their count, and what follows them. -/
def spanDigits : Nat → Nat → List Char → Nat × Nat × List Char
  | n, count, [] => (n, count, [])
  | n, count, c :: cs =>
    match digitValue? c with
    | some d => spanDigits (10 * n + d) (count + 1) cs
    | none => (n, count, c :: cs)

/-- A decimal as it is written: digits without their point, and the exponent of the last one. -/
structure Written where
  number : Nat
  exponent : Int
  deriving DecidableEq, Repr

/-- Reads the exponent that may follow the digits, and nothing else. -/
def readExponent? : List Char → Option Int
  | [] => some 0
  | c :: cs =>
    if c = 'e' ∨ c = 'E' then
      let (negative, rest) :=
        match cs with
        | '-' :: rest => (true, rest)
        | '+' :: rest => (false, rest)
        | rest => (false, rest)
      match spanDigits 0 0 rest with
      | (n, count, []) => if count = 0 then none else some (if negative then -n else n)
      | _ => none
    else none

def readWritten? (cs : List Char) : Option Written :=
  let (whole, before, rest) := spanDigits 0 0 cs
  let (number, after, rest) :=
    match rest with
    | '.' :: rest =>
      let (number, total, rest) := spanDigits whole before rest
      (number, total - before, rest)
    | rest => (whole, 0, rest)
  if before + after = 0 then none
  else (readExponent? rest).map fun e => ⟨number, e - after⟩

/-- The double nearest to a decimal. Beyond four hundred places on either side of the point every
double is an infinity or a zero, so no larger power of ten is ever formed. -/
def Written.toFloat (w : Written) : Float :=
  if w.number = 0 then 0.0
  else if 400 < w.exponent then 1.0 / 0.0
  else if w.exponent + (digits w.number).length < -400 then 0.0
  else if 0 ≤ w.exponent then Float.ofScientific w.number false w.exponent.toNat
  else Float.ofScientific w.number true (-w.exponent).toNat

/-- Lower case for the letters of ASCII. -/
def lower (cs : List Char) : List Char :=
  cs.map Char.toLower

/-- Reads an unsigned number or one of the words. -/
def readMagnitude? (cs : List Char) : Option Float :=
  let word := lower cs
  if word = ['i', 'n', 'f'] ∨ word = ['i', 'n', 'f', 'i', 'n', 'i', 't', 'y'] then some (1.0 / 0.0)
  else if word = ['n', 'a', 'n'] then some (0.0 / 0.0)
  else (readWritten? cs).map Written.toFloat

def readFloatChars? : List Char → Option Float
  | '-' :: cs => (readMagnitude? cs).map Float.neg
  | '+' :: cs => readMagnitude? cs
  | cs => readMagnitude? cs

def readFloat? (text : String) : Option Float :=
  readFloatChars? text.toList

end ArmLink.Decimal
