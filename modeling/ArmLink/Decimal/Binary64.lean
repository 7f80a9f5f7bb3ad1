/-!
# Double-precision numbers, exactly

A double is not a number, an infinity, or a sign with a mantissa times a power
of two. Whatever this library does with a double beyond the basic operations
(print it, round it to an integer, take a remainder) it does on that view in
exact integer arithmetic, and comes back through `assemble`, which is asked only
for values a double can hold. Rounding is therefore visible in one place each
time, and never a property of a machine.
-/

namespace ArmLink.Decimal

/-- A double taken apart. A finite one is its mantissa times two to its exponent; zero keeps its
sign. -/
inductive Binary64 where
  | nan
  | infinite (negative : Bool)
  | finite (negative : Bool) (mantissa : Nat) (exponent : Int)
  deriving DecidableEq, Repr

namespace Binary64

/-- The exponent of the last place of the smallest doubles. -/
def leastExponent : Int := -1074

def ofFloat (x : Float) : Binary64 :=
  let bits := x.toBits.toNat
  let negative : Bool := 1 <<< 63 ≤ bits
  let biased : Nat := (bits >>> 52) % 2048
  let fraction : Nat := bits % (1 <<< 52)
  if biased = 2047 then
    if fraction = 0 then .infinite negative else .nan
  else if biased = 0 then .finite negative fraction leastExponent
  else .finite negative ((1 <<< 52) + fraction) ((biased : Int) - 1075)

/-- Two to an exponent, as a quotient of natural numbers. -/
def power (exponent : Int) : Nat × Nat :=
  if 0 ≤ exponent then (1 <<< exponent.toNat, 1) else (1, 1 <<< (-exponent).toNat)

/-- A natural number times two to the exponent, without what falls below the units. -/
def shift (n : Nat) (exponent : Int) : Nat :=
  n * (power exponent).1 / (power exponent).2

/-- The double with this sign, mantissa and exponent, when there is one. A mantissa with more than
53 bits has to end in zeros. -/
def assemble (negative : Bool) (mantissa : Nat) (exponent : Int) : Float :=
  let last := max leastExponent (exponent + mantissa.log2 - 52)
  let scaled := shift mantissa (exponent - last)
  let magnitude :=
    if scaled < 1 <<< 52 then scaled
    else if 971 < last then 2047 <<< 52
    else ((last + 1075).toNat <<< 52) + (scaled - (1 <<< 52))
  Float.ofBits (UInt64.ofNat (if negative then (1 <<< 63) + magnitude else magnitude))

/-- The natural number nearest to a mantissa times two to the exponent; a half goes up. -/
def nearest (mantissa : Nat) (exponent : Int) : Nat :=
  if 0 ≤ exponent then shift mantissa exponent else (shift mantissa (exponent + 1) + 1) / 2

/-- A natural number with a sign. -/
def signed (negative : Bool) (n : Nat) : Int :=
  if negative then -n else n

end Binary64

open Binary64

/-- `x` rounded to an integer, a half away from zero. The sign stays even on a zero. -/
def roundHalfAway (x : Float) : Float :=
  match ofFloat x with
  | .finite negative mantissa exponent =>
    if 0 ≤ exponent then x else assemble negative (nearest mantissa exponent) 0
  | _ => x

def isWhole (x : Float) : Bool :=
  match ofFloat x with
  | .finite _ mantissa exponent => mantissa % (power exponent).2 = 0
  | _ => false

/-- The 64-bit integer a double names: what follows the point is dropped, and what lies outside the
range goes to its nearer end. Something that is not a number names zero. -/
def toInt64 (x : Float) : Int :=
  let n : Int :=
    match ofFloat x with
    | .nan => 0
    | .infinite negative => signed negative (1 <<< 63)
    | .finite negative mantissa exponent => signed negative (shift mantissa exponent)
  max Int64.minValue.toInt (min Int64.maxValue.toInt n)

/-- What is left of `x` after taking away whole multiples of `y` towards zero. It has the sign of
`x`, and it is exact. -/
def remainder (x y : Float) : Float :=
  match ofFloat x, ofFloat y with
  | .finite negative m e, .finite _ n f =>
    if n = 0 then 0.0 / 0.0
    else
      let common := min e f
      assemble negative (shift m (e - common) % shift n (f - common)) common
  | .finite .., .infinite _ => x
  | _, _ => 0.0 / 0.0

example : (roundHalfAway (-0.25)).toBits = (-0.0 : Float).toBits := by decide +kernel

example : (remainder (-6.0) 3.0).toBits = (-0.0 : Float).toBits := by decide +kernel

end ArmLink.Decimal
