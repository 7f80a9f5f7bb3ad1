import ArmLink.Decimal.Integer

/-!
# Durations

Every limit and period here is a whole number of milliseconds. A report writes
one in the largest unit that it fills: seconds with what decimals they need, then
milliseconds. No time at all is zero of the smallest unit.
-/

namespace ArmLink

open Decimal (digits)

/-- The decimals of a fraction given in thousandths, without trailing zeros. -/
def thousandths (n : Nat) : List Char :=
  if n % 1000 = 0 then []
  else
    let padded := List.replicate (3 - (digits (n % 1000)).length) '0' ++ digits (n % 1000)
    '.' :: (padded.reverse.dropWhile (· = '0')).reverse

/-- A number of milliseconds as a duration. -/
def durationText (milliseconds : Nat) : String :=
  if milliseconds = 0 then "0ns"
  else if milliseconds < 1000 then Decimal.natText milliseconds ++ "ms"
  else String.ofList (digits (milliseconds / 1000) ++ thousandths milliseconds) ++ "s"

example : durationText 1050 = "1.05s" := by decide +kernel

end ArmLink
