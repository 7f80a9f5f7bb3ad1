/-!
# Sets of characters given as ranges of code points

A property of characters that comes from a table of the Unicode standard is a
list of ranges, first and last code point of each, in ascending order.
-/

namespace ArmLink.Text

/-- A set of code points: first and last of each range. -/
abbrev Ranges := List (Nat × Nat)

/-- Whether the code point of `c` lies in one of the ranges. -/
def Ranges.has (ranges : Ranges) (c : Char) : Bool :=
  ranges.any fun range => range.1 ≤ c.toNat && c.toNat ≤ range.2

theorem Ranges.has_iff {ranges : Ranges} {c : Char} :
    ranges.has c = true ↔ ∃ range ∈ ranges, range.1 ≤ c.toNat ∧ c.toNat ≤ range.2 := by
  simp [Ranges.has]

end ArmLink.Text
