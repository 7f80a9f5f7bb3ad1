import ArmLink.Decimal.Binary64
import ArmLink.Decimal.Integer

/-!
# Numbers with a fixed count of decimals

The exact value of a double is a quotient of natural numbers, so writing it with
a given count of decimals is one rounded division. The nearer neighbour wins, and
of two equally near the even one. A minus sign belongs to the double and not to
the digits: a negative value that rounds to zero is written `-0.000`.
-/

namespace ArmLink.Decimal

open Binary64 (power)

/-- The quotient rounded to the nearest natural number, an exact half to the even one. -/
def roundDiv (numerator denominator : Nat) : Nat :=
  let quotient := numerator / denominator
  let twice := 2 * (numerator % denominator)
  if twice < denominator then quotient
  else if denominator < twice then quotient + 1
  else quotient + quotient % 2

/-- A rounded quotient is within half a unit of the exact one. -/
theorem roundDiv_near {numerator denominator : Nat} (h : 0 < denominator) :
    2 * numerator ≤ 2 * (roundDiv numerator denominator * denominator) + denominator
      ∧ 2 * (roundDiv numerator denominator * denominator) ≤ 2 * numerator + denominator := by
  have hd := Nat.div_add_mod numerator denominator
  have hm := Nat.mod_lt numerator h
  have hc := Nat.mul_comm denominator (numerator / denominator)
  have hs : (numerator / denominator + 1) * denominator
      = numerator / denominator * denominator + denominator := Nat.succ_mul _ _
  unfold roundDiv
  simp only
  split
  · omega
  · split
    · omega
    · rcases Nat.mod_two_eq_zero_or_one (numerator / denominator) with hp | hp <;>
        simp only [hp, Nat.add_zero] <;> omega

/-- The digits of `n` with a point in front of the last `places` of them, and at least one before
the point. -/
def pointed (places n : Nat) : List Char :=
  let ds := digits n
  let padded := List.replicate (places + 1 - ds.length) '0' ++ ds
  let whole := padded.length - places
  if places = 0 then padded
  else padded.take whole ++ '.' :: padded.drop whole

def fixedChars (places : Nat) (x : Float) : List Char :=
  match Binary64.ofFloat x with
  | .nan => ['N', 'a', 'N']
  | .infinite false => ['i', 'n', 'f']
  | .infinite true => ['-', 'i', 'n', 'f']
  | .finite negative mantissa exponent =>
    let (up, down) := power exponent
    let body := pointed places (roundDiv (mantissa * up * Nat.pow 10 places) down)
    if negative then '-' :: body else body

theorem pointed_subset (places n : Nat) : pointed places n ⊆ numerals := by
  have hpadded (count : Nat) : List.replicate count '0' ++ digits n ⊆ numerals :=
    List.append_subset.2 ⟨replicate_zero_subset _, digits_subset n⟩
  rw [pointed]
  split
  · exact hpadded _
  · exact List.append_subset.2 ⟨fun _ hc => hpadded _ (List.mem_of_mem_take hc),
      List.cons_subset.2 ⟨by decide, fun _ hc => hpadded _ (List.mem_of_mem_drop hc)⟩⟩

theorem pointed_ne_nil (places n : Nat) : pointed places n ≠ [] := by
  rw [pointed]
  split
  · exact List.append_ne_nil_of_right_ne_nil _ (digits_ne_nil n)
  · exact List.append_ne_nil_of_right_ne_nil _ (List.cons_ne_nil _ _)

theorem fixedChars_subset (places : Nat) (x : Float) : fixedChars places x ⊆ numerals := by
  rw [fixedChars]
  split
  · decide
  · decide
  · decide
  · simp only
    split
    · exact List.cons_subset.2 ⟨by decide, pointed_subset _ _⟩
    · exact pointed_subset _ _

theorem fixedChars_ne_nil (places : Nat) (x : Float) : fixedChars places x ≠ [] := by
  rw [fixedChars]
  split
  · decide
  · decide
  · decide
  · simp only
    split
    · exact List.cons_ne_nil _ _
    · exact pointed_ne_nil _ _

def fixedText (places : Nat) (x : Float) : String :=
  String.ofList (fixedChars places x)

example : fixedText 3 (-0.0001) = "-0.000" := by decide +kernel

example : fixedText 2 0.125 = "0.12" := by decide +kernel

end ArmLink.Decimal
