import ArmLink.Decimal.Fixed
import ArmLink.Proofs.Decimals

/-!
# Numbers written with a fixed count of decimals

What is written for a finite double is digits with a point in front of the last few of
them, and a minus sign or none. Read as one integer, without the point, the digits are the
double in units of the last decimal, rounded. `Fixed` holds the text and this integer
together, and `fixed_fixedChars` says how close the two are: half a unit, whatever the
exponent of the double.
-/

namespace ArmLink.Decimal

open Binary64

/-- Digits with `places` of them behind a point, and a minus sign or none: an integer in units of the
last place. -/
inductive Fixed (places : ℕ) : List Char → ℤ → Prop where
  | plain {ds : List Char} {n : ℕ} (digits : Pointed ds n places) : Fixed places ds n
  | minus {ds : List Char} {n : ℕ} (digits : Pointed ds n places) : Fixed places ('-' :: ds) (-n)

theorem Fixed.spelled {places : ℕ} {cs : List Char} {k : ℤ} (h : Fixed places cs k) :
    Spelled cs (k / 10 ^ places) := by
  have hunsigned {ds : List Char} {n : ℕ} (digits : Pointed ds n places) :
      Unsigned ds ⟨n, -places⟩ := by
    simpa using Unsigned.intro digits .none
  have hvalue (n : ℕ) : (Written.mk n (-places)).value = n / 10 ^ places := by
    rw [Written.value, zpow_neg, zpow_natCast, div_eq_mul_inv]
  cases h with
  | plain digits => simpa [hvalue] using Spelled.plain (hunsigned digits)
  | minus digits => simpa [hvalue, neg_div] using Spelled.minus (hunsigned digits)

/-- Zeros in front of the digits of a number do not change it. -/
theorem figures_padded (count n : ℕ) : Figures (List.replicate count '0' ++ digits n) n := by
  obtain ⟨hne, hall, hvalue⟩ := figures_digits n
  refine ⟨List.append_ne_nil_of_right_ne_nil _ hne, List.forall_mem_append.2 ⟨?_, hall⟩, ?_⟩
  · intro c hc
    rw [List.eq_of_mem_replicate hc]
    decide
  · have hzeros : Nat.ofDigitChars 10 (List.replicate count '0') 0 = 0 := by
      induction count with
      | zero => rfl
      | succ count ih =>
          rw [List.replicate_succ, Nat.ofDigitChars_cons]
          exact ih
    rw [Nat.ofDigitChars_append, hzeros]
    exact hvalue

theorem pointed_pointed (places n : ℕ) : Pointed (pointed places n) n places := by
  have hfigures := figures_padded (places + 1 - (digits n).length) n
  have hlength : places < (List.replicate (places + 1 - (digits n).length) '0' ++ digits n).length := by
    rw [List.length_append, List.length_replicate]
    omega
  rw [pointed]
  generalize List.replicate (places + 1 - (digits n).length) '0' ++ digits n = padded at *
  split
  · next hzero =>
      rw [hzero]
      exact .whole hfigures
  · next hzero =>
      rw [← List.take_append_drop (padded.length - places) padded] at hfigures
      have hpoint := Pointed.point hfigures
      rwa [List.length_drop, Nat.sub_sub_self hlength.le] at hpoint

/-- A rounded quotient is within half a unit of the exact one. -/
theorem abs_roundDiv_sub_le (numerator : ℕ) {denominator : ℕ} (h : 0 < denominator) :
    |(roundDiv numerator denominator : ℚ) - numerator / denominator| ≤ 1 / 2 := by
  have hpos : (0 : ℚ) < denominator := by exact_mod_cast h
  obtain ⟨hlow, hhigh⟩ := @roundDiv_near numerator denominator h
  generalize roundDiv numerator denominator = r at hlow hhigh
  have hlow' : (2 : ℚ) * numerator ≤ 2 * (r * denominator) + denominator := by exact_mod_cast hlow
  have hhigh' : (2 : ℚ) * (r * denominator) ≤ 2 * numerator + denominator := by exact_mod_cast hhigh
  have hle : (numerator : ℚ) / denominator ≤ r + 1 / 2 := by
    rw [div_le_iff₀ hpos]
    linarith
  have hge : (r : ℚ) - 1 / 2 ≤ numerator / denominator := by
    rw [le_div_iff₀ hpos]
    linarith
  rw [abs_le]
  constructor <;> linarith

/-- A finite double is written as the nearest number with so many decimals. -/
theorem fixed_fixedChars {x : Float} {q : ℚ} (h : rational? x = some q) (places : ℕ) :
    ∃ k : ℤ, Fixed places (fixedChars places x) k ∧ |(k : ℚ) - q * 10 ^ places| ≤ 1 / 2 := by
  obtain ⟨negative, m, e, hx, hparts⟩ := parts_of_rational? h
  have hnear := abs_roundDiv_sub_le (m * (power e).1 * 10 ^ places) (power_pos e)
  have hvalue : ((m * (power e).1 * 10 ^ places : ℕ) : ℚ) / (power e).2 =
      m * 2 ^ e * 10 ^ places := by
    rw [mul_power]
    push_cast
    ring
  have hdigits := pointed_pointed places (roundDiv (m * (power e).1 * 10 ^ places) (power e).2)
  have hchars : fixedChars places x =
      if negative then '-' :: pointed places (roundDiv (m * (power e).1 * 10 ^ places) (power e).2)
      else pointed places (roundDiv (m * (power e).1 * 10 ^ places) (power e).2) := by
    rw [fixedChars, hx]
    rfl
  rw [hvalue] at hnear
  generalize roundDiv (m * (power e).1 * 10 ^ places) (power e).2 = r at *
  refine ⟨signed negative r, ?_, ?_⟩
  · rw [hchars]
    cases negative with
    | false => exact .plain hdigits
    | true => exact .minus hdigits
  · rwa [signed_eq, hparts, mul_assoc, ← mul_sub, abs_sign_mul]

end ArmLink.Decimal
