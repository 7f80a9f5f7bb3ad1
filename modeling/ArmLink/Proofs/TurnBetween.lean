import ArmLink.Proofs.ExactValue
import ArmLink.Robot.Pose

/-!
# The difference of two angles within half a turn

A remainder towards zero is less than a whole turn on either side, and one turn more or
less brings it within half a turn. So there is one difference for each pair of angles:
the one that is more than half a turn back and no more than half a turn ahead, and that
is a number of whole turns away from the plain difference. That there is only one says all
the rest, and `turnBetween_eq_iff` is what the rest goes through: the other way round the
difference has the other sign, if it is not just half a turn, and whole turns more in
either angle make no difference. Whether a goal is reached depends on the size of the
difference only.

All this is about rational numbers, with the doubles for half a turn and a whole one as
the numbers they are. One of the operations is the same on doubles: their remainder is the
remainder of these numbers, with nothing rounded.
-/

namespace ArmLink

namespace Decimal

open Binary64

/-! ## The remainder towards zero -/

/-- A number without what follows the point. -/
def truncate (q : ℚ) : ℤ :=
  if 0 ≤ q then ⌊q⌋ else ⌈q⌉

/-- What is left of `x` after taking away whole multiples of `y` towards zero. -/
def truncatedRemainder (x y : ℚ) : ℚ :=
  x - truncate (x / y) * y

theorem truncate_neg (q : ℚ) : truncate (-q) = -truncate q := by
  rcases lt_trichotomy q 0 with h | rfl | h
  · rw [truncate, truncate, if_pos (by linarith), if_neg (not_le.2 h), Int.floor_neg]
  · rfl
  · rw [truncate, truncate, if_neg (by linarith), if_pos h.le, Int.ceil_neg]

theorem truncate_div (m n : ℕ) : truncate ((m : ℚ) / n) = (m / n : ℕ) := by
  rw [truncate, if_pos (by positivity), Rat.floor_natCast_div_natCast, Int.natCast_div]

theorem abs_sub_truncate_lt (q : ℚ) : |q - truncate q| < 1 := by
  rw [truncate, abs_lt]
  split
  · exact ⟨by linarith [Int.floor_le q], by linarith [Int.lt_floor_add_one q]⟩
  · exact ⟨by linarith [Int.ceil_lt_add_one q], by linarith [Int.le_ceil q]⟩

theorem abs_truncatedRemainder_lt (x : ℚ) {y : ℚ} (h : 0 < y) : |truncatedRemainder x y| < y := by
  have hfactor : truncatedRemainder x y = (x / y - truncate (x / y)) * y := by
    rw [truncatedRemainder, sub_mul, div_mul_cancel₀ x h.ne']
  calc |truncatedRemainder x y| = |x / y - truncate (x / y)| * y := by
        rw [hfactor, abs_mul, abs_of_pos h]
    _ < 1 * y := mul_lt_mul_of_pos_right (abs_sub_truncate_lt _) h
    _ = y := one_mul y

/-- The remainder has the sign of what is divided, whatever the other sign is. -/
theorem truncatedRemainder_sign (negative other : Bool) (x y : ℚ) :
    truncatedRemainder (sign negative * x) (sign other * y) =
      sign negative * truncatedRemainder x y := by
  unfold truncatedRemainder
  cases negative <;> cases other <;>
    simp only [sign_false, sign_true, one_mul, neg_one_mul, neg_div, div_neg, neg_neg, truncate_neg,
      Int.cast_neg] <;>
    ring

/-- Mantissas at the same exponent leave the remainder of natural numbers. -/
theorem truncatedRemainder_mul (m n : ℕ) {unit : ℚ} (h : unit ≠ 0) :
    truncatedRemainder (m * unit) (n * unit) = (m % n : ℕ) * unit := by
  have hsplit : (m : ℚ) = (m % n : ℕ) + (n : ℚ) * (m / n : ℕ) := by
    exact_mod_cast (Nat.mod_add_div m n).symm
  rw [truncatedRemainder, mul_div_mul_right _ _ h, truncate_div, Int.cast_natCast]
  linear_combination unit * hsplit

/-- The remainder of two doubles is the remainder of the numbers they are. -/
theorem rational?_remainder {x y : Float} {p q : ℚ} (hx : rational? x = some p)
    (hy : rational? y = some q) (hq : q ≠ 0) :
    rational? (remainder x y) = some (truncatedRemainder p q) := by
  obtain ⟨negative, m, e, hxparts, rfl⟩ := parts_of_rational? hx
  obtain ⟨other, n, f, hyparts, rfl⟩ := parts_of_rational? hy
  obtain ⟨hm, hleast, hmost, -⟩ := ofBits_bounds hxparts
  obtain ⟨hn, hleast', hmost', -⟩ := ofBits_bounds hyparts
  have hne : n ≠ 0 := by
    rintro rfl
    simp at hq
  have hle : min e f ≤ e := min_le_left e f
  have hle' : min e f ≤ f := min_le_right e f
  -- One of the two is at the common exponent already, and the remainder is no more than either.
  have hroom : m * 2 ^ (e - min e f).toNat % (n * 2 ^ (f - min e f).toNat) < 2 ^ 53 := by
    rcases min_choice e f with hmin | hmin
    · have hzero : (e - min e f).toNat = 0 := by omega
      rw [hzero, pow_zero, mul_one]
      exact (Nat.mod_le _ _).trans_lt hm
    · have hzero : (f - min e f).toNat = 0 := by omega
      rw [hzero, pow_zero, mul_one]
      exact (Nat.mod_lt _ (Nat.pos_of_ne_zero hne)).trans hn
  rw [remainder]
  simp only [hxparts, hyparts, if_neg hne]
  rw [shift_of_nonneg (by omega), shift_of_nonneg (by omega),
    rational?_assemble_at negative hroom (by omega) (by omega), truncatedRemainder_sign,
    mul_zpow_eq hle, mul_zpow_eq hle', truncatedRemainder_mul _ _ (by positivity)]

end Decimal

namespace Robot

open Decimal (rational? truncate truncatedRemainder abs_truncatedRemainder_lt)

/-! ## Differences -/

/-- The difference from `b` to `a` within half a turn, in rational numbers. -/
def exactBetween (half a b : ℚ) : ℚ :=
  turnBetween half (2 * half) truncatedRemainder a b

section

variable {half : ℚ}

theorem exactBetween_eq_toIocMod (hfull : 0 < 2 * half) (a b : ℚ) :
    exactBetween half a b = toIocMod hfull (-half) (a - b) := by
  have hends : -half + 2 * half = half := by ring
  obtain ⟨hlow, hhigh⟩ := abs_lt.1 (abs_truncatedRemainder_lt (a - b) hfull)
  have hturns : a - b = truncatedRemainder (a - b) (2 * half) +
      truncate ((a - b) / (2 * half)) * (2 * half) := (sub_add_cancel _ _).symm
  rw [eq_comm, toIocMod_eq_iff, exactBetween, turnBetween, hends]
  generalize truncatedRemainder (a - b) (2 * half) = r at hlow hhigh hturns
  generalize truncate ((a - b) / (2 * half)) = k at hturns
  simp only [zsmul_eq_mul]
  -- The remainder is less than a turn on either side, so one turn brings it within half a turn. Just
  -- half a turn is kept, and minus half a turn is not.
  split
  · next habove =>
      refine ⟨⟨by linarith, by linarith⟩, k + 1, ?_⟩
      push_cast
      linear_combination hturns
  · next hbelow =>
      split
      · next habove =>
          refine ⟨⟨by linarith, by linarith⟩, k - 1, ?_⟩
          push_cast
          linear_combination hturns
      · next hwithin => exact ⟨⟨not_le.1 hwithin, not_lt.1 hbelow⟩, k, hturns⟩

theorem exactBetween_eq_iff (hhalf : 0 < half) {a b d : ℚ} :
    exactBetween half a b = d ↔
      -half < d ∧ d ≤ half ∧ ∃ k : ℤ, a - b - d = k * (2 * half) := by
  have hends : -half + 2 * half = half := by ring
  rw [exactBetween_eq_toIocMod (by linarith), toIocMod_eq_iff, hends, Set.mem_Ioc, and_assoc]
  simp only [zsmul_eq_mul, sub_eq_iff_eq_add']

theorem exactBetween_swap (hhalf : 0 < half) (a b : ℚ) :
    exactBetween half b a =
      if exactBetween half a b = half then half else -exactBetween half a b := by
  obtain ⟨hlow, hhigh, k, hk⟩ := (exactBetween_eq_iff hhalf).1 (Eq.refl (exactBetween half a b))
  generalize exactBetween half a b = d at hlow hhigh hk
  rw [exactBetween_eq_iff hhalf]
  split
  · next hd =>
      refine ⟨by linarith, le_rfl, -k - 1, ?_⟩
      push_cast
      linear_combination -hk - hd
  · next hd =>
      have hlt : d < half := lt_of_le_of_ne hhigh hd
      refine ⟨by linarith, by linarith, -k, ?_⟩
      push_cast
      linear_combination -hk

theorem abs_exactBetween_swap (hhalf : 0 < half) (a b : ℚ) :
    |exactBetween half b a| = |exactBetween half a b| := by
  rw [exactBetween_swap hhalf]
  split
  · next h => rw [h]
  · exact abs_neg _

theorem exactBetween_of_turns (hhalf : 0 < half) {a b c d : ℚ} {k : ℤ}
    (h : c - d = a - b + k * (2 * half)) : exactBetween half c d = exactBetween half a b := by
  obtain ⟨hlow, hhigh, j, hj⟩ := (exactBetween_eq_iff hhalf).1 (Eq.refl (exactBetween half a b))
  refine (exactBetween_eq_iff hhalf).2 ⟨hlow, hhigh, j + k, ?_⟩
  push_cast
  linear_combination h + hj

/-! ## Goals -/

/-- The stance with the tool turned further. -/
def Stance.turned (angle : ℚ) (stance : Stance ℚ) : Stance ℚ :=
  { stance with yaw := stance.yaw + angle }

theorem Stance.isNear_swap (hhalf : 0 < half) (position yaw : ℚ) (current goal : Stance ℚ) :
    isNear abs (exactBetween half) position yaw current goal =
      isNear abs (exactBetween half) position yaw goal current := by
  unfold isNear
  rw [abs_sub_comm current.x, abs_sub_comm current.y, abs_sub_comm current.z,
    abs_exactBetween_swap hhalf goal.yaw]

theorem Stance.isNear_turned (hhalf : 0 < half) (position yaw : ℚ) (current goal : Stance ℚ)
    (j k : ℤ) :
    isNear abs (exactBetween half) position yaw (current.turned (j * (2 * half)))
        (goal.turned (k * (2 * half))) =
      isNear abs (exactBetween half) position yaw current goal := by
  have hplain : current.yaw + j * (2 * half) - (goal.yaw + k * (2 * half)) =
      current.yaw - goal.yaw + (j - k : ℤ) * (2 * half) := by
    push_cast
    ring
  unfold isNear turned
  simp only
  rw [exactBetween_of_turns hhalf hplain]

end

/-! ## The turn of the doubles -/

/-- The double for half a turn, as the number it is. -/
def exactHalfTurn : ℚ := 884279719003555 / 2 ^ 48

theorem exactHalfTurn_pos : 0 < exactHalfTurn := by
  unfold exactHalfTurn
  positivity

theorem rational?_halfTurn : rational? halfTurn = some exactHalfTurn := by
  decide +kernel

theorem rational?_fullTurn : rational? fullTurn = some (2 * exactHalfTurn) := by
  decide +kernel

end Robot

end ArmLink
