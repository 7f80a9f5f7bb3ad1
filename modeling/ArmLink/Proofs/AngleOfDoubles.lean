import ArmLink.Proofs.Differences
import ArmLink.Proofs.TurnBetween

/-!
# The difference of two angles as doubles

The difference of two angles takes a plain difference, a remainder, two comparisons and at
most one turn more or less. Of these only the plain difference is rounded. The remainder
and the comparisons are exact, and the turn is taken from a double that is between half of
it and all of it, so what is left is a double again: it stands in the places of half a
turn, and there is less of it than half a turn (`exists_double_sub_turn`).

So what is said of rational numbers holds of the doubles that the library returns, as soon
as the plain difference is taken as the double it is.
-/

namespace ArmLink

namespace Decimal

open Float.Model (Format UnpackedFloat)
open Float.Model.UnpackedFloat
open Binary64

/-! ## Comparing two numbers -/

theorem parts_cases {m₁ m₂ : ℕ} {e₁ e₂ : ℤ} (h₁ : m₁ < 2 ^ 53) (h₂ : m₂ < 2 ^ 53)
    (hfull₁ : 2 ^ 52 ≤ m₁ ∨ e₁ = -1074) (hfull₂ : 2 ^ 52 ≤ m₂ ∨ e₂ = -1074)
    (hleast₁ : -1074 ≤ e₁) (hleast₂ : -1074 ≤ e₂) :
    let order := (compare e₁ e₂).then (compare m₁ m₂)
    order = .lt ∧ (m₁ : ℚ) * 2 ^ e₁ < m₂ * 2 ^ e₂ ∨
      order = .eq ∧ (m₁ : ℚ) * 2 ^ e₁ = m₂ * 2 ^ e₂ ∨
      order = .gt ∧ (m₂ : ℚ) * 2 ^ e₂ < m₁ * 2 ^ e₁ := by
  intro order
  have hlt := compare_parts_iff h₁ h₂ hfull₁ hfull₂ hleast₁ hleast₂
  have hgt := compare_parts_iff h₂ h₁ hfull₂ hfull₁ hleast₂ hleast₁
  have hswap : (compare e₂ e₁).then (compare m₂ m₁) = order.swap := by
    rw [Ordering.swap_then, Int.compare_swap, Nat.compare_swap]
  rw [hswap] at hgt
  cases horder : order with
  | lt => exact .inl ⟨rfl, hlt.1 horder⟩
  | gt => exact .inr (.inr ⟨rfl, hgt.1 (by rw [horder]; rfl)⟩)
  | eq =>
      refine .inr (.inl ⟨rfl, le_antisymm (not_lt.1 fun h => ?_) (not_lt.1 fun h => ?_)⟩)
      · have hg := hgt.2 h
        rw [horder] at hg
        cases hg
      · have hl := hlt.2 h
        rw [show (compare e₁ e₂).then (compare m₁ m₂) = .eq from horder] at hl
        cases hl

theorem compare_cases {x y : Float} {p q : ℚ} (hx : rational? x = some p)
    (hy : rational? y = some q) :
    let order := x.toModel.unpack.compare y.toModel.unpack
    order = some .lt ∧ p < q ∨ order = some .eq ∧ p = q ∨ order = some .gt ∧ q < p := by
  have hx' := ofUnpacked_toModel x
  have hy' := ofUnpacked_toModel y
  rcases unpack_of_rational? hx with ⟨s₁, h₁, rfl⟩ | ⟨s₁, m₁, e₁, hm₁, h₁, rfl, hfull₁⟩ <;>
    rcases unpack_of_rational? hy with ⟨s₂, h₂, rfl⟩ | ⟨s₂, m₂, e₂, hm₂, h₂, rfl, hfull₂⟩ <;>
    rw [h₁, h₂]
  · exact .inr (.inl ⟨rfl, rfl⟩)
  · have hpos : (0 : ℚ) < m₂ * 2 ^ e₂ := by positivity
    cases s₂ with
    | positive => exact .inl ⟨rfl, by simpa [isNegative] using hpos⟩
    | negative => exact .inr (.inr ⟨rfl, by simpa [isNegative] using hpos⟩)
  · have hpos : (0 : ℚ) < m₁ * 2 ^ e₁ := by positivity
    cases s₁ with
    | positive => exact .inr (.inr ⟨rfl, by simpa [isNegative] using hpos⟩)
    | negative => exact .inl ⟨rfl, by simpa [isNegative] using hpos⟩
  · rw [h₁] at hx'
    rw [h₂] at hy'
    obtain ⟨hroom₁, hleast₁, -, -⟩ := ofBits_bounds hx'.symm
    obtain ⟨hroom₂, hleast₂, -, -⟩ := ofBits_bounds hy'.symm
    have hparts := parts_cases hroom₁ hroom₂ hfull₁ hfull₂ hleast₁ hleast₂
    have hpos₁ : (0 : ℚ) < m₁ * 2 ^ e₁ := by positivity
    have hpos₂ : (0 : ℚ) < m₂ * 2 ^ e₂ := by positivity
    cases s₁ with
    | positive =>
        cases s₂ with
        | positive => simpa [UnpackedFloat.compare, isNegative] using hparts
        | negative =>
            refine .inr (.inr ⟨rfl, ?_⟩)
            simp only [isNegative, sign_false, sign_true]
            linarith
    | negative =>
        cases s₂ with
        | positive =>
            refine .inl ⟨rfl, ?_⟩
            simp only [isNegative, sign_false, sign_true]
            linarith
        | negative =>
            -- Of two negative numbers the larger mantissa is the smaller number.
            simp only [UnpackedFloat.compare, isNegative, sign_true, neg_one_mul, neg_lt_neg_iff,
              neg_inj]
            rcases hparts with ⟨horder, h⟩ | ⟨horder, h⟩ | ⟨horder, h⟩ <;> rw [horder]
            · exact .inr (.inr ⟨rfl, h⟩)
            · exact .inr (.inl ⟨rfl, h⟩)
            · exact .inl ⟨rfl, h⟩

theorem lt_iff_of_rational? {x y : Float} {p q : ℚ} (hx : rational? x = some p)
    (hy : rational? y = some q) : x < y ↔ p < q := by
  have hlt : x < y ↔ (x.toModel.unpack.compare y.toModel.unpack == some .lt) = true :=
    decide_eq_true_iff
  rw [hlt]
  rcases compare_cases hx hy with ⟨horder, h⟩ | ⟨horder, rfl⟩ | ⟨horder, h⟩ <;> rw [horder]
  · exact iff_of_true rfl h
  · exact iff_of_false (by decide) (lt_irrefl _)
  · exact iff_of_false (by decide) h.le.not_gt

theorem le_iff_of_rational? {x y : Float} {p q : ℚ} (hx : rational? x = some p)
    (hy : rational? y = some q) : x ≤ y ↔ p ≤ q := by
  have hle : x ≤ y ↔ (x.toModel.unpack.compare y.toModel.unpack).any (·.isLE) = true :=
    decide_eq_true_iff
  rw [hle]
  rcases compare_cases hx hy with ⟨horder, h⟩ | ⟨horder, rfl⟩ | ⟨horder, h⟩ <;> rw [horder]
  · exact iff_of_true rfl h.le
  · exact iff_of_true rfl le_rfl
  · exact iff_of_false (by decide) h.not_ge

end Decimal

namespace Robot

open Decimal

/-! ## One turn less or more -/

theorem exactHalfTurn_eq : exactHalfTurn = 7074237752028440 * 2 ^ (-51 : ℤ) := by
  norm_num [exactHalfTurn]

/-- Between half a turn and a whole one the doubles stand in the places of half a turn, or in
larger ones. So one of them less a turn is a double. -/
theorem exists_double_sub_turn {m : ℕ} {e : ℤ} (hm : m < 2 ^ 53)
    (hlow : exactHalfTurn ≤ m * 2 ^ e) (hhigh : (m : ℚ) * 2 ^ e < 2 * exactHalfTurn) :
    ∃ x, rational? x = some ((m : ℚ) * 2 ^ e - 2 * exactHalfTurn) := by
  have hplace : -51 ≤ e := by
    by_contra hlt
    have hsmall : (m : ℚ) * 2 ^ e < 2 := by
      calc (m : ℚ) * 2 ^ e ≤ m * 2 ^ (-52 : ℤ) :=
            mul_le_mul_of_nonneg_left (zpow_le_zpow_right₀ (by norm_num) (by omega))
              (Nat.cast_nonneg m)
        _ < 2 ^ 53 * 2 ^ (-52 : ℤ) := mul_lt_mul_of_pos_right (by exact_mod_cast hm) (by positivity)
        _ = 2 := by norm_num
    have hlarge : (2 : ℚ) < exactHalfTurn := by norm_num [exactHalfTurn]
    linarith
  have hunit : (0 : ℚ) < 2 ^ (-51 : ℤ) := by positivity
  rw [mul_zpow_eq hplace, exactHalfTurn_eq] at hlow hhigh ⊢
  generalize m * 2 ^ (e - -51).toNat = n at hlow hhigh ⊢
  rw [mul_le_mul_iff_left₀ hunit] at hlow
  rw [← mul_assoc, mul_lt_mul_iff_left₀ hunit] at hhigh
  have hlow' : 7074237752028440 ≤ n := by exact_mod_cast hlow
  have hhigh' : n < 2 * 7074237752028440 := by exact_mod_cast hhigh
  obtain ⟨x, hx⟩ := exists_double (n := n - 2 * 7074237752028440) (e := -51)
    (abs_le.2 ⟨by omega, by omega⟩) (by decide) (by decide)
  refine ⟨x, hx.trans (congrArg some ?_)⟩
  push_cast
  ring

theorem angleBetween_of_rational? {a b : Float} {p : ℚ} (h : rational? (a - b) = some p) :
    rational? (angleBetween a b) = some (exactBetween exactHalfTurn p 0) := by
  have hhalf := exactHalfTurn_pos
  have hfull : 2 * exactHalfTurn ≠ 0 := by positivity
  have hr := rational?_remainder h rational?_fullTurn hfull
  have hback : rational? (-halfTurn) = some (-exactHalfTurn) := by
    have hneg := rational?_neg halfTurn
    rwa [rational?_halfTurn] at hneg
  have hsize : |truncatedRemainder p (2 * exactHalfTurn)| < 2 * exactHalfTurn :=
    abs_truncatedRemainder_lt p (by positivity)
  obtain ⟨hlow, hhigh⟩ := abs_lt.1 hsize
  rw [angleBetween, exactBetween, turnBetween, turnBetween, sub_zero]
  generalize Decimal.remainder (a - b) fullTurn = r at hr
  generalize truncatedRemainder p (2 * exactHalfTurn) = t at hr hlow hhigh
  obtain ⟨negative, m, e, hm, -, -, ht⟩ := rational?_bounds hr
  have habove := lt_iff_of_rational? rational?_halfTurn hr
  have hbelow := le_iff_of_rational? hr hback
  have hmagnitude : (0 : ℚ) ≤ m * 2 ^ e := by positivity
  simp only [habove, hbelow]
  split_ifs with hahead hbehind
  · have ht : t = m * 2 ^ e := by
      cases negative <;> simp at ht <;> linarith
    rw [ht] at hahead hhigh hr ⊢
    obtain ⟨x, hx⟩ := exists_double_sub_turn hm hahead.le hhigh
    exact (isNearest_sub hr rational?_fullTurn).exact hx
  · have ht : t = -(m * 2 ^ e) := by
      cases negative <;> simp at ht <;> linarith
    rw [ht] at hbehind hlow hr ⊢
    obtain ⟨x, hx⟩ := exists_double_sub_turn hm (by linarith) (by linarith)
    have hx' : rational? x.neg = some (-(m * 2 ^ e) + 2 * exactHalfTurn) := by
      rw [rational?_neg, hx, Option.map_some]
      ring_nf
    exact (isNearest_add hr rational?_fullTurn).exact hx'
  · exact hr

theorem angleBetween_of_not_rational {a b : Float} (h : rational? (a - b) = none) :
    rational? (angleBetween a b) = none := by
  have hremainder : Decimal.remainder (a - b) fullTurn = 0.0 / 0.0 := by
    rw [rational?] at h
    rw [Decimal.remainder]
    cases hparts : Binary64.ofFloat (a - b) with
    | finite negative m e =>
        rw [hparts] at h
        cases h
    | nan | infinite => rfl
  rw [angleBetween, turnBetween, hremainder]
  decide +kernel

/-- Of all that the difference of two angles takes, only the plain difference is rounded. -/
theorem rational?_angleBetween (a b : Float) :
    rational? (angleBetween a b) = (rational? (a - b)).map (exactBetween exactHalfTurn · 0) := by
  cases h : rational? (a - b) with
  | none => exact angleBetween_of_not_rational h
  | some p => exact angleBetween_of_rational? h

/-- In rational numbers, with half a turn and a whole one as the numbers that their doubles are: the
difference of two angles is the only number above minus half a turn and up to half a turn that is
whole turns away from the plain difference. The other way round it has the other sign, unless it
is half a turn. So to be near a goal is the same as to be the goal of what is near it, and whole
turns more of either change nothing. The difference of doubles is this one of their plain
difference, and is a number when that is. -/
theorem exactBetween_wraps :
    rational? halfTurn = some exactHalfTurn ∧ rational? fullTurn = some (2 * exactHalfTurn) ∧
    (∀ a b : Float, rational? (angleBetween a b) =
      (rational? (a - b)).map (exactBetween exactHalfTurn · 0)) ∧
    let half := exactHalfTurn
    (∀ a b d : ℚ, exactBetween half a b = d ↔
      -half < d ∧ d ≤ half ∧ ∃ k : ℤ, a - b - d = k * (2 * half)) ∧
    (∀ a b : ℚ, exactBetween half b a =
      if exactBetween half a b = half then half else -exactBetween half a b) ∧
    ∀ (position yaw : ℚ) (current goal : Stance ℚ),
      let near := Stance.isNear abs (exactBetween half) position yaw
      near current goal = near goal current ∧
        ∀ j k : ℤ, near (current.turned (j * (2 * half))) (goal.turned (k * (2 * half))) =
          near current goal := by
  have hhalf : 0 < exactHalfTurn := exactHalfTurn_pos
  exact ⟨rational?_halfTurn, rational?_fullTurn, rational?_angleBetween,
    fun _ _ _ => exactBetween_eq_iff hhalf, exactBetween_swap hhalf,
    fun position yaw current goal => ⟨Stance.isNear_swap hhalf position yaw current goal,
      Stance.isNear_turned hhalf position yaw current goal⟩⟩

/-- Both ends of the half turn, and doubles that are more than half a turn apart. -/
theorem exactBetween_wraps_at_ends :
    let half := exactHalfTurn
    exactBetween half half 0 = half ∧ exactBetween half (-half) 0 = half ∧
      exactBetween half 0 half = half ∧ exactBetween half 10 0 = 10 - 4 * half ∧
      rational? (angleBetween 10.0 0.0) = some (10 - 4 * half) := by
  intro half
  have hhalf : 0 < half := exactHalfTurn_pos
  obtain ⟨-, -, hdoubles, hbetween, hswap, -⟩ := exactBetween_wraps
  have hahead : exactBetween half half 0 = half :=
    (hbetween _ _ _).2 ⟨by linarith, le_rfl, 0, by simp⟩
  have hback : exactBetween half (-half) 0 = half :=
    (hbetween _ _ _).2 ⟨by linarith, le_rfl, -1, by push_cast; ring⟩
  have hten : exactBetween half 10 0 = 10 - 4 * half :=
    (hbetween _ _ _).2 ⟨by norm_num [half, exactHalfTurn], by norm_num [half, exactHalfTurn], 2, by
      push_cast
      ring⟩
  have hplain : rational? (10.0 - 0.0) = some 10 := by decide +kernel
  have hturned := hdoubles 10.0 0.0
  rw [hplain, Option.map_some] at hturned
  exact ⟨hahead, hback, (hswap half 0).trans (if_pos hahead), hten,
    hturned.trans (congrArg some hten)⟩

end Robot

end ArmLink
