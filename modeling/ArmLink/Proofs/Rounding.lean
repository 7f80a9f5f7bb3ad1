import ArmLink.Proofs.ExactValue

/-!
# Rounding

`IsNearest q x` says what the arithmetic of doubles promises: no other double is nearer
to `q` than `x`, and of two that are equally near `x` is the one with the even mantissa.
It compares `x` with every double there is and does not mention how `x` came about.

An operation finds its result otherwise. It knows a mantissa with a few bits more than a
double has and, of everything below, two bits: whether the next bit is set and whether
anything is behind it. `Stands` says which numbers such a mantissa may stand for, shifting
keeps it, and from it the rounded mantissa is within half a unit of its last place. That
this makes the nearest of all doubles, and not only of those with the same last place, is
`Rounds.nearest`: a double with a finer last place lies below the whole range of a mantissa
of 53 bits, and the lower end of that range is itself on the coarser grid.
-/

namespace ArmLink.Decimal

open Float.Model (Format UnpackedFloat)
open Float.Model.UnpackedFloat
open Binary64

/-- Half a unit beyond the largest double. From here on a number is rounded to an infinity. -/
def overflow : ℚ := 2 ^ 1024 - 2 ^ 970

/-- The double is the one a number is rounded to. -/
def IsNearest (q : ℚ) (x : Float) : Prop :=
  match ofFloat x with
  | .nan => False
  | .infinite negative => overflow ≤ sign negative * q
  | .finite negative m e => |q| < overflow ∧ ∀ y w, rational? y = some w →
      |sign negative * (m * 2 ^ e) - q| ≤ |w - q| ∧
      (|sign negative * (m * 2 ^ e) - q| = |w - q| → w = sign negative * (m * 2 ^ e) ∨ m % 2 = 0)

/-! ## On the grid of one last place -/

/-- `m` units of the place `t` are what a positive number is rounded to. The place is that of the
last of 53 bits, but not below that of the smallest double. -/
structure Rounds (q : ℚ) (m : ℕ) (t : ℤ) : Prop where
  least : -1074 ≤ t
  below : q < 2 ^ (t + 53)
  above : t = -1074 ∨ 2 ^ (t + 52) ≤ q
  near : |m * 2 ^ t - q| ≤ 2 ^ t / 2
  even : |m * 2 ^ t - q| = 2 ^ t / 2 → m % 2 = 0

namespace Rounds

variable {q : ℚ} {m : ℕ} {t : ℤ}

theorem nearest_on_grid (h : Rounds q m t) (k : ℤ) :
    |m * 2 ^ t - q| ≤ |k * 2 ^ t - q| ∧
      (|m * 2 ^ t - q| = |k * 2 ^ t - q| → (k : ℚ) * 2 ^ t = m * 2 ^ t ∨ m % 2 = 0) := by
  by_cases hk : k = m
  · rw [hk, Int.cast_natCast]
    exact ⟨le_refl _, fun _ => .inl rfl⟩
  · have hunit : (0 : ℚ) < 2 ^ t := by positivity
    have hapart : (2 : ℚ) ^ t ≤ |(k : ℚ) * 2 ^ t - m * 2 ^ t| := by
      have hone : (1 : ℚ) ≤ |(k : ℚ) - m| := by
        have hint : 1 ≤ |k - (m : ℤ)| := Int.one_le_abs (sub_ne_zero.2 hk)
        exact_mod_cast hint
      rw [← sub_mul, abs_mul, abs_of_pos hunit]
      exact le_mul_of_one_le_left hunit.le hone
    have htriangle := abs_sub_le ((k : ℚ) * 2 ^ t) q (m * 2 ^ t)
    rw [abs_sub_comm q] at htriangle
    have hnear := h.near
    refine ⟨by linarith, fun heq => .inr (h.even ?_)⟩
    linarith

/-- No double is nearer. -/
theorem nearest (h : Rounds q m t) (negative : Bool) {n : ℕ} {e : ℤ} (hn : n < 2 ^ 53)
    (he : -1074 ≤ e) :
    |m * 2 ^ t - q| ≤ |sign negative * (n * 2 ^ e) - q| ∧
      (|m * 2 ^ t - q| = |sign negative * (n * 2 ^ e) - q| →
        sign negative * (n * 2 ^ e) = m * 2 ^ t ∨ m % 2 = 0) := by
  by_cases hte : t ≤ e
  · obtain ⟨d, hd⟩ := Int.eq_ofNat_of_zero_le (show 0 ≤ e - t by omega)
    have hgrid : sign negative * (n * 2 ^ e) = ((signed negative (n * 2 ^ d) : ℤ) : ℚ) * 2 ^ t := by
      rw [show e = d + t by omega, zpow_add₀ (by norm_num), zpow_natCast, signed_eq]
      push_cast
      ring
    rw [hgrid]
    exact h.nearest_on_grid _
  · -- The double lies below the range of the place `t`, and the lower end of it is on the grid.
    have hlow : (2 : ℚ) ^ (t + 52) ≤ q := h.above.resolve_left (by omega)
    have hbelow : sign negative * (n * 2 ^ e) < 2 ^ (t + 52) := by
      have hpos : (0 : ℚ) < 2 ^ e := by positivity
      have hle : sign negative * ((n : ℚ) * 2 ^ e) ≤ n * 2 ^ e := by
        have : (0 : ℚ) ≤ n * 2 ^ e := by positivity
        cases negative <;> simp [sign]
        linarith
      have hlt : (n : ℚ) * 2 ^ e < 2 ^ (53 : ℤ) * 2 ^ e :=
        mul_lt_mul_of_pos_right (by exact_mod_cast hn) hpos
      rw [← zpow_add₀ (by norm_num)] at hlt
      have hmono : (2 : ℚ) ^ (53 + e) ≤ 2 ^ (t + 52) := zpow_le_zpow_right₀ (by norm_num) (by omega)
      linarith
    have hend : ((2 ^ 52 : ℤ) : ℚ) * 2 ^ t = 2 ^ (t + 52) := by
      rw [zpow_add₀ (by norm_num), mul_comm]
      norm_num
    have hgrid := (h.nearest_on_grid (2 ^ 52)).1
    rw [hend, abs_of_nonpos (by linarith : (2 : ℚ) ^ (t + 52) - q ≤ 0)] at hgrid
    rw [abs_of_neg (by linarith : sign negative * (n * 2 ^ e) - q < 0)]
    exact ⟨by linarith, fun heq => by linarith⟩

/-- The mantissa has at most 53 bits, or is the power of two next above them. -/
theorem mantissa_le (h : Rounds q m t) : m ≤ 2 ^ 53 := by
  have hunit : (0 : ℚ) < 2 ^ t := by positivity
  have hnear := (abs_le.1 h.near).2
  have hbelow := h.below
  rw [zpow_add₀ (by norm_num)] at hbelow
  have hlt : (m : ℚ) * 2 ^ t < (2 ^ 53 + 1) * 2 ^ t := by
    rw [add_mul, one_mul, mul_comm (2 ^ 53 : ℚ)]
    norm_num at hbelow ⊢
    linarith
  have hm : m < 2 ^ 53 + 1 := by exact_mod_cast lt_of_mul_lt_mul_right hlt hunit.le
  omega

theorem le_mantissa (h : Rounds q m t) : t = -1074 ∨ 2 ^ 52 ≤ m := by
  refine h.above.imp_right fun hlow => ?_
  have hunit : (0 : ℚ) < 2 ^ t := by positivity
  have hnear := (abs_le.1 h.near).1
  rw [zpow_add₀ (by norm_num)] at hlow
  have hlt : (2 ^ 52 : ℚ) * 2 ^ t < (m + 1) * 2 ^ t := by
    rw [add_mul, one_mul, mul_comm (2 ^ 52 : ℚ)]
    norm_num at hlow ⊢
    linarith
  have hm : 2 ^ 52 < m + 1 := by exact_mod_cast lt_of_mul_lt_mul_right hlt hunit.le
  omega

/-! What is rounded within the range of doubles lies below the bound for infinities, and what is
rounded beyond it does not. The odd mantissa that is the largest of all decides the bound itself. -/

theorem overflow_eq : overflow = (2 ^ 53 - 1 / 2) * 2 ^ (971 : ℤ) := by
  have htop : (2 : ℚ) ^ 1024 = 2 ^ 53 * 2 ^ 971 := (pow_add 2 53 971)
  have hhalf : (2 : ℚ) ^ 971 = 2 ^ 970 * 2 := pow_succ 2 970
  rw [overflow, htop, zpow_ofNat, hhalf]
  generalize (2 : ℚ) ^ 970 = unit
  ring

theorem lt_overflow (h : Rounds q m t) (ht : t ≤ 970 ∨ t = 971 ∧ m < 2 ^ 53) : q < overflow := by
  rcases ht with ht | ⟨rfl, hm⟩
  · have hunit : (0 : ℚ) < 2 ^ (971 : ℤ) := by positivity
    have hmono : (2 : ℚ) ^ (t + 53) ≤ 2 ^ (52 + 971 : ℤ) :=
      zpow_le_zpow_right₀ (by norm_num) (by omega)
    rw [zpow_add₀ (by norm_num) 52 971, zpow_ofNat] at hmono
    have hbound : (2 : ℚ) ^ 52 * 2 ^ (971 : ℤ) < overflow := by
      rw [overflow_eq]
      exact mul_lt_mul_of_pos_right (by norm_num) hunit
    exact h.below.trans (hmono.trans_lt hbound)
  · by_contra hover
    have hnear := h.near
    have heven := h.even
    have hunit : (0 : ℚ) < 2 ^ (971 : ℤ) := by positivity
    rw [not_lt, overflow_eq] at hover
    generalize (2 : ℚ) ^ (971 : ℤ) = unit at hover hnear heven hunit
    have hlow := (abs_le.1 hnear).1
    have hle : (2 ^ 53 - 1 : ℚ) * unit ≤ m * unit := by linarith
    have hlast : m = 2 ^ 53 - 1 := by
      have hge : (2 ^ 53 - 1 : ℚ) ≤ m := le_of_mul_le_mul_right hle hunit
      have hge' : (2 ^ 53 : ℚ) ≤ (m + 1 : ℕ) := by
        rw [Nat.cast_add, Nat.cast_one]
        linarith
      have hge'' : 2 ^ 53 ≤ m + 1 := by exact_mod_cast hge'
      omega
    have htie : |(m : ℚ) * unit - q| = unit / 2 := by
      have hcast : (m : ℚ) = 2 ^ 53 - 1 := by
        rw [hlast]
        norm_num
      rw [hcast] at hlow ⊢
      rw [abs_of_neg] <;> linarith
    have hparity := heven htie
    omega

theorem overflow_le (h : Rounds q m t) (ht : 971 < t ∨ t = 971 ∧ m = 2 ^ 53) : overflow ≤ q := by
  rcases ht with ht | ⟨rfl, rfl⟩
  · have hunit : (0 : ℚ) < 2 ^ (971 : ℤ) := by positivity
    have hlow := h.above.resolve_left (by omega)
    have hmono : (2 : ℚ) ^ (53 + 971 : ℤ) ≤ 2 ^ (t + 52) :=
      zpow_le_zpow_right₀ (by norm_num) (by omega)
    rw [zpow_add₀ (by norm_num) 53 971, zpow_ofNat] at hmono
    have hbound : overflow ≤ (2 : ℚ) ^ 53 * 2 ^ (971 : ℤ) := by
      rw [overflow_eq]
      exact mul_le_mul_of_nonneg_right (by norm_num) hunit.le
    exact hbound.trans (hmono.trans hlow)
  · have hnear := (abs_le.1 h.near).2
    rw [overflow_eq]
    rw [Nat.cast_pow, Nat.cast_ofNat] at hnear
    generalize (2 : ℚ) ^ (971 : ℤ) = unit at hnear ⊢
    linarith

end Rounds

/-- The double that is so many units of a place. -/
def rounded (negative : Bool) (m : ℕ) (t : ℤ) : Binary64 :=
  if m = 2 ^ 53 then if 970 < t then .infinite negative else .finite negative (2 ^ 52) (t + 1)
  else if 971 < t then .infinite negative
  else .finite negative m t

theorem rational?_bounds {y : Float} {w : ℚ} (h : rational? y = some w) :
    ∃ negative, ∃ n : ℕ, ∃ e : ℤ,
      n < 2 ^ 53 ∧ -1074 ≤ e ∧ e ≤ 971 ∧ w = sign negative * (n * 2 ^ e) := by
  obtain ⟨negative, n, e, hy, hvalue⟩ := parts_of_rational? h
  obtain ⟨hn, hleast, hlast, -⟩ := ofBits_bounds hy
  exact ⟨negative, n, e, hn, hleast, hlast, hvalue⟩

theorem abs_sign_mul_sub (negative : Bool) (v w : ℚ) :
    |sign negative * v - w| = |v - sign negative * w| := by
  rw [← abs_sign_mul negative, mul_sub, sign_mul_sign_mul]

theorem Rounds.isNearest {q : ℚ} {m : ℕ} {t : ℤ} (h : Rounds q m t) (hq : 0 ≤ q) {negative : Bool}
    {x : Float} (hx : ofFloat x = rounded negative m t) : IsNearest (sign negative * q) x := by
  have habs : |sign negative * q| = q := by rw [abs_sign_mul, abs_of_nonneg hq]
  -- No double is nearer than `m` units, whichever way these are written.
  have hnearest {n : ℕ} {e : ℤ} (hsame : (n : ℚ) * 2 ^ e = m * 2 ^ t) (hparity : m % 2 = 0 → n % 2 = 0)
      (hroom : q < overflow) (hparts : ofFloat x = .finite negative n e) :
      IsNearest (sign negative * q) x := by
    rw [IsNearest, hparts]
    refine ⟨by rwa [habs], fun y w hy => ?_⟩
    obtain ⟨other, k, e', hk, he', -, hw⟩ := rational?_bounds hy
    have hflip : sign negative * w = sign (negative ^^ other) * (k * 2 ^ e') := by
      rw [hw]
      cases negative <;> cases other <;> simp [sign]
    obtain ⟨hle, heq⟩ := h.nearest (negative ^^ other) hk he'
    rw [← hflip] at hle heq
    rw [hsame, abs_sign_mul_sub, sign_mul_sign_mul, ← abs_sign_mul_sub negative w]
    refine ⟨hle, fun hd => (heq hd).imp (fun hv => ?_) hparity⟩
    rw [← hv, sign_mul_sign_mul]
  have hinfinite (hfar : overflow ≤ q) (hparts : ofFloat x = .infinite negative) :
      IsNearest (sign negative * q) x := by
    rw [IsNearest, hparts]
    simpa [sign_mul_sign_mul] using hfar
  have hm := h.mantissa_le
  rw [rounded] at hx
  split_ifs at hx with hfull hlarge hlarge
  · exact hinfinite (h.overflow_le (by omega)) hx
  · refine hnearest ?_ (fun _ => by norm_num) (h.lt_overflow (by omega)) hx
    rw [hfull, zpow_add₀ (by norm_num)]
    push_cast
    ring
  · exact hinfinite (h.overflow_le (by omega)) hx
  · exact hnearest rfl id (h.lt_overflow (by omega)) hx

/-! ## Mantissas with two more bits -/

/-- The mantissa with its two bits is what is left of this number. -/
def Stands (em : ExtendedMantissa) (x : ℚ) : Prop :=
  match em.roundBit, em.stickyBit with
  | false, false => x = em.mantissa
  | false, true => em.mantissa < x ∧ x < em.mantissa + 1 / 2
  | true, false => x = em.mantissa + 1 / 2
  | true, true => em.mantissa + 1 / 2 < x ∧ x < em.mantissa + 1

namespace Stands

variable {em : ExtendedMantissa} {x : ℚ}

theorem within (h : Stands em x) : (em.mantissa : ℚ) ≤ x ∧ x < em.mantissa + 1 := by
  obtain ⟨m, round, sticky⟩ := em
  cases round <;> cases sticky <;> simp only [Stands] at h <;> constructor <;> linarith

theorem shiftRightOne (h : Stands em x) : Stands em.shiftRightOne (x / 2) := by
  obtain ⟨m, round, sticky⟩ := em
  have hm : (m : ℚ) = 2 * (m / 2 : ℕ) + (m % 2 : ℕ) := by exact_mod_cast (Nat.div_add_mod m 2).symm
  -- The last bit of the mantissa becomes the next one, and the two before go into the one behind.
  rcases Nat.mod_two_eq_zero_or_one m with hbit | hbit <;> rw [hbit] at hm <;>
    cases round <;> cases sticky <;>
    simp [Stands, ExtendedMantissa.shiftRightOne, hbit] at h hm ⊢ <;>
    first
      | linarith
      | constructor <;> linarith

theorem shiftRight (h : Stands em x) (k : ℕ) : Stands (em >>> k) (x / 2 ^ k) := by
  induction k with
  | zero =>
      rw [pow_zero, div_one]
      exact h
  | succ k ih =>
      rw [pow_succ, ← div_div]
      exact ih.shiftRightOne

/-- What is rounded is within half a unit, and at just half a unit it is even. -/
theorem rounded (h : Stands em x) : |(em.roundedMantissa : ℚ) - x| ≤ 1 / 2 ∧
    (|(em.roundedMantissa : ℚ) - x| = 1 / 2 → em.roundedMantissa % 2 = 0) := by
  obtain ⟨m, round, sticky⟩ := em
  cases round <;> cases sticky <;> simp only [Stands] at h
  · have hm : (ExtendedMantissa.mk m false false).roundedMantissa = m := rfl
    rw [hm, h, sub_self, abs_zero]
    exact ⟨by norm_num, fun heq => absurd heq (by norm_num)⟩
  · have hm : (ExtendedMantissa.mk m false true).roundedMantissa = m := rfl
    rw [hm, abs_of_neg (by linarith)]
    exact ⟨by linarith, fun heq => absurd heq (by linarith)⟩
  · have hm : (ExtendedMantissa.mk m true false).roundedMantissa = m + m % 2 := rfl
    have hhalf : |((m + m % 2 : ℕ) : ℚ) - (m + 1 / 2)| = 1 / 2 := by
      rcases Nat.mod_two_eq_zero_or_one m with hbit | hbit <;> rw [hbit] <;> push_cast
      · rw [abs_of_neg] <;> linarith
      · rw [abs_of_pos] <;> linarith
    rw [hm, h]
    exact ⟨hhalf.le, fun _ => by omega⟩
  · have hm : (ExtendedMantissa.mk m true true).roundedMantissa = m + 1 := rfl
    rw [hm, Nat.cast_add, Nat.cast_one, abs_of_pos (by linarith)]
    exact ⟨by linarith, fun heq => absurd heq (by linarith)⟩

theorem ofExact (m : ℕ) : Stands (.ofMantissaAndAccuracy m .exact) m := rfl

/-- An exact quotient, with what is left of it told by the accuracy. -/
theorem ofFraction {n d : ℕ} (hd : 0 < d) :
    Stands (.ofMantissaAndAccuracy (n / d) (accuracyOfFraction (n % d) d)) ((n : ℚ) / d) := by
  have hpos : (0 : ℚ) < d := by exact_mod_cast hd
  have hn : (n : ℚ) = d * (n / d : ℕ) + (n % d : ℕ) := by exact_mod_cast (Nat.div_add_mod n d).symm
  have hlt : ((n % d : ℕ) : ℚ) < d := by exact_mod_cast Nat.mod_lt n hd
  have hx : (n : ℚ) / d = (n / d : ℕ) + ((n % d : ℕ) : ℚ) / d := by
    rw [div_eq_iff hpos.ne', add_mul, div_mul_cancel₀ _ hpos.ne', mul_comm]
    exact hn
  rw [hx, accuracyOfFraction]
  split
  · next hzero =>
      rw [hzero, Nat.cast_zero, zero_div, add_zero]
      exact ofExact _
  · next hzero =>
      have hrest : (0 : ℚ) < (n % d : ℕ) := by exact_mod_cast Nat.pos_of_ne_zero hzero
      have hsome : (0 : ℚ) < ((n % d : ℕ) : ℚ) / d := div_pos hrest hpos
      have hfrac : ((n % d : ℕ) : ℚ) / d < 1 := (div_lt_one hpos).2 hlt
      cases hc : compare (2 * (n % d)) d with
      | lt =>
          have htwice : (2 : ℚ) * (n % d : ℕ) < d := by exact_mod_cast Nat.compare_eq_lt.1 hc
          have hhalf : ((n % d : ℕ) : ℚ) / d < 1 / 2 := (div_lt_iff₀ hpos).2 (by linarith)
          simp only [Stands, ExtendedMantissa.ofMantissaAndAccuracy]
          constructor <;> linarith
      | eq =>
          have htwice : (2 : ℚ) * (n % d : ℕ) = d := by exact_mod_cast Nat.compare_eq_eq.1 hc
          have hhalf : ((n % d : ℕ) : ℚ) / d = 1 / 2 := (div_eq_iff hpos.ne').2 (by linarith)
          simp only [Stands, ExtendedMantissa.ofMantissaAndAccuracy]
          linarith
      | gt =>
          have htwice : (d : ℚ) < 2 * (n % d : ℕ) := by exact_mod_cast Nat.compare_eq_gt.1 hc
          have hhalf : 1 / 2 < ((n % d : ℕ) : ℚ) / d := (lt_div_iff₀ hpos).2 (by linarith)
          simp only [Stands, ExtendedMantissa.ofMantissaAndAccuracy]
          constructor <;> linarith

end Stands

/-! ## What an operation rounds to -/

/-- The place to which a mantissa is shifted. -/
theorem targetExponent_eq (m : ℕ) (e : ℤ) :
    Format.binary64.targetExponent (Float.Model.totalExponent m e) = max (m.log2 + e - 52) (-1074) := by
  have hplaces : Float.Model.totalExponent m e - (Format.binary64.mantissaBits : ℤ) =
      m.log2 + e - 52 := by
    simp only [Float.Model.totalExponent, Format.mantissaBits]
    omega
  rw [Format.targetExponent, hplaces]
  rfl

theorem lt_zpow_log2 {q : ℚ} {m : ℕ} {e : ℤ} (h : q < (m + 1) * 2 ^ e) :
    q < 2 ^ (m.log2 + 1 + e : ℤ) := by
  have htop : (m : ℚ) + 1 ≤ 2 ^ (m.log2 + 1 : ℤ) := by
    have hnat : m + 1 ≤ 2 ^ (m.log2 + 1) := Nat.lt_log2_self
    exact_mod_cast hnat
  rw [zpow_add₀ (by norm_num)]
  exact h.trans_le (mul_le_mul_of_nonneg_right htop (by positivity))

theorem zpow_log2_le {q : ℚ} {m : ℕ} {e : ℤ} (hm : m ≠ 0) (h : m * 2 ^ e ≤ q) :
    2 ^ (m.log2 + e : ℤ) ≤ q := by
  have htop : (2 : ℚ) ^ (m.log2 : ℤ) ≤ m := by exact_mod_cast Nat.log2_self_le hm
  rw [zpow_add₀ (by norm_num)]
  exact (mul_le_mul_of_nonneg_right htop (by positivity)).trans h

theorem rounds_of_stands {q : ℚ} {m : ℕ} {e : ℤ} {accuracy : Accuracy}
    (h : Stands (.ofMantissaAndAccuracy m accuracy) (q / 2 ^ e))
    (hbits : 52 ≤ m.log2 ∨ e ≤ -1074) {k : ℕ} (hk : k = (max (m.log2 + e - 52) (-1074) - e).toNat) :
    Rounds q (ExtendedMantissa.ofMantissaAndAccuracy m accuracy >>> k).roundedMantissa (e + k) := by
  have hunit : (0 : ℚ) < 2 ^ e := by positivity
  have hmantissa : (ExtendedMantissa.ofMantissaAndAccuracy m accuracy).mantissa = m := by
    cases accuracy with
    | exact => rfl
    | inexact side => cases side <;> rfl
  have hplace : e + k = max (m.log2 + e - 52) (-1074) := by omega
  obtain ⟨hle, hlt⟩ := h.within
  rw [hmantissa, le_div_iff₀ hunit] at hle
  rw [hmantissa, div_lt_iff₀ hunit] at hlt
  have hscaled : (2 : ℚ) ^ (e + k : ℤ) = 2 ^ e * 2 ^ k := by
    rw [zpow_add₀ (by norm_num), zpow_natCast]
  have hplaceUnit : (0 : ℚ) < 2 ^ (e + k : ℤ) := by positivity
  obtain ⟨hnear, heven⟩ := (h.shiftRight k).rounded
  rw [div_div, ← hscaled] at hnear heven
  generalize hM : (ExtendedMantissa.ofMantissaAndAccuracy m accuracy >>> k).roundedMantissa = M at *
  have hdist : |(M : ℚ) * 2 ^ (e + k : ℤ) - q| = |(M : ℚ) - q / 2 ^ (e + k : ℤ)| * 2 ^ (e + k : ℤ) := by
    rw [← abs_of_pos hplaceUnit, ← abs_mul, abs_of_pos hplaceUnit, sub_mul,
      div_mul_cancel₀ _ hplaceUnit.ne']
  constructor
  · omega
  · have hmono : (2 : ℚ) ^ (m.log2 + 1 + e : ℤ) ≤ 2 ^ (e + k + 53 : ℤ) :=
      zpow_le_zpow_right₀ (by norm_num) (by omega)
    exact (lt_zpow_log2 hlt).trans_le hmono
  · by_cases hleast : e + k = -1074
    · exact .inl hleast
    · right
      have hm : m ≠ 0 := by
        rintro rfl
        simp at hplace hbits
        omega
      rw [show e + k + 52 = m.log2 + e by omega]
      exact zpow_log2_le hm hle
  · rw [hdist]
    have := mul_le_mul_of_nonneg_right hnear hplaceUnit.le
    linarith
  · intro htie
    rw [hdist] at htie
    refine heven (mul_right_cancel₀ hplaceUnit.ne' ?_)
    linarith

/-- What is made of a mantissa once it is rounded. -/
def settled (s : Sign) (m : ℕ) (t : ℤ) : UnpackedFloat :=
  let shifted := shiftToTargetExponent Format.binary64 m t .exact
  if h : shifted.1.mantissa = 0 then .zero s
  else .finite s shifted.1.mantissa shifted.2 (Nat.pos_of_ne_zero h)

theorem roundWithAccuracy_eq (s : Sign) (m : ℕ) (e : ℤ) (accuracy : Accuracy) :
    roundWithAccuracy Format.binary64 s m e accuracy =
      settled s (ExtendedMantissa.ofMantissaAndAccuracy m accuracy >>>
          (max (m.log2 + e - 52) (-1074) - e).toNat).roundedMantissa
        (e + (max (m.log2 + e - 52) (-1074) - e).toNat) := by
  rw [← targetExponent_eq]
  rfl

/-- A rounded mantissa is not shifted any more, unless it has become a power of two. -/
theorem shiftToTargetExponent_rounded {m : ℕ} {t : ℤ} (hm : m ≤ 2 ^ 53) (ht : -1074 ≤ t)
    (hfull : t = -1074 ∨ 2 ^ 52 ≤ m) : shiftToTargetExponent Format.binary64 m t .exact =
      if m = 2 ^ 53 then (⟨2 ^ 52, false, false⟩, t + 1) else (⟨m, false, false⟩, t) := by
  rw [shiftToTargetExponent, shiftToExponent, targetExponent_eq]
  split
  · next htop =>
      rw [htop, Nat.log2_two_pow, show (max (((53 : ℕ) : ℤ) + t - 52) (-1074) - t).toNat = 1 by omega]
      rfl
  · next htop =>
      have hlog : m.log2 ≤ 52 := by
        rcases Nat.eq_zero_or_pos m with rfl | hpos
        · decide
        · have := (Nat.log2_lt hpos.ne').mpr (show m < 2 ^ 53 by omega)
          omega
      rw [show (max ((m.log2 : ℤ) + t - 52) (-1074) - t).toNat = 0 by omega]
      exact congrArg (Prod.mk _) (add_zero t)

theorem ofFloat_settled (s : Sign) {m : ℕ} {t : ℤ} (hm : m ≤ 2 ^ 53) (ht : -1074 ≤ t)
    (hfull : t = -1074 ∨ 2 ^ 52 ≤ m) :
    ofFloat (.ofModel (.pack (settled s m t))) = rounded (isNegative s) m t := by
  simp only [settled, shiftToTargetExponent_rounded hm ht hfull, rounded]
  by_cases htop : m = 2 ^ 53
  · have hfits : Fits (.finite s (2 ^ 52) (t + 1) (by norm_num)) :=
      ⟨by norm_num, by omega, .inl (le_refl _)⟩
    have hlarge : 971 < t + 1 ↔ 970 < t := by omega
    simp only [if_pos htop, ← hlarge]
    rw [dif_neg (by norm_num), ofFloat_pack hfits]
    rfl
  · simp only [if_neg htop]
    split
    · next hzero =>
        rw [ofFloat_pack (u := .zero s) trivial, hzero, hfull.resolve_right (by omega)]
        rfl
    · next hzero =>
        have hfits : Fits (.finite s m t (Nat.pos_of_ne_zero hzero)) :=
          ⟨by omega, ht, hfull.symm⟩
        rw [ofFloat_pack hfits]
        rfl

/-- What an operation rounds is nearest to what it stands for, provided that it has enough bits of
it. -/
theorem isNearest_roundWithAccuracy (s : Sign) {q : ℚ} {m : ℕ} {e : ℤ} {accuracy : Accuracy}
    (h : Stands (.ofMantissaAndAccuracy m accuracy) (q / 2 ^ e))
    (hbits : 52 ≤ m.log2 ∨ e ≤ -1074) : IsNearest (sign (isNegative s) * q)
      (.ofModel (.pack (roundWithAccuracy Format.binary64 s m e accuracy))) := by
  have hrounds := rounds_of_stands h hbits rfl
  have hq : 0 ≤ q := by
    have hunit : (0 : ℚ) < 2 ^ e := by positivity
    have hle := mul_nonneg ((Nat.cast_nonneg _).trans h.within.1) hunit.le
    rwa [div_mul_cancel₀ _ hunit.ne'] at hle
  refine hrounds.isNearest hq ?_
  rw [roundWithAccuracy_eq]
  exact ofFloat_settled s hrounds.mantissa_le hrounds.least hrounds.le_mantissa

end ArmLink.Decimal
