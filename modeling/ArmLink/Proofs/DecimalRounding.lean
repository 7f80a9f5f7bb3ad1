import ArmLink.Decimal.Reading
import ArmLink.Proofs.Numerals
import ArmLink.Proofs.Rounding

/-!
# From a decimal to the nearest double

A decimal is read as one multiplication or one division: a small mantissa and a small
power of ten are doubles, and with larger ones the same operation is done on the integers.
Either way the exact product or quotient is rounded once, so the double is the one that is
nearest to the decimal. The powers beyond any double are not formed at all; for them it is
enough that the decimal is above the bound for infinities, or below half of the smallest
double.
-/

namespace ArmLink.Decimal

open Float.Model (Format UnpackedFloat)
open Float.Model.UnpackedFloat
open Binary64

/-! ## Nearest doubles -/

theorem rational?_lt_overflow {y : Float} {w : ℚ} (h : rational? y = some w) : |w| < overflow := by
  obtain ⟨negative, n, e, hn, -, he, rfl⟩ := rational?_bounds h
  have hvalue : (0 : ℚ) ≤ n * 2 ^ e := by positivity
  have hmantissa : (n : ℚ) ≤ 2 ^ 53 - 1 := by
    have hsucc : ((n + 1 : ℕ) : ℚ) ≤ 2 ^ 53 := by exact_mod_cast hn
    rw [Nat.cast_add, Nat.cast_one] at hsucc
    linarith
  have hplace : (2 : ℚ) ^ e ≤ 2 ^ (971 : ℤ) := zpow_le_zpow_right₀ (by norm_num) he
  have hunit : (0 : ℚ) < 2 ^ (971 : ℤ) := by positivity
  rw [abs_sign_mul, abs_of_nonneg hvalue, Rounds.overflow_eq]
  calc (n : ℚ) * 2 ^ e ≤ (2 ^ 53 - 1) * 2 ^ (971 : ℤ) :=
        mul_le_mul hmantissa hplace (by positivity) (by norm_num)
    _ < (2 ^ 53 - 1 / 2) * 2 ^ (971 : ℤ) := mul_lt_mul_of_pos_right (by norm_num) hunit

theorem IsNearest.within {q v w : ℚ} {x y : Float} (h : IsNearest q x) (hx : rational? x = some v)
    (hy : rational? y = some w) : |v - q| ≤ |w - q| := by
  obtain ⟨negative, m, e, hparts, rfl⟩ := parts_of_rational? hx
  rw [IsNearest, hparts] at h
  exact (h.2 y w hy).1

/-- A number that is a double is rounded to nothing else. -/
theorem IsNearest.exact {q : ℚ} {x y : Float} (h : IsNearest q x) (hy : rational? y = some q) :
    rational? x = some q := by
  rw [IsNearest] at h
  rw [rational?]
  cases hx : ofFloat x with
  | nan => simp [hx] at h
  | infinite negative =>
      simp only [hx] at h
      have hroom := abs_lt.1 (rational?_lt_overflow hy)
      cases negative <;> simp [sign] at h <;> linarith
  | finite negative m e =>
      rw [hx] at h
      have hle := (h.2 y q hy).1
      rw [sub_self, abs_zero, abs_nonpos_iff, sub_eq_zero] at hle
      rw [value?, hle]

theorem IsNearest.neg {q : ℚ} {x : Float} (h : IsNearest q x) : IsNearest (-q) x.neg := by
  rw [IsNearest] at h ⊢
  rw [ofFloat_neg]
  cases hx : ofFloat x with
  | nan => simp [hx] at h
  | infinite negative =>
      rw [hx] at h
      simp only [Binary64.neg, sign_not, neg_mul_neg]
      exact h
  | finite negative m e =>
      rw [hx] at h
      obtain ⟨hroom, hnearest⟩ := h
      refine ⟨by rwa [abs_neg], fun y w hy => ?_⟩
      have hflip (z z' : ℚ) : |(-z) - z'| = |z - -z'| := by
        rw [← abs_neg]
        congr 1
        ring
      obtain ⟨hle, heq⟩ := hnearest y.neg (-w) (by rw [rational?_neg, hy, Option.map_some])
      rw [hflip w] at hle heq
      rw [sign_not, neg_mul, hflip, neg_neg]
      refine ⟨hle, fun hd => (heq hd).imp_left fun hw => ?_⟩
      rw [← hw, neg_neg]

/-- A double is nearest to the number it is. -/
theorem isNearest_exact {x : Float} {q : ℚ} (h : rational? x = some q) : IsNearest q x := by
  obtain ⟨negative, m, e, hx, hvalue⟩ := parts_of_rational? h
  rw [IsNearest, hx]
  refine ⟨rational?_lt_overflow h, fun y w _ => ?_⟩
  rw [← hvalue, sub_self, abs_zero]
  exact ⟨abs_nonneg _, fun hd => .inl (sub_eq_zero.1 (abs_eq_zero.1 hd.symm))⟩

/-- An integer times a power of two is rounded once. -/
theorem isNearest_round (s : Sign) {m : ℕ} (hm : 0 < m) (e : ℤ) :
    IsNearest (sign (isNegative s) * (m * 2 ^ e))
      (.ofModel (.pack (UnpackedFloat.round Format.binary64 s m e))) := by
  rw [UnpackedFloat.round, UnpackedFloat.decreaseExponent, targetExponent_eq]
  generalize hk : (e - max ((m.log2 : ℤ) + e - 52) (-1074)).toNat = k
  have hunit : (2 : ℚ) ^ (e - k : ℤ) ≠ 0 := by positivity
  have hvalue : (m : ℚ) * 2 ^ e / 2 ^ (e - k : ℤ) = (m <<< k : ℕ) := by
    rw [div_eq_iff hunit, Nat.shiftLeft_eq, Nat.cast_mul, Nat.cast_pow, Nat.cast_ofNat, mul_assoc,
      ← zpow_natCast, ← zpow_add₀ (by norm_num), add_sub_cancel]
  refine isNearest_roundWithAccuracy s ?_ ?_
  · rw [hvalue]
    exact Stands.ofExact _
  · by_cases hleast : e - k ≤ -1074
    · exact .inr hleast
    · left
      rw [Nat.le_log2 (by rw [Nat.shiftLeft_eq]; positivity), Nat.shiftLeft_eq]
      calc 2 ^ 52 ≤ 2 ^ (m.log2 + k) := Nat.pow_le_pow_right (by omega) (by omega)
        _ = 2 ^ m.log2 * 2 ^ k := Nat.pow_add ..
        _ ≤ m * 2 ^ k := Nat.mul_le_mul_right _ (Nat.log2_self_le hm.ne')

theorem rational?_pack_zero (s : Sign) : rational? (.ofModel (.pack (.zero s))) = some 0 := by
  rw [rational?, ofFloat_pack (u := .zero s) trivial]
  simp [packed, ofUnpacked, value?]

/-- An integer with a sign of its own, likewise; of nothing only the sign is chosen. -/
theorem isNearest_normalize (n e : ℤ) (s : Sign) :
    IsNearest (n * 2 ^ e) (.ofModel (.pack (UnpackedFloat.normalize Format.binary64 n e s))) := by
  rw [UnpackedFloat.normalize]
  rcases lt_trichotomy n 0 with hneg | rfl | hpos
  · obtain ⟨k, rfl⟩ : ∃ k : ℕ, n = -k := ⟨n.natAbs, by omega⟩
    rw [Int.compare_eq_lt.2 hneg, neg_neg]
    simpa [isNegative] using isNearest_round .negative (show 0 < k by omega) e
  · rw [Int.cast_zero, zero_mul]
    exact isNearest_exact (rational?_pack_zero s)
  · obtain ⟨k, rfl⟩ : ∃ k : ℕ, n = k := ⟨n.natAbs, by omega⟩
    rw [Int.compare_eq_gt.2 hpos]
    simpa [isNegative] using isNearest_round .positive (show 0 < k by omega) e

/-! ## Products and quotients -/

/-- The parts of a finite double, with a mantissa that is not too short to be rounded. -/
theorem unpack_of_rational? {x : Float} {q : ℚ} (h : rational? x = some q) :
    (∃ s, x.toModel.unpack = .zero s ∧ q = 0) ∨
      ∃ s m e, ∃ hm : 0 < m, x.toModel.unpack = .finite s m e hm ∧
        q = sign (isNegative s) * (m * 2 ^ e) ∧ (2 ^ 52 ≤ m ∨ e = -1074) := by
  have hparts := ofUnpacked_toModel x
  rw [rational?, ← hparts] at h
  cases hx : x.toModel.unpack with
  | notANumber | infinity =>
      rw [hx] at h
      cases h
  | zero s =>
      rw [hx] at h
      refine .inl ⟨s, rfl, ?_⟩
      simpa [ofUnpacked, value?] using h.symm
  | finite s m e hm =>
      rw [hx] at h hparts
      obtain ⟨-, -, -, hnormal⟩ := ofBits_bounds hparts.symm
      exact .inr ⟨s, m, e, hm, rfl, (Option.some.inj h).symm, hnormal⟩

theorem unpack_of_pos {x : Float} {q : ℚ} (h : rational? x = some q) (hq : 0 < q) :
    ∃ m e, ∃ hm : 0 < m, x.toModel.unpack = .finite .positive m e hm ∧ q = m * 2 ^ e ∧
      (2 ^ 52 ≤ m ∨ e = -1074) := by
  rcases unpack_of_rational? h with ⟨s, -, rfl⟩ | ⟨s, m, e, hm, hparts, hvalue, hnormal⟩
  · exact absurd hq (lt_irrefl _)
  · have hmagnitude : (0 : ℚ) < m * 2 ^ e := by positivity
    cases s with
    | negative =>
        simp [isNegative, sign] at hvalue
        linarith
    | positive =>
        simp [isNegative, sign] at hvalue
        exact ⟨m, e, hm, hparts, hvalue, hnormal⟩

theorem sign_mul (s₁ s₂ : Sign) :
    sign (isNegative (s₁ * s₂)) = sign (isNegative s₁) * sign (isNegative s₂) := by
  have hsign : isNegative (s₁ * s₂) = (isNegative s₁ ^^ isNegative s₂) := by
    cases s₁ <;> cases s₂ <;> rfl
  rw [hsign]
  cases isNegative s₁ <;> cases isNegative s₂ <;> simp

theorem isNearest_mulFinite (s₁ s₂ : Sign) {m₁ m₂ : ℕ} {e₁ e₂ : ℤ} (h₁ : 0 < m₁) (h₂ : 0 < m₂)
    (hbits : 2 ^ 52 ≤ m₁ * m₂ ∨ e₁ + e₂ ≤ -1074) :
    IsNearest (sign (isNegative s₁) * (m₁ * 2 ^ e₁) * (sign (isNegative s₂) * (m₂ * 2 ^ e₂)))
      (.ofModel (.pack (UnpackedFloat.mul Format.binary64 (.finite s₁ m₁ e₁ h₁) (.finite s₂ m₂ e₂ h₂)))) := by
  have hunit : (2 : ℚ) ^ (e₁ + e₂) ≠ 0 := by positivity
  rw [UnpackedFloat.mul, mul_mul_mul_comm, ← sign_mul]
  refine isNearest_roundWithAccuracy (s₁ * s₂) ?_ (hbits.imp_left fun hlarge => ?_)
  · have hvalue : (m₁ : ℚ) * 2 ^ e₁ * (m₂ * 2 ^ e₂) / 2 ^ (e₁ + e₂) = (m₁ * m₂ : ℕ) := by
      rw [div_eq_iff hunit, zpow_add₀ (by norm_num), Nat.cast_mul]
      ring
    rw [hvalue]
    exact Stands.ofExact _
  · exact (Nat.le_log2 (Nat.mul_pos h₁ h₂).ne').2 hlarge

/-- A product is rounded once. -/
theorem isNearest_mul {x y : Float} {p q : ℚ} (hx : rational? x = some p)
    (hy : rational? y = some q) : IsNearest (p * q) (x * y) := by
  have hmodel : x * y =
      .ofModel (.pack (UnpackedFloat.mul Format.binary64 x.toModel.unpack y.toModel.unpack)) := rfl
  rw [hmodel]
  rcases unpack_of_rational? hx with ⟨s₁, hparts₁, rfl⟩ | ⟨s₁, m₁, e₁, h₁, hparts₁, rfl, hnormal₁⟩ <;>
    rcases unpack_of_rational? hy with ⟨s₂, hparts₂, rfl⟩ | ⟨s₂, m₂, e₂, h₂, hparts₂, rfl, hnormal₂⟩ <;>
    rw [hparts₁, hparts₂]
  · rw [zero_mul]
    exact isNearest_exact (rational?_pack_zero (s₁ * s₂))
  · rw [zero_mul]
    exact isNearest_exact (rational?_pack_zero (s₁ * s₂))
  · rw [mul_zero]
    exact isNearest_exact (rational?_pack_zero (s₁ * s₂))
  · refine isNearest_mulFinite s₁ s₂ h₁ h₂ ?_
    rcases hnormal₁ with hlarge | hleast₁
    · exact .inl (hlarge.trans (Nat.le_mul_of_pos_right _ h₂))
    · rcases hnormal₂ with hlarge | hleast₂
      · exact .inl (hlarge.trans (Nat.le_mul_of_pos_left _ h₁))
      · exact .inr (by omega)

/-- A quotient is formed of as many bits as its rounding asks for. -/
theorem divCore_eq (m₁ m₂ : ℕ) (e₁ e₂ : ℤ) : ∃ k : ℕ,
    divCore Format.binary64 m₁ e₁ m₂ e₂ =
      (m₁ * 2 ^ k / m₂, e₁ - e₂ - k, accuracyOfFraction (m₁ * 2 ^ k % m₂) m₂) ∧
    (53 + m₂.log2 ≤ m₁.log2 + k ∨ e₁ - e₂ - k ≤ -1074) := by
  have hplaces : Format.binary64.targetExponent
      (Float.Model.totalExponent m₁ e₁ - Float.Model.totalExponent m₂ e₂) =
        max (m₁.log2 + e₁ - (m₂.log2 + e₂) - 53) (-1074) := by
    have htotal : Float.Model.totalExponent m₁ e₁ - Float.Model.totalExponent m₂ e₂ -
        (Format.binary64.mantissaBits : ℤ) = m₁.log2 + e₁ - (m₂.log2 + e₂) - 53 := by
      simp only [Float.Model.totalExponent, Format.mantissaBits]
      omega
    rw [Format.targetExponent, htotal]
    rfl
  refine ⟨(e₁ - e₂ - min (e₁ - e₂) (max (m₁.log2 + e₁ - (m₂.log2 + e₂) - 53) (-1074))).toNat, ?_, ?_⟩
  · rw [divCore, hplaces, ← Nat.shiftLeft_eq]
    simp only [Prod.mk.injEq, true_and, and_true]
    omega
  · omega

theorem isNearest_divFinite (s : Sign) {m₁ m₂ : ℕ} {e₁ e₂ : ℤ} (h₁ : 0 < m₁) (h₂ : 0 < m₂) :
    IsNearest (sign (isNegative s) * (m₁ * 2 ^ e₁ / (m₂ * 2 ^ e₂))) (.ofModel (.pack
      (UnpackedFloat.div Format.binary64 (.finite s m₁ e₁ h₁) (.finite .positive m₂ e₂ h₂)))) := by
  obtain ⟨k, hcore, hbits⟩ := divCore_eq m₁ m₂ e₁ e₂
  have hsign : s / .positive = s := by cases s <;> rfl
  have hdiv : UnpackedFloat.div Format.binary64 (.finite s m₁ e₁ h₁)
      (.finite .positive m₂ e₂ h₂) = roundWithAccuracy Format.binary64 s (m₁ * 2 ^ k / m₂)
        (e₁ - e₂ - k) (accuracyOfFraction (m₁ * 2 ^ k % m₂) m₂) := by
    have hunfold : UnpackedFloat.div Format.binary64 (.finite s m₁ e₁ h₁)
        (.finite .positive m₂ e₂ h₂) = roundWithAccuracy Format.binary64 (s / .positive)
          (divCore Format.binary64 m₁ e₁ m₂ e₂).1 (divCore Format.binary64 m₁ e₁ m₂ e₂).2.1
          (divCore Format.binary64 m₁ e₁ m₂ e₂).2.2 := rfl
    rw [hunfold, hcore, hsign]
  rw [hdiv]
  refine isNearest_roundWithAccuracy s ?_ (hbits.imp_left fun hlarge => ?_)
  · have hne : (m₂ : ℚ) ≠ 0 := Nat.cast_ne_zero.2 h₂.ne'
    have hvalue : (m₁ : ℚ) * 2 ^ e₁ / (m₂ * 2 ^ e₂) / 2 ^ (e₁ - e₂ - k) =
        ((m₁ * 2 ^ k : ℕ) : ℚ) / m₂ := by
      have htwo : (2 : ℚ) ≠ 0 := by norm_num
      rw [zpow_sub₀ htwo, zpow_sub₀ htwo, zpow_natCast, Nat.cast_mul, Nat.cast_pow, Nat.cast_ofNat]
      field_simp
    rw [hvalue]
    exact Stands.ofFraction h₂
  · have hquotient : 2 ^ 52 ≤ m₁ * 2 ^ k / m₂ := by
      rw [Nat.le_div_iff_mul_le h₂]
      calc 2 ^ 52 * m₂ ≤ 2 ^ 52 * 2 ^ (m₂.log2 + 1) :=
            Nat.mul_le_mul_left _ Nat.lt_log2_self.le
        _ = 2 ^ (53 + m₂.log2) := by rw [← Nat.pow_add, show 52 + (m₂.log2 + 1) = 53 + m₂.log2 by omega]
        _ ≤ 2 ^ (m₁.log2 + k) := Nat.pow_le_pow_right (by omega) hlarge
        _ = 2 ^ m₁.log2 * 2 ^ k := Nat.pow_add ..
        _ ≤ m₁ * 2 ^ k := Nat.mul_le_mul_right _ (Nat.log2_self_le h₁.ne')
    exact (Nat.le_log2 (by omega)).2 hquotient

/-- The quotient by a positive double is rounded once. -/
theorem isNearest_div {x y : Float} {p q : ℚ} (hx : rational? x = some p) (hy : rational? y = some q)
    (hq : 0 < q) : IsNearest (p / q) (x / y) := by
  obtain ⟨m₂, e₂, h₂, hparts₂, rfl, -⟩ := unpack_of_pos hy hq
  have hmodel : x / y =
      .ofModel (.pack (UnpackedFloat.div Format.binary64 x.toModel.unpack y.toModel.unpack)) := rfl
  rw [hmodel, hparts₂]
  rcases unpack_of_rational? hx with ⟨s, hparts₁, rfl⟩ | ⟨s, m₁, e₁, h₁, hparts₁, rfl, -⟩
  · rw [hparts₁, zero_div]
    refine isNearest_exact ?_
    have hzero : UnpackedFloat.div Format.binary64 (.zero s) (.finite .positive m₂ e₂ h₂) =
        .zero (s / .positive) := rfl
    rw [hzero]
    exact rational?_pack_zero _
  · rw [hparts₁, mul_div_assoc]
    exact isNearest_divFinite s h₁ h₂

/-! ## Powers of ten -/

theorem isNearest_ofNat (n : ℕ) :
    IsNearest n (.ofModel (.pack (UnpackedFloat.ofNat Format.binary64 n))) := by
  have hnearest := isNearest_normalize n 0 .positive
  rw [Int.cast_natCast, zpow_zero, mul_one] at hnearest
  exact hnearest

/-- A small natural number is a double. -/
theorem rational?_toFloat {n : ℕ} (h : n < 2 ^ 53) :
    rational? n.toUInt64.toFloat = some (n : ℚ) := by
  have hsame : n.toUInt64.toNat = n := by
    rw [Nat.toUInt64_eq, UInt64.toNat_ofNat', Nat.mod_eq_of_lt (by omega)]
  have hmodel : n.toUInt64.toFloat =
      .ofModel (.pack (UnpackedFloat.ofNat Format.binary64 n.toUInt64.toNat)) := rfl
  have hassembled : rational? (assemble false n 0) = some (n : ℚ) := by
    simpa using rational?_assemble false h
  rw [hmodel, hsame]
  exact (isNearest_ofNat n).exact hassembled

theorem rational?_powersOfTen (e : Fin Float.exactlyRepresentablePowersOfTen.size) :
    rational? Float.exactlyRepresentablePowersOfTen[e] = some (10 ^ e.val) := by
  revert e
  decide +kernel

theorem rational?_powerOfTen {e : ℕ} (he : e < Float.exactlyRepresentablePowersOfTen.size) :
    rational? Float.exactlyRepresentablePowersOfTen[e] = some (10 ^ e) :=
  rational?_powersOfTen ⟨e, he⟩

theorem overflow_le_power {e : ℕ} (he : 309 ≤ e) : overflow ≤ 10 ^ e := by
  have hpower : (2 : ℚ) ^ 1024 ≤ 10 ^ 309 := by
    have hnat : 2 ^ 1024 ≤ 10 ^ 309 := by decide +kernel
    exact_mod_cast hnat
  calc overflow ≤ 2 ^ 1024 := sub_le_self _ (by positivity)
    _ ≤ 10 ^ 309 := hpower
    _ ≤ 10 ^ e := pow_le_pow_right₀ (by norm_num) he

theorem isNearest_infinite {q : ℚ} (hq : overflow ≤ q) {x : Float} (hx : ofFloat x = .infinite false) :
    IsNearest q x := by
  rw [IsNearest, hx]
  simpa [sign] using hq

theorem isNearest_zero {q : ℚ} (hq : 0 ≤ q) (hsmall : q ≤ 1 / 10 ^ 324) {x : Float}
    (hx : ofFloat x = .finite false 0 leastExponent) : IsNearest q x := by
  have hpower : (1 : ℚ) / 10 ^ 324 ≤ 1 / 2 ^ 1075 := by
    have hnat : 2 ^ 1075 ≤ 10 ^ 324 := by decide +kernel
    exact one_div_le_one_div_of_le (by positivity) (by exact_mod_cast hnat)
  have hhalf : (2 : ℚ) ^ (-1074 : ℤ) / 2 = 1 / 2 ^ 1075 := by
    rw [zpow_neg, zpow_ofNat, pow_succ 2 1074, inv_eq_one_div, div_div]
  have hnear : q ≤ 2 ^ (-1074 : ℤ) / 2 := by
    rw [hhalf]
    exact hsmall.trans hpower
  have hrounds : Rounds q 0 (-1074) := by
    constructor
    · exact le_refl _
    · have hunit : (0 : ℚ) < 2 ^ (-1074 : ℤ) := by positivity
      have hmono : (2 : ℚ) ^ (-1074 : ℤ) ≤ 2 ^ (-1074 + 53 : ℤ) :=
        zpow_le_zpow_right₀ (by norm_num) (by omega)
      linarith only [hunit, hmono, hnear]
    · exact .inl rfl
    · rw [Nat.cast_zero, zero_mul, zero_sub, abs_neg, abs_of_nonneg hq]
      exact hnear
    · exact fun _ => rfl
  have hnearest : IsNearest (sign false * q) x := hrounds.isNearest hq hx
  rwa [sign_false, one_mul] at hnearest

/-- A number of so many digits, so far behind the point. -/
theorem le_of_digits {q : ℚ} {count : ℕ} {e : ℤ} (hq : q ≤ 10 ^ count)
    (he : count + e + 324 ≤ 0) : q * 10 ^ e ≤ 1 / 10 ^ 324 := by
  have hten : (10 : ℚ) ≠ 0 := by norm_num
  rw [le_div_iff₀ (by positivity)]
  calc q * 10 ^ e * 10 ^ 324 ≤ 10 ^ count * 10 ^ e * 10 ^ 324 := by gcongr
    _ = 10 ^ (count + e + (324 : ℕ) : ℤ) := by
        rw [zpow_add₀ hten, zpow_add₀ hten, zpow_natCast, zpow_natCast]
    _ ≤ 1 := zpow_le_one_of_nonpos₀ (by norm_num) (by omega)

theorem isNearest_unpackedOfScientific {m : ℕ} (hm : 0 < m) (e : ℤ) :
    IsNearest (m * 10 ^ e) (.ofModel (.pack (UnpackedFloat.ofScientific Format.binary64 m e))) := by
  have hbits : (2 : ℤ) ^ Format.binary64.exponentBits = 2048 := rfl
  rw [UnpackedFloat.ofScientific, dif_neg hm.ne', hbits]
  split_ifs with hlarge hsmall hnonneg
  · obtain ⟨k, rfl⟩ := Int.eq_ofNat_of_zero_le (show 0 ≤ e by omega)
    have hone : (1 : ℚ) ≤ m := by exact_mod_cast hm
    refine isNearest_infinite ?_ (ofFloat_pack (u := .infinity .positive) trivial)
    rw [zpow_natCast]
    exact (overflow_le_power (by omega)).trans (le_mul_of_one_le_left (by positivity) hone)
  · refine isNearest_zero (by positivity) ?_ (ofFloat_pack (u := .zero .positive) trivial)
    have hmantissa : (m : ℚ) ≤ 10 ^ (m.log2 + 1) := by
      have hlt : m ≤ 10 ^ (m.log2 + 1) :=
        Nat.lt_log2_self.le.trans (Nat.pow_le_pow_left (by omega) _)
      exact_mod_cast hlt
    exact le_of_digits hmantissa (by omega)
  · obtain ⟨k, rfl⟩ := Int.eq_ofNat_of_zero_le hnonneg
    have hvalue : (m : ℚ) * (10 : ℚ) ^ (k : ℤ) =
        ((m <<< 53 : ℕ) : ℚ) * (2 : ℚ) ^ (-53 : ℤ) * (((10 ^ k : ℕ) : ℚ) * (2 : ℚ) ^ (0 : ℤ)) := by
      have hcancel : (2 : ℚ) ^ 53 * 2 ^ (-53 : ℤ) = 1 := by norm_num
      rw [Nat.shiftLeft_eq, Nat.cast_mul, Nat.cast_pow, Nat.cast_ofNat, mul_assoc (m : ℚ), hcancel]
      simp
    have hnearest := @isNearest_mulFinite .positive .positive (m <<< 53) (10 ^ k) (-53) 0
      (by rw [Nat.shiftLeft_eq]; positivity) (by positivity) (.inl ?_)
    · simp only [isNegative, sign_false, one_mul, ← hvalue] at hnearest
      exact hnearest
    calc 2 ^ 52 ≤ 1 * 2 ^ 53 * 1 := by norm_num
      _ ≤ m <<< 53 * 10 ^ k := by
          rw [Nat.shiftLeft_eq]
          exact Nat.mul_le_mul (Nat.mul_le_mul_right _ hm) (Nat.one_le_pow _ _ (by omega))
  · obtain ⟨k, hk⟩ := Int.eq_ofNat_of_zero_le (show 0 ≤ -e by omega)
    have hvalue : (m : ℚ) * 10 ^ e = m * 2 ^ (0 : ℤ) / ((10 ^ k : ℕ) * 2 ^ (0 : ℤ)) := by
      rw [show e = -(k : ℤ) by omega, zpow_neg, zpow_natCast]
      simp [div_eq_mul_inv]
    have hnearest := @isNearest_divFinite .positive m (10 ^ k) 0 0 hm (by positivity)
    rw [isNegative, sign_false, one_mul, ← hvalue] at hnearest
    have hnat : (-e).toNat = k := by omega
    simp only [hnat]
    exact hnearest

theorem isNearest_ofScientific {m : ℕ} (hm : 0 < m) (negative : Bool) (e : ℕ) :
    IsNearest (m * 10 ^ signed negative e) (Float.ofScientific m negative e) := by
  rw [Float.ofScientific]
  split
  · next hfast =>
      have hmantissa := rational?_toFloat hfast.1
      have hpower := rational?_powerOfTen (Nat.lt_succ_of_le hfast.2)
      cases negative with
      | false =>
          rw [signed, if_neg (by simp), zpow_natCast]
          exact isNearest_mul hmantissa hpower
      | true =>
          rw [signed, if_pos rfl, zpow_neg, zpow_natCast, ← div_eq_mul_inv]
          exact isNearest_div hmantissa hpower (by positivity)
  · cases negative with
    | false => exact isNearest_unpackedOfScientific hm e
    | true =>
        have hneg : -(e : ℤ) = Int.negOfNat e := Int.negOfNat_eq.symm
        rw [signed, if_pos rfl, hneg]
        exact isNearest_unpackedOfScientific hm (Int.negOfNat e)

/-- The number a decimal is. -/
def Written.value (w : Written) : ℚ := w.number * 10 ^ w.exponent

/-- A decimal is read as the double nearest to it, however far it is from the point. -/
theorem isNearest_toFloat (w : Written) : IsNearest w.value w.toFloat := by
  have hzero : ofFloat 0.0 = .finite false 0 leastExponent := by decide +kernel
  have hinfinite : ofFloat (1.0 / 0.0) = .infinite false := by decide +kernel
  rw [Written.value, Written.toFloat]
  split_ifs with hnone hlarge hsmall hwhole
  · refine isNearest_zero ?_ ?_ hzero <;> simp [hnone]
  · obtain ⟨k, hk⟩ := Int.eq_ofNat_of_zero_le (show 0 ≤ w.exponent by omega)
    have hone : (1 : ℚ) ≤ w.number := by exact_mod_cast Nat.pos_of_ne_zero hnone
    refine isNearest_infinite ?_ hinfinite
    rw [hk, zpow_natCast]
    exact (overflow_le_power (by omega)).trans (le_mul_of_one_le_left (by positivity) hone)
  · refine isNearest_zero (by positivity) ?_ hzero
    have hnumber : (w.number : ℚ) ≤ 10 ^ (digits w.number).length := by
      exact_mod_cast (lt_pow_length w.number).le
    exact le_of_digits hnumber (by omega)
  · have hsigned : w.exponent = signed false w.exponent.toNat := by
      rw [signed, if_neg (by simp), Int.toNat_of_nonneg hwhole]
    have hnearest := isNearest_ofScientific (Nat.pos_of_ne_zero hnone) false w.exponent.toNat
    rwa [← hsigned] at hnearest
  · have hsigned : w.exponent = signed true (-w.exponent).toNat := by
      rw [signed, if_pos rfl]
      omega
    have hnearest := isNearest_ofScientific (Nat.pos_of_ne_zero hnone) true (-w.exponent).toNat
    rwa [← hsigned] at hnearest

end ArmLink.Decimal
