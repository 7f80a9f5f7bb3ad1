import ArmLink.Proofs.Differences
import ArmLink.Record.Telemetry

/-!
# Which numbers can be rounded to so many decimals

A number is rounded by way of a product: it is multiplied by a power of ten, rounded to an
integer and divided again. The division never does harm. The product may leave the range of
the doubles, and so may the power, which is itself a product of squares of squares.

No closed form of the power is needed to see when it does. Multiplication by a double that
is at least one never makes a product smaller, and rounding keeps the order, so a power
whose exponent has more bits is not smaller than one with fewer of them (`powerSteps_under`).
A few exponents then bound all the others, from above up to 308 and from below after it.
-/

namespace ArmLink.Decimal

open Float.Model (Format UnpackedFloat)
open Float.Model.UnpackedFloat
open Binary64

/-! ## Products and quotients that are no numbers -/

theorem pack_nan_ne (v : ℚ) : rational? (.ofModel (.pack .notANumber)) ≠ some v := by
  intro h
  rw [rational?, ofFloat_pack_nan] at h
  cases h

theorem pack_infinity_ne (s : Sign) (v : ℚ) : rational? (.ofModel (.pack (.infinity s))) ≠ some v := by
  intro h
  rw [rational?, ofFloat_pack_infinity] at h
  cases h

theorem finite_of_mul {x y : Float} {v : ℚ} (h : rational? (x * y) = some v) :
    (∃ p, rational? x = some p) ∧ ∃ q, rational? y = some q := by
  have hmodel : x * y =
      .ofModel (.pack (UnpackedFloat.mul Format.binary64 x.toModel.unpack y.toModel.unpack)) := rfl
  rw [hmodel] at h
  rw [rational?, rational?, ← ofUnpacked_toModel x, ← ofUnpacked_toModel y]
  generalize x.toModel.unpack = a at *
  generalize y.toModel.unpack = b at *
  cases a with
  | notANumber => cases b <;> exact absurd h (pack_nan_ne v)
  | infinity s =>
      cases b with
      | notANumber | zero => exact absurd h (pack_nan_ne v)
      | infinity s' | finite s' => exact absurd h (pack_infinity_ne (s * s') v)
  | zero s =>
      cases b with
      | notANumber | infinity => exact absurd h (pack_nan_ne v)
      | zero | finite => exact ⟨⟨_, rfl⟩, ⟨_, rfl⟩⟩
  | finite s m e hm =>
      cases b with
      | notANumber => exact absurd h (pack_nan_ne v)
      | infinity s' => exact absurd h (pack_infinity_ne (s * s') v)
      | zero | finite => exact ⟨⟨_, rfl⟩, ⟨_, rfl⟩⟩

theorem finite_of_div {x y : Float} {v : ℚ} (h : rational? (x / y) = some v) :
    ∃ p, rational? x = some p := by
  have hmodel : x / y =
      .ofModel (.pack (UnpackedFloat.div Format.binary64 x.toModel.unpack y.toModel.unpack)) := rfl
  rw [hmodel] at h
  rw [rational?, ← ofUnpacked_toModel x]
  generalize x.toModel.unpack = a at *
  generalize y.toModel.unpack = b at *
  cases a with
  | notANumber => cases b <;> exact absurd h (pack_nan_ne v)
  | infinity s =>
      cases b with
      | notANumber | infinity => exact absurd h (pack_nan_ne v)
      | zero s' | finite s' => exact absurd h (pack_infinity_ne (s / s') v)
  | zero | finite => exact ⟨_, rfl⟩

theorem finite_of_roundHalfAway {x : Float} {v : ℚ} (h : rational? (roundHalfAway x) = some v) :
    ∃ p, rational? x = some p := by
  rw [roundHalfAway] at h
  split at h
  · next hx => exact ⟨_, by rw [rational?, hx, value?]⟩
  · exact ⟨v, h⟩

theorem unpack_of_infinite {x : Float} (h : ofFloat x = .infinite false) :
    x.toModel.unpack = .infinity .positive := by
  rw [← ofUnpacked_toModel] at h
  cases hx : x.toModel.unpack with
  | infinity s => cases s <;> simp_all [ofUnpacked, isNegative]
  | notANumber | zero | finite => simp [hx, ofUnpacked] at h

theorem unpack_eq {x y : Float} {p : ℚ} (hx : rational? x = some p) (hy : rational? y = some p)
    (hp : 0 < p) : x.toModel.unpack = y.toModel.unpack := by
  obtain ⟨m₁, e₁, h₁, hu₁, hp₁, hfull₁⟩ := unpack_of_pos hx hp
  obtain ⟨m₂, e₂, h₂, hu₂, hp₂, hfull₂⟩ := unpack_of_pos hy hp
  have hb₁ := ofUnpacked_toModel x
  have hb₂ := ofUnpacked_toModel y
  rw [hu₁] at hb₁
  rw [hu₂] at hb₂
  obtain ⟨hm₁, hleast₁, -, -⟩ := ofBits_bounds hb₁.symm
  obtain ⟨hm₂, hleast₂, -, -⟩ := ofBits_bounds hb₂.symm
  have hsame : (m₁ : ℚ) * 2 ^ e₁ = m₂ * 2 ^ e₂ := hp₁.symm.trans hp₂
  rw [hu₁, hu₂]
  rcases lt_trichotomy e₁ e₂ with hlt | rfl | hgt
  · exact absurd hsame (lt_of_exponent_lt hm₁ (hfull₂.resolve_right (by omega)) hlt).ne
  · have hunit : (2 : ℚ) ^ e₁ ≠ 0 := by positivity
    rw [mul_left_inj' hunit, Nat.cast_inj] at hsame
    subst hsame
    rfl
  · exact absurd hsame.symm (lt_of_exponent_lt hm₂ (hfull₁.resolve_right (by omega)) hgt).ne

/-! ## Doubles from one on -/

/-- A number that is at least one, or the infinity above. -/
def Large (x : Float) : Prop :=
  ofFloat x = .infinite false ∨ ∃ p, rational? x = some p ∧ 1 ≤ p

/-- No less than a number that is at least one. -/
def Under (x y : Float) : Prop :=
  ofFloat y = .infinite false ∨ ∃ p q, rational? x = some p ∧ rational? y = some q ∧ 1 ≤ p ∧ p ≤ q

theorem rational?_one : rational? 1.0 = some 1 := by decide +kernel

theorem Under.refl {x : Float} (h : Large x) : Under x x :=
  h.imp_right fun ⟨p, hp, hone⟩ => ⟨p, p, hp, hp, hone, le_refl p⟩

theorem Under.large {x y : Float} (h : Under x y) : Large y :=
  h.imp_right fun ⟨_, q, _, hq, hone, hle⟩ => ⟨q, hq, hone.trans hle⟩

theorem ofFloat_mul_infinite {x y : Float} (hx : Large x) (hy : Large y)
    (h : ofFloat x = .infinite false ∨ ofFloat y = .infinite false) :
    ofFloat (x * y) = .infinite false := by
  have hmodel : x * y =
      .ofModel (.pack (UnpackedFloat.mul Format.binary64 x.toModel.unpack y.toModel.unpack)) := rfl
  have hparts {z : Float} (hz : Large z) : z.toModel.unpack = .infinity .positive ∨
      ∃ m e, ∃ hm : 0 < m, z.toModel.unpack = .finite .positive m e hm := by
    rcases hz with hz | ⟨p, hp, hone⟩
    · exact .inl (unpack_of_infinite hz)
    · obtain ⟨m, e, hm, hu, -⟩ := unpack_of_pos hp (by linarith)
      exact .inr ⟨m, e, hm, hu⟩
  rw [hmodel]
  rcases h with h | h
  · rw [unpack_of_infinite h]
    rcases hparts hy with hu | ⟨m, e, hm, hu⟩ <;> rw [hu] <;> exact ofFloat_pack_infinity _
  · rw [unpack_of_infinite h]
    rcases hparts hx with hu | ⟨m, e, hm, hu⟩ <;> rw [hu] <;> exact ofFloat_pack_infinity _

/-- A factor from one on makes nothing smaller. -/
theorem Under.grow {x y b : Float} (h : Under x y) (hb : Large b) : Under x (y * b) := by
  rcases h with hy | ⟨p, q, hp, hq, hone, hle⟩
  · exact .inl (ofFloat_mul_infinite (.inl hy) hb (.inl hy))
  · rcases hb with hb | ⟨c, hc, hcone⟩
    · exact .inl (ofFloat_mul_infinite (.inr ⟨q, hq, hone.trans hle⟩) (.inl hb) (.inr hb))
    · have hpos : 0 < c := by linarith
      have hqpos : 0 < q := by linarith
      have hnear := isNearest_mul hq hc
      rcases hnear.finite_or_infinite with ⟨w, hw⟩ | ⟨negative, hinfinite, hfar⟩
      · have hgrown : q ≤ w := hnear.ge_of_ge hw hq (le_mul_of_one_le_right hqpos.le hcone)
        exact .inr ⟨p, w, hp, hw, hone, hle.trans hgrown⟩
      · left
        rw [hinfinite]
        cases negative with
        | false => rfl
        | true =>
            have hproduct : 0 < q * c := by positivity
            have hroom := rational?_lt_overflow rational?_one
            rw [sign_true] at hfar
            rw [abs_one] at hroom
            linarith

theorem Large.mul {x y : Float} (hx : Large x) (hy : Large y) : Large (x * y) :=
  ((Under.refl hx).grow hy).large

theorem Under.mul_right {x y b : Float} (h : Under x y) (hb : Large b) : Under (x * b) (y * b) := by
  rcases h with hy | ⟨p, q, hp, hq, hone, hle⟩
  · exact .inl (ofFloat_mul_infinite (.inl hy) hb (.inl hy))
  have hlarge : Large y := .inr ⟨q, hq, hone.trans hle⟩
  rcases hle.eq_or_lt with rfl | hlt
  · have hsame : x * b = y * b := by
      show Float.ofModel (.pack (UnpackedFloat.mul Format.binary64 x.toModel.unpack _)) = _
      rw [unpack_eq hp hq (by linarith)]
      rfl
    rw [hsame]
    exact .refl (hlarge.mul hb)
  rcases hb with hb | ⟨c, hc, hcone⟩
  · exact .inl (ofFloat_mul_infinite hlarge (.inl hb) (.inr hb))
  have hcpos : 0 < c := by linarith
  have hless : p * c < q * c := mul_lt_mul_of_pos_right hlt hcpos
  have hlow := isNearest_mul hp hc
  have hhigh := isNearest_mul hq hc
  rcases hlarge.mul (.inr ⟨c, hc, hcone⟩) with hinfinite | ⟨w, hw, -⟩
  · exact .inl hinfinite
  -- The greater product has room, so the smaller one has.
  have hroom : |p * c| < overflow := by
    have hproduct : 0 < p * c := mul_pos (by linarith) hcpos
    rw [abs_of_pos hproduct]
    exact hless.trans (abs_lt.1 (hhigh.abs_lt_overflow hw)).2
  obtain ⟨v, hv⟩ := hlow.finite_of_lt hroom
  have hvone : 1 ≤ v := hlow.ge_of_ge hv rational?_one (one_le_mul_of_one_le_of_one_le hone hcone)
  exact .inr ⟨v, w, hv, hw, hvone, hlow.le_of_lt hhigh hv hw hless⟩

end ArmLink.Decimal

namespace ArmLink.Record

open ArmLink.Decimal
open ArmLink.Decimal.Binary64

/-! ## Powers -/

theorem powerSteps_succ (fuel : ℕ) (base result : Float) (n : ℕ) :
    powerSteps (fuel + 1) base result n =
      powerSteps fuel (base * base) (if n % 2 = 1 then result * base else result) (n / 2) := by
  have hzero (fuel : ℕ) (base result : Float) : powerSteps fuel base result 0 = result := by
    cases fuel <;> rfl
  rw [powerSteps]
  split
  · next hlast => rw [hlast, hzero]
  · rfl

/-- A power with more bits is not smaller. -/
theorem powerSteps_under {fuel : ℕ} {base x y : Float} {n k : ℕ} (hbase : Large base)
    (h : Under x y) (hbits : ∀ i, n.testBit i = true → k.testBit i = true) :
    Under (powerSteps fuel base x n) (powerSteps fuel base y k) := by
  induction fuel generalizing base x y n k with
  | zero => exact h
  | succ fuel ih =>
      rw [powerSteps_succ, powerSteps_succ]
      refine ih (hbase.mul hbase) ?_ fun i => ?_
      · have hlow := hbits 0
        rw [Nat.testBit_zero, Nat.testBit_zero, decide_eq_true_iff, decide_eq_true_iff] at hlow
        split
        · next hn =>
            rw [if_pos (hlow hn)]
            exact h.mul_right hbase
        · split
          · exact h.grow hbase
          · exact h
      · rw [← Nat.testBit_succ, ← Nat.testBit_succ]
        exact hbits (i + 1)

theorem under_decimalScale {n k : ℕ} (hn : n < UInt32.size / 2) (hk : k < UInt32.size / 2)
    (hbits : n &&& k = n) : Under (decimalScale n) (decimalScale k) := by
  have hscale {d : ℕ} (hd : d < UInt32.size / 2) : decimalScale d = powerSteps 32 10.0 1.0 d := by
    rw [decimalScale, Nat.mod_eq_of_lt (hd.trans_le (Nat.div_le_self _ _)), if_pos hd]
  have hten : rational? 10.0 = some 10 := by decide +kernel
  rw [hscale hn, hscale hk]
  refine powerSteps_under (.inr ⟨10, hten, by norm_num⟩)
    (.refl (.inr ⟨1, rational?_one, le_refl 1⟩)) fun i hi => ?_
  rw [← hbits, Nat.testBit_and, Bool.and_eq_true] at hi
  exact hi.2

/-- Every exponent up to 308 has its bits among those of one of these. -/
def fullest : List ℕ := [255, 287, 303, 307, 308]

/-- Every greater one has all the bits of one of these. -/
def sparsest : List ℕ := [309, 310, 312, 320, 384] ++ (List.range' 9 22).map (2 ^ ·)

theorem two_pow_log2_and {d : ℕ} (h : d ≠ 0) : 2 ^ d.log2 &&& d = 2 ^ d.log2 := by
  refine Nat.eq_of_testBit_eq fun i => ?_
  rw [Nat.testBit_and, Nat.testBit_two_pow]
  by_cases hi : d.log2 = i
  · rw [← hi, Nat.testBit_log2 h, Bool.and_true]
  · rw [decide_eq_false hi, Bool.false_and]

theorem exists_fullest {d : ℕ} (h : d ≤ 308) : ∃ k ∈ fullest, d &&& k = d := by
  have hall : ∀ d : Fin 309, ∃ k ∈ fullest, d.val &&& k = d.val := by decide +kernel
  exact hall ⟨d, Nat.lt_succ_of_le h⟩

theorem exists_sparsest {d : ℕ} (h : 308 < d) (hd : d < UInt32.size / 2) :
    ∃ k ∈ sparsest, k &&& d = k := by
  by_cases hsmall : d < 512
  · have hall : ∀ d : Fin 512, 308 < d.val → ∃ k ∈ sparsest, k &&& d.val = k := by decide +kernel
    exact hall ⟨d, hsmall⟩ h
  · -- From here on the highest bit is enough.
    have hne : d ≠ 0 := by omega
    have hlow : 9 ≤ d.log2 := (Nat.le_log2 hne).2 (by omega)
    have hhigh : d.log2 < 31 := (Nat.log2_lt hne).2 hd
    have hmem : d.log2 ∈ List.range' 9 22 := List.mem_range'_1.2 ⟨hlow, by omega⟩
    exact ⟨2 ^ d.log2, List.mem_append_right _ (List.mem_map_of_mem hmem), two_pow_log2_and hne⟩

/-- Up to 308 decimals the power is a number. -/
theorem decimalScale_of_le {d : ℕ} (h : d ≤ 308) :
    ∃ c, rational? (decimalScale d) = some c ∧ 1 ≤ c := by
  have hfinite : ∀ k ∈ fullest, k < UInt32.size / 2 ∧ ofFloat (decimalScale k) ≠ .infinite false := by
    decide +kernel
  obtain ⟨k, hk, hbits⟩ := exists_fullest h
  obtain ⟨hroom, hne⟩ := hfinite k hk
  have hd : d < UInt32.size / 2 := lt_of_le_of_lt h (by decide)
  rcases under_decimalScale hd hroom hbits with hinfinite | ⟨c, -, hc, -, hone, -⟩
  · exact absurd hinfinite hne
  · exact ⟨c, hc, hone⟩

/-- With more of them it is not, as far as a count of decimals can go. -/
theorem decimalScale_of_lt {d : ℕ} (h : 308 < d) (hd : d < UInt32.size / 2) :
    ofFloat (decimalScale d) = .infinite false := by
  have hinfinite : ∀ k ∈ sparsest, k < UInt32.size / 2 ∧ rational? (decimalScale k) = none := by
    decide +kernel
  obtain ⟨k, hk, hbits⟩ := exists_sparsest h hd
  obtain ⟨hroom, hnone⟩ := hinfinite k hk
  rcases under_decimalScale hroom hd hbits with hinfinite | ⟨c, -, hc, -⟩
  · exact hinfinite
  · rw [hnone] at hc
    cases hc

/-! ## Rounded numbers -/

/-- The product that a number is rounded by stays in the range of the doubles. -/
def Roundable (decimals : ℕ) (x : Float) : Prop :=
  ∃ p c, rational? x = some p ∧ rational? (decimalScale decimals) = some c ∧ |p * c| < overflow

theorem one_le_of_decimalScale {d : ℕ} (hd : d < UInt32.size / 2) {c : ℚ}
    (hc : rational? (decimalScale d) = some c) : 1 ≤ c := by
  have hle : d ≤ 308 := by
    by_contra hlt
    rw [rational?, decimalScale_of_lt (not_le.1 hlt) hd] at hc
    cases hc
  obtain ⟨c', hc', hone⟩ := decimalScale_of_le hle
  rwa [Option.some.inj (hc.symm.trans hc')]

theorem roundable_of_finite {d : ℕ} {x : Float} {v : ℚ} (h : rational? (roundTo d x) = some v) :
    Roundable d x := by
  obtain ⟨k, hk⟩ := finite_of_div h
  obtain ⟨r, hr⟩ := finite_of_roundHalfAway hk
  obtain ⟨⟨p, hp⟩, ⟨c, hc⟩⟩ := finite_of_mul hr
  exact ⟨p, c, hp, hc, (isNearest_mul hp hc).abs_lt_overflow hr⟩

theorem finite_of_roundable {d : ℕ} {x : Float} (hd : d < UInt32.size / 2) (h : Roundable d x) :
    ∃ v, rational? (roundTo d x) = some v := by
  obtain ⟨p, c, hp, hc, hroom⟩ := h
  have hone : 1 ≤ c := one_le_of_decimalScale hd hc
  obtain ⟨r, hr⟩ := (isNearest_mul hp hc).finite_of_lt hroom
  obtain ⟨k, hk, -⟩ := rational?_roundHalfAway hr
  refine (isNearest_div hk hc (by linarith)).finite_of_lt ?_
  rw [abs_div, abs_of_pos (by linarith : 0 < c)]
  exact (div_le_self (abs_nonneg _) hone).trans_lt (rational?_lt_overflow hk)

theorem roundable_iff {d : ℕ} (hd : d < UInt32.size / 2) (x : Float) :
    Roundable d x ↔ ∃ v, rational? (roundTo d x) = some v :=
  ⟨finite_of_roundable hd, fun ⟨_, h⟩ => roundable_of_finite h⟩

theorem not_roundable_of_lt {d : ℕ} (h : 308 < d) (hd : d < UInt32.size / 2) (x : Float) :
    ¬ Roundable d x := by
  rintro ⟨p, c, -, hc, -⟩
  rw [rational?, decimalScale_of_lt h hd] at hc
  cases hc

end ArmLink.Record
