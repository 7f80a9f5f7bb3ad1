import ArmLink.Proofs.DecimalRounding

/-!
# Differences and comparisons of doubles

The sum and the difference of two doubles are rounded once, and rounding never passes over
a double: what lies on one side of a double before it is rounded lies there afterwards.
Comparing is exact. So whether a difference is beyond some bound can be said of the exact
difference, up to half a unit of the bound.

Two of the operations have to be followed through infinities as well, because a comparison
with one is an answer like any other. Something that is not a number compares with nothing,
and every comparison with it is false.
-/

namespace ArmLink.Decimal

open Float.Model (Format UnpackedFloat)
open Float.Model.UnpackedFloat
open Binary64

/-! ## Rounding and order -/

namespace IsNearest

variable {q v w : ℚ} {x y : Float}

theorem le_of_le (h : IsNearest q x) (hx : rational? x = some v) (hy : rational? y = some w)
    (hle : q ≤ w) : v ≤ w := by
  have hnear := h.within hx hy
  by_contra hlt
  rw [not_le] at hlt
  rw [abs_of_pos (by linarith), abs_of_nonneg (by linarith)] at hnear
  linarith

theorem ge_of_ge (h : IsNearest q x) (hx : rational? x = some v) (hy : rational? y = some w)
    (hle : w ≤ q) : w ≤ v := by
  have hneg := h.neg.le_of_le (y := y.neg) (by rw [rational?_neg, hx]; rfl)
    (by rw [rational?_neg, hy]; rfl) (neg_le_neg hle)
  linarith

theorem finite_or_infinite (h : IsNearest q x) :
    (∃ v, rational? x = some v) ∨ ∃ negative, ofFloat x = .infinite negative ∧
      overflow ≤ sign negative * q := by
  rw [IsNearest] at h
  cases hx : ofFloat x with
  | nan => simp [hx] at h
  | infinite negative =>
      rw [hx] at h
      exact .inr ⟨negative, rfl, h⟩
  | finite negative m e => exact .inl ⟨_, by rw [rational?, hx, value?]⟩

theorem abs_lt_overflow (h : IsNearest q x) (hx : rational? x = some v) : |q| < overflow := by
  obtain ⟨negative, m, e, hparts, -⟩ := parts_of_rational? hx
  rw [IsNearest, hparts] at h
  exact h.1

theorem finite_of_lt (h : IsNearest q x) (hq : |q| < overflow) : ∃ v, rational? x = some v := by
  rcases h.finite_or_infinite with hfinite | ⟨negative, -, hfar⟩
  · exact hfinite
  · rw [← abs_sign_mul negative] at hq
    exact absurd (hfar.trans (le_abs_self _)) (not_le.2 hq)

/-- Numbers in order stay in order. -/
theorem le_of_lt (hx : IsNearest q x) {p : ℚ} (hy : IsNearest p y) (hv : rational? x = some v)
    (hw : rational? y = some w) (h : q < p) : v ≤ w := by
  by_contra hlt
  have hleft := sq_le_sq.2 (hx.within hv hw)
  have hright := sq_le_sq.2 (hy.within hw hv)
  nlinarith

end IsNearest

theorem lt_of_exponent_lt {m₁ m₂ : ℕ} {e₁ e₂ : ℤ} (h₁ : m₁ < 2 ^ 53) (h₂ : 2 ^ 52 ≤ m₂) (h : e₁ < e₂) :
    (m₁ : ℚ) * 2 ^ e₁ < m₂ * 2 ^ e₂ := by
  have hunit : (0 : ℚ) < 2 ^ e₁ := by positivity
  have hm₁ : (m₁ : ℚ) < 2 ^ 53 := by exact_mod_cast h₁
  have hm₂ : (2 ^ 52 : ℚ) ≤ m₂ := by exact_mod_cast h₂
  calc (m₁ : ℚ) * 2 ^ e₁ < 2 ^ 53 * 2 ^ e₁ := mul_lt_mul_of_pos_right hm₁ hunit
    _ = 2 ^ 52 * 2 ^ (e₁ + 1) := by rw [zpow_add₀ (by norm_num)]; ring
    _ ≤ m₂ * 2 ^ e₂ :=
        mul_le_mul hm₂ (zpow_le_zpow_right₀ (by norm_num) h) (by positivity) (Nat.cast_nonneg _)

/-- Between two neighbours there is no double. -/
theorem succ_le_of_lt {x : Float} {v : ℚ} (hx : rational? x = some v) {m : ℕ} {t : ℤ}
    (hm : 2 ^ 52 ≤ m) (h : m * 2 ^ t < v) : (m + 1 : ℕ) * 2 ^ t ≤ v := by
  obtain ⟨negative, n, e, hn, -, -, rfl⟩ := rational?_bounds hx
  have hunit : (0 : ℚ) < 2 ^ t := by positivity
  have hlow : (0 : ℚ) ≤ m * 2 ^ t := by positivity
  have hhigh : (0 : ℚ) ≤ n * 2 ^ e := by positivity
  cases negative with
  | true =>
      rw [sign_true] at h
      linarith
  | false =>
      rw [sign_false, one_mul] at h ⊢
      have hplace : t ≤ e := by
        by_contra hlt
        have hless := lt_of_exponent_lt hn hm (not_le.1 hlt)
        linarith
      rw [mul_zpow_eq hplace] at h ⊢
      have hmantissa : m < n * 2 ^ (e - t).toNat := by
        exact_mod_cast (mul_lt_mul_iff_left₀ hunit).1 h
      exact (mul_le_mul_iff_left₀ hunit).2 (by exact_mod_cast hmantissa)

/-- A short mantissa at a finer place is less than a full one, and at a coarser one it stays even. -/
theorem even_of_eq {n m : ℕ} {e t : ℤ} (hn : n < 2 ^ 53) (hm : 2 ^ 52 ≤ m) (heven : n % 2 = 0)
    (h : (n : ℚ) * 2 ^ e = m * 2 ^ t) : m % 2 = 0 := by
  have hunit : (2 : ℚ) ^ t ≠ 0 := by positivity
  have hplace : t ≤ e := by
    by_contra hlt
    exact (lt_of_exponent_lt hn hm (not_le.1 hlt)).ne h
  rw [mul_zpow_eq hplace, mul_left_inj' hunit, Nat.cast_inj] at h
  rw [← h, Nat.mul_mod, heven, Nat.zero_mul, Nat.zero_mod]

/-- What is rounded beyond a double with an even mantissa lies beyond the middle to the next. -/
theorem IsNearest.lt_iff_of_even {d v : ℚ} {x y z : Float} (h : IsNearest d x)
    (hx : rational? x = some v) {m : ℕ} {t : ℤ} (hm : 2 ^ 52 ≤ m) (heven : m % 2 = 0)
    (hy : rational? y = some ((m : ℚ) * 2 ^ t)) (hz : rational? z = some (((m + 1 : ℕ) : ℚ) * 2 ^ t)) :
    (m : ℚ) * 2 ^ t < v ↔ ((m : ℚ) + 1 / 2) * 2 ^ t < d := by
  have hunit : (0 : ℚ) < 2 ^ t := by positivity
  have hnext : ((m + 1 : ℕ) : ℚ) * 2 ^ t = m * 2 ^ t + 2 ^ t := by
    rw [Nat.cast_add, Nat.cast_one]
    ring
  rw [hnext] at hz
  obtain ⟨negative, n, e, hparts, hvalue⟩ := parts_of_rational? hx
  have hnear := h
  rw [IsNearest, hparts] at hnear
  simp only [← hvalue] at hnear
  obtain ⟨hcloser, htie⟩ := hnear.2 y _ hy
  constructor
  · intro hlt
    by_contra hle
    have hover := succ_le_of_lt hx hm hlt
    rw [hnext] at hover
    have hbeyond : ¬ d ≤ m * 2 ^ t := fun hd => absurd (h.le_of_le hx hy hd) (not_le.2 hlt)
    rw [abs_of_nonneg (by linarith), abs_of_nonpos (by linarith)] at hcloser htie
    -- Only the middle is left, and there the even one is taken.
    have hmiddle : v = m * 2 ^ t + 2 ^ t := by linarith
    rcases htie (by linarith) with hsame | hodd
    · linarith
    · obtain ⟨hn, -, -, -⟩ := ofBits_bounds hparts
      have hpos : (0 : ℚ) ≤ n * 2 ^ e := by positivity
      have hlow : (0 : ℚ) ≤ m * 2 ^ t := by positivity
      cases negative with
      | true =>
          rw [sign_true] at hvalue
          linarith
      | false =>
          rw [hmiddle, ← hnext, sign_false, one_mul] at hvalue
          have := even_of_eq hn (hm.trans (Nat.le_succ m)) hodd hvalue.symm
          omega
  · intro hlt
    by_contra hle
    rw [not_lt] at hle
    obtain ⟨hnext', -⟩ := hnear.2 z _ hz
    have hbelow : d < m * 2 ^ t + 2 ^ t := by
      by_contra hd
      have := h.ge_of_ge hx hz (not_lt.1 hd)
      linarith
    rw [abs_of_nonpos (by linarith), abs_of_pos (by linarith)] at hnext'
    linarith

/-! ## Sums and differences -/

theorem apply_shiftLeft (s : Sign) (m : ℕ) {e c : ℤ} (h : c ≤ e) :
    sign (isNegative s) * (m * 2 ^ e) = (s.apply ((m <<< (e - c).toNat : ℕ) : ℤ) : ℚ) * 2 ^ c := by
  obtain ⟨k, rfl⟩ : ∃ k : ℕ, e = c + k := ⟨(e - c).toNat, by omega⟩
  rw [add_sub_cancel_left, Int.toNat_natCast, Nat.shiftLeft_eq, zpow_add₀ (by norm_num), zpow_natCast]
  cases s <;> simp [Sign.apply, isNegative] <;> ring

theorem rational?_pack_unpack (x : Float) :
    rational? (.ofModel (.pack x.toModel.unpack)) = rational? x := by
  obtain ⟨hfits, hpacked⟩ := fits_unpack x.toModel.toBits.toBitVec
  rw [rational?, rational?]
  exact congrArg value? ((ofFloat_pack hfits).trans (hpacked.trans (ofFloat_eq x).symm))

/-- The number that parts stand for, also when they are packed as they are. -/
def Unpacks (u : UnpackedFloat) (q : ℚ) : Prop :=
  (ofUnpacked u).value? = some q ∧ rational? (.ofModel (.pack u)) = some q

theorem unpacks_of_rational? {x : Float} {q : ℚ} (h : rational? x = some q) :
    Unpacks x.toModel.unpack q :=
  ⟨(congrArg value? (ofUnpacked_toModel x)).trans h, (rational?_pack_unpack x).trans h⟩

theorem unpacks_neg {x : Float} {q : ℚ} (h : rational? x = some q) :
    Unpacks x.toModel.unpack.neg (-q) := by
  have hpacked : rational? x.neg = some (-q) := by rw [rational?_neg, h, Option.map_some]
  refine ⟨?_, hpacked⟩
  have hvalue := (unpacks_of_rational? h).1
  cases hx : x.toModel.unpack with
  | notANumber | infinity => simp [hx, ofUnpacked, value?] at hvalue
  | zero s => simpa [hx, UnpackedFloat.neg, ofUnpacked, value?] using hvalue.symm
  | finite s m e hm =>
      rw [hx, ofUnpacked, value?, Option.some.injEq] at hvalue
      rw [UnpackedFloat.neg, ofUnpacked, value?, isNegative_neg, sign_not, ← hvalue, neg_mul]

theorem isNearest_addUnpacked {u v : UnpackedFloat} {p q : ℚ} (hu : Unpacks u p) (hv : Unpacks v q) :
    IsNearest (p + q) (.ofModel (.pack (UnpackedFloat.add Format.binary64 u v))) := by
  obtain ⟨hp, hu⟩ := hu
  obtain ⟨hq, hv⟩ := hv
  cases u with
  | notANumber | infinity => simp [ofUnpacked, value?] at hp
  | zero s₁ =>
      obtain rfl : 0 = p := by simpa [ofUnpacked, value?] using hp
      rw [zero_add]
      cases v with
      | notANumber | infinity => simp [ofUnpacked, value?] at hq
      | zero s₂ =>
          obtain rfl : 0 = q := by simpa [ofUnpacked, value?] using hq
          rw [UnpackedFloat.add]
          split <;> exact isNearest_exact (rational?_pack_zero _)
      | finite => exact isNearest_exact hv
  | finite s₁ m₁ e₁ h₁ =>
      cases v with
      | notANumber | infinity => simp [ofUnpacked, value?] at hq
      | zero s₂ =>
          obtain rfl : 0 = q := by simpa [ofUnpacked, value?] using hq
          rw [add_zero]
          exact isNearest_exact hu
      | finite s₂ m₂ e₂ h₂ =>
          have hcommon : UnpackedFloat.add Format.binary64 (.finite s₁ m₁ e₁ h₁) (.finite s₂ m₂ e₂ h₂) =
              UnpackedFloat.normalize Format.binary64
                (s₁.apply ((m₁ <<< (e₁ - min e₁ e₂).toNat : ℕ) : ℤ) +
                  s₂.apply ((m₂ <<< (e₂ - min e₁ e₂).toNat : ℕ) : ℤ)) (min e₁ e₂) .positive := rfl
          rw [ofUnpacked, value?, Option.some.injEq] at hp hq
          rw [hcommon, ← hp, ← hq, apply_shiftLeft s₁ m₁ (min_le_left e₁ e₂),
            apply_shiftLeft s₂ m₂ (min_le_right e₁ e₂), ← add_mul, ← Int.cast_add]
          exact isNearest_normalize _ _ _

theorem isNearest_add {x y : Float} {p q : ℚ} (hx : rational? x = some p)
    (hy : rational? y = some q) : IsNearest (p + q) (x + y) :=
  isNearest_addUnpacked (unpacks_of_rational? hx) (unpacks_of_rational? hy)

/-- To take a number away is to add it with the other sign. -/
theorem sub_eq_add (u v : UnpackedFloat) :
    UnpackedFloat.sub Format.binary64 u v = UnpackedFloat.add Format.binary64 u v.neg := by
  cases u with
  | notANumber => rfl
  | infinity | zero => cases v <;> rfl
  | finite s₁ m₁ e₁ h₁ =>
      cases v with
      | notANumber | infinity | zero => rfl
      | finite s₂ m₂ e₂ h₂ =>
          have happly (n : ℤ) : (-s₂).apply n = -s₂.apply n := by
            cases s₂ <;> simp [Sign.apply]
          simp only [UnpackedFloat.sub, UnpackedFloat.add, UnpackedFloat.neg, happly, Int.sub_eq_add_neg]

theorem isNearest_sub {x y : Float} {p q : ℚ} (hx : rational? x = some p)
    (hy : rational? y = some q) : IsNearest (p - q) (x - y) := by
  have hmodel : x - y =
      .ofModel (.pack (UnpackedFloat.sub Format.binary64 x.toModel.unpack y.toModel.unpack)) := rfl
  rw [hmodel, sub_eq_add, sub_eq_add_neg]
  exact isNearest_addUnpacked (unpacks_of_rational? hx) (unpacks_neg hy)

theorem ofFloat_pack_nan : ofFloat (.ofModel (.pack .notANumber)) = .nan :=
  ofFloat_pack (u := .notANumber) trivial

theorem ofFloat_pack_infinity (s : Sign) :
    ofFloat (.ofModel (.pack (.infinity s))) = .infinite (isNegative s) :=
  ofFloat_pack (u := .infinity s) trivial

theorem ofFloat_sub (x y : Float) :
    match ofFloat x, ofFloat y with
    | .nan, _ | _, .nan => ofFloat (x - y) = .nan
    | .infinite n, .infinite n' => ofFloat (x - y) = if n = n' then .nan else .infinite n
    | .infinite n, .finite .. => ofFloat (x - y) = .infinite n
    | .finite .., .infinite n => ofFloat (x - y) = .infinite !n
    | .finite .., .finite .. => True := by
  have hmodel : x - y =
      .ofModel (.pack (UnpackedFloat.sub Format.binary64 x.toModel.unpack y.toModel.unpack)) := rfl
  rw [hmodel, ← ofUnpacked_toModel x, ← ofUnpacked_toModel y]
  generalize x.toModel.unpack = u
  generalize y.toModel.unpack = v
  cases u with
  | notANumber => cases v <;> exact ofFloat_pack_nan
  | infinity s =>
      cases v with
      | notANumber => exact ofFloat_pack_nan
      | infinity s' => cases s <;> cases s' <;> first | exact ofFloat_pack_nan | exact ofFloat_pack_infinity _
      | zero | finite => exact ofFloat_pack_infinity s
  | zero | finite =>
      cases v with
      | notANumber => exact ofFloat_pack_nan
      | infinity s' => cases s' <;> exact ofFloat_pack_infinity _
      | zero | finite => trivial

/-! ## Sizes -/

def Binary64.abs : Binary64 → Binary64
  | .nan => .nan
  | .infinite _ => .infinite false
  | .finite _ m e => .finite false m e

theorem ofFloat_abs (x : Float) : ofFloat x.abs = (ofFloat x).abs := by
  obtain ⟨hfits, hpacked⟩ := fits_unpack x.toModel.toBits.toBitVec
  have habs : Fits x.toModel.unpack.abs ∧
      packed x.toModel.unpack.abs = (packed x.toModel.unpack).abs := by
    rw [← Float.Model.unpack] at hfits
    cases hu : x.toModel.unpack with
    | finite s m e hpos =>
        rw [hu] at hfits
        refine ⟨hfits, ?_⟩
        simp only [UnpackedFloat.abs, packed, ofUnpacked]
        split <;> rfl
    | notANumber | infinity s | zero s => exact ⟨trivial, rfl⟩
  exact (ofFloat_pack habs.1).trans (habs.2.trans (congrArg Binary64.abs hpacked))

theorem rational?_abs (x : Float) : rational? x.abs = (rational? x).map (|·|) := by
  rw [rational?, ofFloat_abs, rational?]
  cases ofFloat x with
  | nan | infinite => rfl
  | finite negative m e =>
      have hpos : (0 : ℚ) ≤ m * 2 ^ e := by positivity
      simp only [Binary64.abs, value?, Option.map_some, abs_sign_mul, abs_of_nonneg hpos, sign_false,
        one_mul]

/-! ## Comparisons -/

/-- Exponents decide, and mantissas between equal ones, because no mantissa is too short. -/
theorem compare_parts_iff {m₁ m₂ : ℕ} {e₁ e₂ : ℤ} (h₁ : m₁ < 2 ^ 53) (h₂ : m₂ < 2 ^ 53)
    (hfull₁ : 2 ^ 52 ≤ m₁ ∨ e₁ = -1074) (hfull₂ : 2 ^ 52 ≤ m₂ ∨ e₂ = -1074)
    (hleast₁ : -1074 ≤ e₁) (hleast₂ : -1074 ≤ e₂) :
    (compare e₁ e₂).then (compare m₁ m₂) = .lt ↔ (m₁ : ℚ) * 2 ^ e₁ < m₂ * 2 ^ e₂ := by
  rcases lt_trichotomy e₁ e₂ with hlt | rfl | hgt
  · rw [Int.compare_eq_lt.2 hlt]
    exact iff_of_true rfl (lt_of_exponent_lt h₁ (hfull₂.resolve_right (by omega)) hlt)
  · have hunit : (0 : ℚ) < 2 ^ e₁ := by positivity
    rw [Int.compare_eq_eq.2 rfl, mul_lt_mul_iff_left₀ hunit, Nat.cast_lt]
    exact Nat.compare_eq_lt
  · rw [Int.compare_eq_gt.2 hgt]
    have hle := (lt_of_exponent_lt h₂ (hfull₁.resolve_right (by omega)) hgt).le
    exact iff_of_false nofun (not_lt.2 hle)

/-- A positive double is less than infinity and than the doubles that are greater numbers. -/
theorem lt_iff_of_pos {x : Float} {p : ℚ} (hx : rational? x = some p) (hp : 0 < p) (y : Float) :
    x < y ↔ ofFloat y = .infinite false ∨ ∃ q, rational? y = some q ∧ p < q := by
  have hlt : x < y ↔ (x.toModel.unpack.compare y.toModel.unpack == some .lt) = true :=
    decide_eq_true_iff
  obtain ⟨m₁, e₁, h₁, hparts, rfl, hfull₁⟩ := unpack_of_pos hx hp
  have hx' := ofUnpacked_toModel x
  have hy := ofUnpacked_toModel y
  rw [hparts] at hx'
  obtain ⟨hm₁, hleast₁, -, -⟩ := ofBits_bounds hx'.symm
  rw [hlt, hparts, rational?, ← hy]
  cases hu : y.toModel.unpack with
  | notANumber => simp [UnpackedFloat.compare, ofUnpacked, value?]
  | infinity s => cases s <;> simp [UnpackedFloat.compare, ofUnpacked, value?, isNegative]
  | zero s =>
      have hnot : ¬ (m₁ : ℚ) * 2 ^ e₁ < 0 := not_lt.2 hp.le
      simpa [UnpackedFloat.compare, ofUnpacked, value?] using hnot
  | finite s m₂ e₂ h₂ =>
      rw [hu] at hy
      obtain ⟨hm₂, hleast₂, -, hfull₂⟩ := ofBits_bounds hy.symm
      cases s with
      | negative =>
          have hneg : (0 : ℚ) ≤ m₂ * 2 ^ e₂ := by positivity
          have hnot : ¬ (m₁ : ℚ) * 2 ^ e₁ < -(m₂ * 2 ^ e₂) := by linarith
          simpa [UnpackedFloat.compare, ofUnpacked, value?, isNegative] using hnot
      | positive =>
          have hparts := compare_parts_iff hm₁ hm₂ hfull₁ hfull₂ hleast₁ hleast₂
          simpa [UnpackedFloat.compare, ofUnpacked, value?, isNegative] using hparts

end ArmLink.Decimal
