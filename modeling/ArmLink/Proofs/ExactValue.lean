import ArmLink.Decimal.Binary64
import Mathlib

/-!
# The number a double is

A finite double is a rational number, and what is printed, rounded or sent is to be
compared with that number. `rational?` takes it from the bits.

The arithmetic of doubles does not work on bits: an operation takes its operands apart,
works on sign, mantissa and exponent, and packs the result. `ofUnpacked_unpack` and
`ofFloat_pack` say that this view and the one by bits are the same, the second with the
one thing that packing adds, an infinity in place of what is too large. Everything further
on about an operation goes through these two, and the layout of the bits is looked at
nowhere else but in `assemble`, which writes it down.
-/

namespace ArmLink.Decimal

open Float.Model (Format UnpackedFloat)
open Float.Model.UnpackedFloat

namespace Binary64

/-! ## Bits and parts -/

/-- The double with these bits. -/
def ofBits (bits : Nat) : Binary64 :=
  let negative : Bool := 1 <<< 63 ≤ bits
  let biased : Nat := (bits >>> 52) % 2048
  let fraction : Nat := bits % (1 <<< 52)
  if biased = 2047 then
    if fraction = 0 then .infinite negative else .nan
  else if biased = 0 then .finite negative fraction leastExponent
  else .finite negative ((1 <<< 52) + fraction) ((biased : Int) - 1075)

theorem ofFloat_eq (x : Float) : ofFloat x = ofBits x.toBits.toNat := rfl

def isNegative : Sign → Bool
  | .negative => true
  | .positive => false

/-- The double with these parts. -/
def ofUnpacked : UnpackedFloat → Binary64
  | .notANumber => .nan
  | .infinity s => .infinite (isNegative s)
  | .zero s => .finite (isNegative s) 0 leastExponent
  | .finite s m e _ => .finite (isNegative s) m e

theorem isNegative_unpackSign (b : BitVec 64) :
    isNegative (Sign.ofBitVec (@unpackSign Format.binary64 b)) =
      decide (1 <<< 63 ≤ b.toNat) := by
  have hlt := b.isLt
  have hone : 1 <<< 63 = 2 ^ 63 := rfl
  have hs : (@unpackSign Format.binary64 b).toNat = b.toNat / 2 ^ 63 := by
    simp [unpackSign, BitVec.extractLsb_toNat, Nat.shiftRight_eq_div_pow]
    omega
  have hzero : @unpackSign Format.binary64 b = 0#1 ↔ b.toNat / 2 ^ 63 = 0 := by
    rw [← BitVec.toNat_inj, hs]
    rfl
  rw [Sign.ofBitVec]
  split
  · next h =>
      have hdiv := hzero.1 h
      exact (decide_eq_false (by omega)).symm
  · next h =>
      have hdiv := mt hzero.2 h
      exact (decide_eq_true (by omega)).symm

/-- Bits taken apart are the double with these bits. -/
theorem ofUnpacked_unpack (b : BitVec 64) :
    ofUnpacked (UnpackedFloat.unpack Format.binary64 b) = ofBits b.toNat := by
  have hsign := isNegative_unpackSign b
  have hm : (@unpackMantissa Format.binary64 b).toNat = b.toNat % 2 ^ 52 := by
    simp [unpackMantissa, BitVec.extractLsb_toNat]
  have he : (@unpackExponent Format.binary64 b).toNat = b.toNat >>> 52 % 2048 := by
    simp [unpackExponent, BitVec.extractLsb_toNat]
  have hones : @unpackExponent Format.binary64 b = -1#11 ↔
      b.toNat >>> 52 % 2048 = 2047 := by
    rw [← BitVec.toNat_inj, he]
    rfl
  have hzeros : @unpackExponent Format.binary64 b = 0#11 ↔
      b.toNat >>> 52 % 2048 = 0 := by
    rw [← BitVec.toNat_inj, he]
    rfl
  have hnone : @unpackMantissa Format.binary64 b = 0#52 ↔ b.toNat % (1 <<< 52) = 0 := by
    rw [← BitVec.toNat_inj, hm]
    rfl
  have hwhole : (1#1 ++ @unpackMantissa Format.binary64 b).toNat =
      1 <<< 52 + b.toNat % (1 <<< 52) := by
    rw [BitVec.toNat_append, ← Nat.shiftLeft_add_eq_or_of_lt (BitVec.isLt _), hm]
    rfl
  unfold UnpackedFloat.unpack ofBits
  simp only [hones, hzeros, hnone]
  split_ifs with hinf hfrac hsub hzero
  · simp only [ofUnpacked, hsign]
  · rfl
  · simp only [ofUnpacked, hsign, hzero]
  · have hleast : ((@unpackExponent Format.binary64 b).toNat : Int) - (1023 + 52) + 1 =
        -1074 := by
      rw [he, hsub]
      rfl
    simp only [ofUnpacked, hsign]
    exact congrArg₂ _ hm hleast
  · have hplace : ((@unpackExponent Format.binary64 b).toNat : Int) - (1023 + 52) =
        ((b.toNat >>> 52 % 2048 : Nat) : Int) - 1075 := by
      rw [he]
      omega
    simp only [ofUnpacked, hsign, hwhole]
    exact congrArg _ hplace

/-- The double whose bits are laid down field by field. -/
theorem ofBits_fields (negative : Bool) (biased fraction : Nat) (hb : biased < 2048)
    (hf : fraction < 2 ^ 52) :
    ofBits ((if negative then 2 ^ 63 else 0) + biased * 2 ^ 52 + fraction) =
      if biased = 2047 then if fraction = 0 then .infinite negative else .nan
      else if biased = 0 then .finite negative fraction leastExponent
      else .finite negative (1 <<< 52 + fraction) (biased - 1075) := by
  generalize hbits : (if negative then 2 ^ 63 else 0) + biased * 2 ^ 52 + fraction = bits
  have hneg : decide (1 <<< 63 ≤ bits) = negative := by
    rw [← hbits]
    cases negative <;> simp <;> omega
  have hexp : bits >>> 52 % 2048 = biased := by
    rw [← hbits, Nat.shiftRight_eq_div_pow]
    split <;> omega
  have hfrac : bits % (1 <<< 52) = fraction := by
    rw [← hbits, Nat.one_shiftLeft]
    split <;> omega
  simp only [ofBits, hneg, hexp, hfrac]

theorem ofBits_packComponents (s : Sign) (e : BitVec 11) (m : BitVec 52) :
    ofBits (packComponents Format.binary64 s e m).toNat =
      if e.toNat = 2047 then if m.toNat = 0 then .infinite (isNegative s) else .nan
      else if e.toNat = 0 then .finite (isNegative s) m.toNat leastExponent
      else .finite (isNegative s) (1 <<< 52 + m.toNat) (e.toNat - 1075) := by
  have hbits : (packComponents Format.binary64 s e m).toNat =
      (if isNegative s then 2 ^ 63 else 0) + e.toNat * 2 ^ 52 + m.toNat := by
    rw [packComponents, BitVec.toNat_append, BitVec.toNat_append,
      ← Nat.shiftLeft_add_eq_or_of_lt e.isLt, ← Nat.shiftLeft_add_eq_or_of_lt m.isLt]
    cases s <;> simp [Sign.toBitVec, isNegative, Nat.shiftLeft_eq]
    omega
  rw [hbits, ofBits_fields (isNegative s) _ _ e.isLt m.isLt]

/-- How large mantissa and exponent of a double can be, and which mantissas are short. -/
theorem ofBits_bounds {bits m : Nat} {negative : Bool} {e : Int}
    (h : ofBits bits = .finite negative m e) :
    m < 2 ^ 53 ∧ -1074 ≤ e ∧ e ≤ 971 ∧ (2 ^ 52 ≤ m ∨ e = -1074) := by
  simp only [ofBits, leastExponent, Nat.one_shiftLeft] at h
  split_ifs at h
  · injection h with _ hm he
    omega
  · injection h with _ hm he
    omega

/-! ## Packing -/

/-- Nothing is left to round: the mantissa has as many bits as it can have. -/
def Fits : UnpackedFloat → Prop
  | .finite _ m e _ => m < 2 ^ 53 ∧ -1074 ≤ e ∧ (2 ^ 52 ≤ m ∨ e = -1074)
  | _ => True

/-- What packing makes of these parts. -/
def packed (u : UnpackedFloat) : Binary64 :=
  match u with
  | .finite s _ e _ => if 971 < e then .infinite (isNegative s) else ofUnpacked u
  | _ => ofUnpacked u

theorem ofFloat_pack {u : UnpackedFloat} (h : Fits u) :
    ofFloat (.ofModel (.pack u)) = packed u := by
  have hbits : ofFloat (.ofModel (.pack u)) = ofBits (UnpackedFloat.pack Format.binary64 u).toNat :=
    ofFloat_eq _
  rw [hbits]
  cases u with
  | notANumber => exact ofBits_packComponents _ _ _
  | infinity s => exact ofBits_packComponents _ _ _
  | zero s => exact ofBits_packComponents _ _ _
  | finite s m e hpos =>
      obtain ⟨hm, hle, hnormal⟩ := h
      have hlog : m.log2 + 1 = 53 ↔ 2 ^ 52 ≤ m := by
        rw [← Nat.le_log2 (by omega)]
        have hlt := (Nat.log2_lt (by omega)).mpr hm
        omega
      have hover : (2 : Nat) ^ 11 ≤ (e + (1023 : Nat) + (52 : Nat)).toNat + 1 ↔ 971 < e := by omega
      rw [packed, UnpackedFloat.pack]
      simp only [show Format.binary64.exponentBias = 1023 from rfl,
        show Format.binary64.mantissaBits = 53 from rfl, hover, hlog]
      split_ifs with hlarge hbig
      · exact ofBits_packComponents _ _ _
      · have hone : 1 <<< 52 = 2 ^ 52 := rfl
        have hmant : (BitVec.ofNat 52 m).toNat = m - 2 ^ 52 := by
          rw [BitVec.toNat_ofNat]
          omega
        have hexp : (BitVec.ofNat 11 (e + (1023 : Nat) + (52 : Nat)).toNat).toNat =
            (e + 1075).toNat := by
          rw [BitVec.toNat_ofNat]
          omega
        have hwhole : 1 <<< 52 + (m - 2 ^ 52) = m := by omega
        have hplace : ((e + 1075).toNat : Int) - 1075 = e := by omega
        rw [ofBits_packComponents, hmant, hexp, if_neg (by omega), if_neg (by omega), hwhole,
          hplace, ofUnpacked]
      · have hmant : (BitVec.ofNat 52 m).toNat = m := by
          rw [BitVec.toNat_ofNat]
          omega
        rw [ofBits_packComponents, hmant, if_neg (by decide), if_pos (by decide), ofUnpacked,
          leastExponent, hnormal.resolve_left hbig]

/-- The parts of a double fit and are packed as they are. -/
theorem fits_unpack (b : BitVec 64) : Fits (UnpackedFloat.unpack Format.binary64 b) ∧
    packed (UnpackedFloat.unpack Format.binary64 b) = ofBits b.toNat := by
  have h := ofUnpacked_unpack b
  cases hu : UnpackedFloat.unpack Format.binary64 b with
  | finite s m e hpos =>
      rw [hu] at h
      obtain ⟨hm, hle, hge, hnormal⟩ := ofBits_bounds h.symm
      refine ⟨⟨hm, hle, hnormal⟩, ?_⟩
      rw [packed, if_neg (by omega), h]
  | notANumber | infinity | zero => exact ⟨trivial, by rw [← h, hu]; rfl⟩

theorem ofFloat_ofBits {bits : Nat} (h : bits < 2 ^ 64) :
    ofFloat (Float.ofBits (UInt64.ofNat bits)) = ofBits bits := by
  have hbits : (UInt64.ofNat bits).toBitVec.toNat = bits := by
    rw [UInt64.toNat_toBitVec, UInt64.toNat_ofNat', Nat.mod_eq_of_lt h]
  obtain ⟨hfits, hpacked⟩ := fits_unpack (UInt64.ofNat bits).toBitVec
  rw [hbits] at hpacked
  exact (ofFloat_pack hfits).trans hpacked

/-- The parts of a double, as an operation finds them. -/
theorem ofUnpacked_toModel (x : Float) : ofUnpacked x.toModel.unpack = ofFloat x :=
  (ofUnpacked_unpack x.toModel.toBits.toBitVec).trans (ofFloat_eq x).symm

def neg : Binary64 → Binary64
  | .nan => .nan
  | .infinite negative => .infinite !negative
  | .finite negative m e => .finite (!negative) m e

theorem isNegative_neg (s : Sign) : isNegative (-s) = !isNegative s := by
  cases s <;> rfl

theorem ofFloat_neg (x : Float) : ofFloat x.neg = (ofFloat x).neg := by
  obtain ⟨hfits, hpacked⟩ := fits_unpack x.toModel.toBits.toBitVec
  have hneg : Fits x.toModel.unpack.neg ∧ packed x.toModel.unpack.neg = (packed x.toModel.unpack).neg := by
    rw [← Float.Model.unpack] at hfits
    cases hu : x.toModel.unpack with
    | finite s m e hpos =>
        rw [hu] at hfits
        refine ⟨hfits, ?_⟩
        simp only [UnpackedFloat.neg, packed, ofUnpacked, isNegative_neg]
        split <;> rfl
    | notANumber => exact ⟨trivial, rfl⟩
    | infinity s | zero s =>
        refine ⟨trivial, ?_⟩
        simp only [UnpackedFloat.neg, packed, ofUnpacked, isNegative_neg, neg]
  exact (ofFloat_pack hneg.1).trans (hneg.2.trans (congrArg neg hpacked))

/-! ## Values -/

/-- One, with the sign of a double. -/
def sign (negative : Bool) : ℚ := if negative then -1 else 1

@[simp] theorem sign_false : sign false = 1 := rfl

@[simp] theorem sign_true : sign true = -1 := rfl

theorem sign_not (negative : Bool) : sign (!negative) = -sign negative := by
  cases negative <;> simp

theorem abs_sign_mul (negative : Bool) (q : ℚ) : |sign negative * q| = |q| := by
  cases negative <;> simp

theorem sign_mul_sign_mul (negative : Bool) (q : ℚ) : sign negative * (sign negative * q) = q := by
  cases negative <;> simp

/-- The number a double is, when it is one. -/
def value? : Binary64 → Option ℚ
  | .finite negative m e => some (sign negative * (m * 2 ^ e))
  | _ => none

theorem value?_neg (b : Binary64) : b.neg.value? = b.value?.map (- ·) := by
  cases b with
  | finite negative m e => cases negative <;> simp [neg, value?, sign]
  | nan | infinite => rfl

theorem power_pos (e : Int) : 0 < (power e).2 := by
  unfold power
  split
  · exact Nat.one_pos
  · rw [Nat.one_shiftLeft]
    exact Nat.two_pow_pos _

theorem power_eq (e : Int) : ((power e).1 : ℚ) / (power e).2 = 2 ^ e := by
  unfold power
  split
  · next h =>
      obtain ⟨k, rfl⟩ := Int.eq_ofNat_of_zero_le h
      simp [Nat.one_shiftLeft]
  · next h =>
      obtain ⟨k, hk⟩ := Int.eq_ofNat_of_zero_le (show 0 ≤ -e by omega)
      rw [hk, show e = -(k : Int) by omega]
      simp [Nat.one_shiftLeft]

/-- A mantissa at an exponent, as the quotient it is computed as. -/
theorem mul_power (m : Nat) (e : Int) :
    (m : ℚ) * 2 ^ e = ((m * (power e).1 : Nat) : ℚ) / ((power e).2 : Nat) := by
  rw [← power_eq, Nat.cast_mul, mul_div_assoc]

theorem shift_of_dvd {m : Nat} {e : Int} (h : (power e).2 ∣ m * (power e).1) :
    (shift m e : ℚ) = m * 2 ^ e := by
  have hne : ((power e).2 : ℚ) ≠ 0 := Nat.cast_ne_zero.2 (power_pos e).ne'
  rw [mul_power, shift, Nat.cast_div h hne]

theorem signed_eq (negative : Bool) (n : Nat) : ((signed negative n : Int) : ℚ) = sign negative * n := by
  cases negative <;> simp [signed, sign]

/-- What is left of a number above its last unit is nothing exactly when it is an integer. -/
theorem whole_iff {negative : Bool} {m : Nat} {e : Int} :
    m % (power e).2 = 0 ↔ ∃ k : Int, sign negative * (m * 2 ^ e) = (k : ℚ) := by
  constructor
  · intro h
    have hdvd : (power e).2 ∣ m * (power e).1 := (Nat.dvd_of_mod_eq_zero h).mul_right _
    exact ⟨signed negative (shift m e), by rw [signed_eq, shift_of_dvd hdvd]⟩
  · rintro ⟨k, hk⟩
    by_cases he : 0 ≤ e
    · rw [power, if_pos he]
      exact Nat.mod_one _
    · have hone : (power e).1 = 1 := by rw [power, if_neg he]
      have hne : ((power e).2 : ℚ) ≠ 0 := Nat.cast_ne_zero.2 (power_pos e).ne'
      have habs : (m : ℚ) / ((power e).2 : Nat) = (k.natAbs : ℚ) := by
        have hnonneg : (0 : ℚ) ≤ m * 2 ^ e := by positivity
        have h := congrArg (fun z : ℚ => |z|) hk
        rw [abs_mul, abs_of_nonneg hnonneg, mul_power, hone, Nat.mul_one] at h
        rw [Nat.cast_natAbs, Int.cast_abs, ← h]
        cases negative <;> simp [sign]
      rw [div_eq_iff hne] at habs
      have hm : m = k.natAbs * (power e).2 := by exact_mod_cast habs
      rw [hm]
      exact Nat.mul_mod_left _ _

end Binary64

open Binary64

/-- The number a double is, when it is one. -/
def rational? (x : Float) : Option ℚ :=
  (ofFloat x).value?

theorem parts_of_rational? {x : Float} {q : ℚ} (h : rational? x = some q) :
    ∃ negative m e, ofFloat x = .finite negative m e ∧ q = sign negative * (m * 2 ^ e) := by
  rw [rational?] at h
  cases hx : ofFloat x with
  | finite negative m e =>
      rw [hx, value?, Option.some.injEq] at h
      exact ⟨negative, m, e, rfl, h.symm⟩
  | nan | infinite =>
      rw [hx] at h
      cases h

theorem rational?_neg (x : Float) : rational? x.neg = (rational? x).map (- ·) := by
  rw [rational?, ofFloat_neg, value?_neg, rational?]

theorem isFinite_eq (x : Float) : x.isFinite = (rational? x).isSome := by
  have hfinite : x.isFinite = x.toModel.unpack.isFinite := rfl
  rw [hfinite, rational?, ← ofUnpacked_toModel]
  cases x.toModel.unpack <;> rfl

theorem isWhole_iff {x : Float} : isWhole x = true ↔ ∃ k : Int, rational? x = some (k : ℚ) := by
  unfold isWhole rational?
  cases ofFloat x with
  | finite negative m e => simpa [value?] using whole_iff
  | nan | infinite => simp [value?]

/-- An integer is read off a double as it is, as far as there is room for it. -/
theorem toInt64_of_whole {x : Float} {k : Int} (h : rational? x = some (k : ℚ)) :
    toInt64 x = max (-2 ^ 63) (min (2 ^ 63 - 1) k) := by
  obtain ⟨negative, m, e, hx, hvalue⟩ := parts_of_rational? h
  have hdvd : (power e).2 ∣ m * (power e).1 :=
    (Nat.dvd_of_mod_eq_zero (whole_iff.2 ⟨k, hvalue.symm⟩)).mul_right _
  have hk : signed negative (shift m e) = k := by
    have hcast := signed_eq negative (shift m e)
    rw [shift_of_dvd hdvd, ← hvalue] at hcast
    exact_mod_cast hcast
  unfold toInt64
  simp only [hx, hk]
  rfl

/-! ## Putting doubles together -/

/-- A mantissa brought to a smaller exponent. -/
theorem mul_zpow_eq {m : ℕ} {e t : ℤ} (h : t ≤ e) :
    (m : ℚ) * 2 ^ e = ((m * 2 ^ (e - t).toNat : ℕ) : ℚ) * 2 ^ t := by
  obtain ⟨k, rfl⟩ : ∃ k : ℕ, e = t + k := ⟨(e - t).toNat, by omega⟩
  rw [add_sub_cancel_left, Int.toNat_natCast, zpow_add₀ (by norm_num), zpow_natCast, Nat.cast_mul,
    Nat.cast_pow, Nat.cast_ofNat]
  ring

theorem shift_of_nonneg {e : Int} (h : 0 ≤ e) (m : Nat) : shift m e = m * 2 ^ e.toNat := by
  rw [shift, power, if_pos h, Nat.one_shiftLeft, Nat.div_one]

/-- The double with this mantissa, of no more than 53 bits, and this exponent. -/
theorem rational?_assemble_at (negative : Bool) {n : Nat} {e : Int} (h : n < 2 ^ 53)
    (hleast : -1074 ≤ e) (hmost : e ≤ 971) :
    rational? (assemble negative n e) = some (sign negative * (n * 2 ^ e)) := by
  have hlow : leastExponent = -1074 := rfl
  have hlog : n.log2 ≤ 52 := by
    rcases Nat.eq_zero_or_pos n with rfl | hpos
    · decide
    · have := (Nat.log2_lt hpos.ne').mpr h
      omega
  -- The mantissa is scaled up as far as its bits and the exponent allow.
  obtain ⟨k, hk, hbits, hplace⟩ : ∃ k : Nat, max leastExponent (e + n.log2 - 52) = e - k ∧
      n.log2 + k ≤ 52 ∧ (n.log2 + k = 52 ∨ e - k = leastExponent) := by
    refine ⟨(e - max leastExponent (e + n.log2 - 52)).toNat, ?_, ?_, ?_⟩ <;> omega
  have hscaled : shift n (e - (e - k)) = n * 2 ^ k := by
    rw [sub_sub_cancel, shift_of_nonneg (by omega), Int.toNat_natCast]
  have hvalue : (n : ℚ) * 2 ^ e = ((n * 2 ^ k : Nat) : ℚ) * 2 ^ (e - k) := by
    rw [mul_zpow_eq (Int.sub_le_self e (Int.natCast_nonneg k)), sub_sub_cancel, Int.toNat_natCast]
  have hroom : n * 2 ^ k < 2 ^ 53 := by
    calc n * 2 ^ k < 2 ^ (n.log2 + 1) * 2 ^ k :=
          Nat.mul_lt_mul_of_pos_right Nat.lt_log2_self (Nat.two_pow_pos k)
      _ ≤ 2 ^ 53 := by
          rw [← Nat.pow_add]
          exact Nat.pow_le_pow_right (by decide) (by omega)
  have hshort : n * 2 ^ k < 2 ^ 52 → n * 2 ^ k = 0 ∨ e - k = leastExponent := fun hlt => by
    rcases Nat.eq_zero_or_pos n with rfl | hpos
    · exact .inl (Nat.zero_mul _)
    · refine hplace.imp_left fun hfull => absurd hlt (not_lt.2 ?_)
      calc 2 ^ 52 = 2 ^ n.log2 * 2 ^ k := by rw [← Nat.pow_add, hfull]
        _ ≤ n * 2 ^ k := Nat.mul_le_mul_right _ (Nat.log2_self_le hpos.ne')
  have hsigned (k : Nat) : (if negative then 1 <<< 63 + k else k) =
      (if negative then 2 ^ 63 else 0) + k := by
    cases negative <;> simp
  rw [rational?, assemble]
  simp only [hk, hscaled, hsigned, Nat.one_shiftLeft 52]
  generalize n * 2 ^ k = m at hvalue hroom hshort
  by_cases hlt : m < 2 ^ 52
  · have hfields := ofBits_fields negative 0 m (by omega) hlt
    rw [Nat.zero_mul, Nat.add_zero] at hfields
    rw [if_pos hlt, ofFloat_ofBits (by split <;> omega), hfields, hvalue]
    rcases hshort hlt with rfl | hlast
    · simp [value?]
    · simp [value?, hlast]
  · obtain ⟨biased, hbiased⟩ : ∃ biased : Nat, e - k + 1075 = biased :=
      ⟨_, (Int.toNat_of_nonneg (by omega)).symm⟩
    have hfields := ofBits_fields negative biased (m - 2 ^ 52) (by omega) (by omega)
    rw [if_neg (by omega : ¬ biased = 2047), if_neg (by omega : ¬ biased = 0), Nat.one_shiftLeft,
      Nat.add_sub_cancel' (not_lt.1 hlt), ← hbiased, Int.add_sub_cancel] at hfields
    rw [if_neg hlt, if_neg (by omega : ¬ 971 < e - (k : Int)), hbiased, Int.toNat_natCast,
      Nat.shiftLeft_eq, ← Nat.add_assoc, ofFloat_ofBits (by split <;> omega), hfields, value?,
      hvalue]

/-- An integer of no more than 53 bits is put together as it is. -/
theorem rational?_assemble (negative : Bool) {n : Nat} (h : n < 2 ^ 53) :
    rational? (assemble negative n 0) = some (sign negative * n) := by
  rw [rational?_assemble_at negative h (by decide) (by decide), zpow_zero, mul_one]

/-- Every integer of up to 53 bits in the places of an exponent is a double, and so is the one next to
them. -/
theorem exists_double {n e : ℤ} (hn : |n| ≤ 2 ^ 53) (hleast : -1074 ≤ e) (hmost : e ≤ 970) :
    ∃ x, rational? x = some ((n : ℚ) * 2 ^ e) := by
  obtain ⟨k, negative, hk, hvalue⟩ : ∃ (k : ℕ) (negative : Bool), k ≤ 2 ^ 53 ∧
      (n : ℚ) = sign negative * k := by
    obtain ⟨k, rfl | rfl⟩ := Int.eq_nat_or_neg n
    · exact ⟨k, false, by simp at hn; omega, by simp⟩
    · exact ⟨k, true, by simp at hn; omega, by simp⟩
  rw [hvalue, mul_assoc]
  rcases Nat.lt_or_eq_of_le hk with hlt | rfl
  · exact ⟨_, rational?_assemble_at negative hlt hleast (by omega)⟩
  · -- One bit more is half as many units of the next place.
    have hplace : ((2 ^ 53 : ℕ) : ℚ) * 2 ^ e = (2 ^ 52 : ℕ) * 2 ^ (e + 1) := by
      rw [zpow_add₀ (by norm_num)]
      push_cast
      ring
    rw [hplace]
    exact ⟨_, rational?_assemble_at negative (by norm_num) (by omega) (by omega)⟩

/-- Half a unit up and cut off: the nearest natural number. -/
theorem nearest_near (m : Nat) {e : Int} (he : e < 0) :
    (nearest m e : ℚ) - 1 / 2 ≤ m * 2 ^ e ∧ (m : ℚ) * 2 ^ e < nearest m e + 1 / 2 := by
  obtain ⟨k, rfl⟩ : ∃ k : Nat, e = -(k + 1 : Nat) := ⟨(-e - 1).toNat, by omega⟩
  have hshift : shift m (-(k + 1 : Nat) + 1) = m / 2 ^ k := by
    rcases Nat.eq_zero_or_pos k with rfl | hpos
    · simp [shift, power]
    · rw [shift, power, if_neg (by omega), show (-(-((k + 1 : Nat) : Int) + 1)).toNat = k by omega,
        Nat.one_shiftLeft, Nat.mul_one]
  have hnearest : nearest m (-(k + 1 : Nat)) = (m / 2 ^ k + 1) / 2 := by
    rw [nearest, if_neg (by omega), hshift]
  have hlow : (m / 2 ^ k + 1) / 2 * (2 * 2 ^ k) ≤ m + 2 ^ k := by
    have hq := Nat.div_mul_le_self m (2 ^ k)
    have hn := Nat.mul_le_mul_right (2 ^ k) (Nat.div_mul_le_self (m / 2 ^ k + 1) 2)
    rw [Nat.add_mul, Nat.one_mul] at hn
    rw [← Nat.mul_assoc]
    omega
  have hhigh : m < (m / 2 ^ k + 1) / 2 * (2 * 2 ^ k) + 2 ^ k := by
    have hq := Nat.lt_mul_div_succ m (Nat.two_pow_pos k)
    have hn : m / 2 ^ k + 1 ≤ (m / 2 ^ k + 1) / 2 * 2 + 1 := by omega
    have hmul := Nat.mul_le_mul_left (2 ^ k) hn
    simp only [Nat.mul_add, Nat.mul_one] at hq hmul
    rw [show (m / 2 ^ k + 1) / 2 * (2 * 2 ^ k) = 2 ^ k * ((m / 2 ^ k + 1) / 2 * 2) by ring]
    omega
  have hpos : (0 : ℚ) < 2 * 2 ^ k := by positivity
  have hpower : (2 : ℚ) ^ (-((k + 1 : Nat) : Int)) = 1 / (2 * 2 ^ k) := by
    rw [zpow_neg, zpow_natCast, pow_succ', one_div]
  have hlow' : (((m / 2 ^ k + 1) / 2 : Nat) : ℚ) * (2 * 2 ^ k) ≤ m + 2 ^ k := by exact_mod_cast hlow
  have hhigh' : (m : ℚ) < (((m / 2 ^ k + 1) / 2 : Nat) : ℚ) * (2 * 2 ^ k) + 2 ^ k := by
    exact_mod_cast hhigh
  rw [hnearest, hpower, mul_one_div, le_div_iff₀ hpos, div_lt_iff₀ hpos]
  constructor <;> linarith

/-- A rounded double is an integer, within half a unit of what it was. -/
theorem rational?_roundHalfAway {x : Float} {q : ℚ} (h : rational? x = some q) :
    ∃ k : Int, rational? (roundHalfAway x) = some (k : ℚ) ∧ |(k : ℚ) - q| ≤ 1 / 2 := by
  obtain ⟨negative, m, e, hparts, hvalue⟩ := parts_of_rational? h
  rw [roundHalfAway]
  simp only [hparts]
  split
  · next he =>
      obtain ⟨k, hk⟩ := (@whole_iff negative m e).1 (by
        rw [power, if_pos he]
        exact Nat.mod_one m)
      rw [hk] at hvalue
      refine ⟨k, by rw [h, hvalue], ?_⟩
      rw [hvalue]
      norm_num
  · next he =>
      obtain ⟨hlow, hhigh⟩ := nearest_near m (Int.lt_of_not_ge he)
      have hroom : nearest m e < 2 ^ 53 := by
        have hm : (m : ℚ) < 2 ^ 53 := by exact_mod_cast (ofBits_bounds hparts).1
        have hhalf : (2 : ℚ) ^ e ≤ 2 ^ (-1 : Int) := zpow_le_zpow_right₀ (by norm_num) (by omega)
        have hle : (m : ℚ) * 2 ^ e ≤ m * (1 / 2) := by
          refine mul_le_mul_of_nonneg_left ?_ (Nat.cast_nonneg m)
          simpa using hhalf
        have hlt : (nearest m e : ℚ) < 2 ^ 53 := by linarith
        exact_mod_cast hlt
      refine ⟨signed negative (nearest m e), ?_, ?_⟩
      · rw [rational?_assemble negative hroom, signed_eq]
      · rw [signed_eq, hvalue, ← mul_sub, abs_sign_mul, abs_le]
        constructor <;> linarith

end ArmLink.Decimal
