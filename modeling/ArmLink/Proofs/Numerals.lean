import ArmLink.Decimal.Binary64
import ArmLink.Decimal.Integer
import Mathlib.Algebra.Ring.Nat

/-!
# What is read as an integer

Reading goes left to right and stops at the first character that rules the text
out, so what it says about a whole text has to be put together from what it says
about each digit. The grammar is the other way round: a numeral is digits behind
at most one sign, its value is that of the digits as a whole, and the bounds are
asked about that value alone. `readInteger_ok_iff` says that the two agree.

They do because the bounds hold zero. A number only moves away from zero as
digits are taken in, so a value that has left the bounds half way never comes back,
and no numeral whose value lies within them is refused on the way.
-/

namespace ArmLink.Decimal

open ArmLink.Text (digitChar digitValue?)
open Binary64 (signed)

/-- One or more ASCII digits, and the number they stand for. -/
def Figures (ds : List Char) (n : Nat) : Prop :=
  ds ≠ [] ∧ (∀ c ∈ ds, c.isDigit = true) ∧ n = Nat.ofDigitChars 10 ds 0

instance (ds : List Char) (n : Nat) : Decidable (Figures ds n) :=
  decidable_of_iff (ds ≠ [] ∧ ds.all Char.isDigit = true ∧ n = Nat.ofDigitChars 10 ds 0)
    (and_congr_right fun _ => and_congr_left fun _ => List.all_eq_true)

/-- The texts that stand for an integer. -/
inductive Numeral : List Char → Int → Prop where
  | plain {ds : List Char} {n : Nat} (digits : Figures ds n) : Numeral ds n
  | plus {ds : List Char} {n : Nat} (digits : Figures ds n) : Numeral ('+' :: ds) n
  | minus {ds : List Char} {n : Nat} (digits : Figures ds n) : Numeral ('-' :: ds) (-n)

/-! ## Digits -/

theorem isDigit_iff {c : Char} : c.isDigit = true ↔ '0' ≤ c ∧ c ≤ '9' := by
  simp [Char.isDigit, Char.le_def]

theorem digitValue?_of_isDigit {c : Char} (h : c.isDigit = true) :
    digitValue? c = some (c.toNat - '0'.toNat) := by
  rw [digitValue?, if_pos (isDigit_iff.1 h)]
  rfl

theorem digitValue?_of_not_isDigit {c : Char} (h : ¬ c.isDigit = true) :
    digitValue? c = none := by
  rw [digitValue?, if_neg fun hc => h (isDigit_iff.2 hc)]

theorem signed_step (negative : Bool) (n d : Nat) :
    (if negative then 10 * signed negative n - d else 10 * signed negative n + d) =
      signed negative (10 * n + d) := by
  cases negative with
  | false => simp [signed]
  | true =>
      simp [signed]
      omega

/-- Taking in a digit never brings a number back within the bounds. -/
theorem holds_of_le {bounds : Bounds} (hzero : bounds.holds 0) {negative : Bool} {n m : Nat}
    (hle : n ≤ m) (h : bounds.holds (signed negative m)) : bounds.holds (signed negative n) := by
  unfold Bounds.holds signed at *
  cases negative <;> simp at * <;> omega

theorem le_ofDigitChars (ds : List Char) (n : Nat) : n ≤ Nat.ofDigitChars 10 ds n := by
  induction ds generalizing n with
  | nil => simp
  | cons c rest ih =>
      have := ih (10 * n + (c.toNat - '0'.toNat))
      rw [Nat.ofDigitChars_cons]
      omega

/-- Digits are read into the number before them exactly when what they make of it lies within the
bounds. -/
theorem readDigits_ok_iff {bounds : Bounds} (hzero : bounds.holds 0) {negative : Bool} {n : Nat}
    (hn : bounds.holds (signed negative n)) {ds : List Char} {m : Int} :
    readDigits bounds negative (signed negative n) ds = .ok m ↔
      (∀ c ∈ ds, c.isDigit = true) ∧ m = signed negative (Nat.ofDigitChars 10 ds n) ∧
        bounds.holds m := by
  induction ds generalizing n with
  | nil =>
      rw [readDigits, Except.ok.injEq]
      constructor
      · rintro rfl
        exact ⟨by simp, by simp, hn⟩
      · rintro ⟨-, rfl, -⟩
        simp
  | cons c rest ih =>
      rw [readDigits]
      by_cases hc : c.isDigit = true
      · rw [digitValue?_of_isDigit hc]
        simp only [signed_step]
        by_cases hnext : bounds.holds (signed negative (10 * n + (c.toNat - '0'.toNat)))
        · obtain ⟨hleast, hgreatest⟩ := hnext
          rw [if_neg (by omega), if_neg (by omega), ih ⟨hleast, hgreatest⟩]
          simp [hc, Nat.ofDigitChars_cons]
        · -- The value has left the bounds, and so has every value further on.
          have hrest : ¬ bounds.holds (signed negative (Nat.ofDigitChars 10 (c :: rest) n)) :=
            fun h => hnext (holds_of_le hzero (by
              rw [Nat.ofDigitChars_cons]
              exact le_ofDigitChars rest _) h)
          refine ⟨fun h => ?_, fun ⟨_, hm, hbounds⟩ => absurd (hm ▸ hbounds) hrest⟩
          split at h
          · cases h
          · split at h
            · cases h
            · next hleast hgreatest => exact absurd ⟨by omega, by omega⟩ hnext
      · simp [digitValue?_of_not_isDigit hc, hc]

/-! ## Numerals -/

/-- Behind a sign there are the digits of the number without it. -/
theorem Numeral.plus_iff {ds : List Char} {n : Int} :
    Numeral ('+' :: ds) n ↔ ∃ k : Nat, Figures ds k ∧ n = k := by
  constructor
  · intro h
    cases h with
    | plain digits => exact absurd (digits.2.1 '+' List.mem_cons_self) (by decide)
    | plus digits => exact ⟨_, digits, rfl⟩
  · rintro ⟨k, digits, rfl⟩
    exact .plus digits

theorem Numeral.minus_iff {ds : List Char} {n : Int} :
    Numeral ('-' :: ds) n ↔ ∃ k : Nat, Figures ds k ∧ n = -k := by
  constructor
  · intro h
    cases h with
    | plain digits => exact absurd (digits.2.1 '-' List.mem_cons_self) (by decide)
    | minus digits => exact ⟨_, digits, rfl⟩
  · rintro ⟨k, digits, rfl⟩
    exact .minus digits

theorem Numeral.plain_iff {cs : List Char} {n : Int} (hplus : ∀ ds, cs ≠ '+' :: ds)
    (hminus : ∀ ds, cs ≠ '-' :: ds) : Numeral cs n ↔ ∃ k : Nat, Figures cs k ∧ n = k := by
  constructor
  · intro h
    cases h with
    | plain digits => exact ⟨_, digits, rfl⟩
    | plus => exact absurd rfl (hplus _)
    | minus => exact absurd rfl (hminus _)
  · rintro ⟨k, digits, rfl⟩
    exact .plain digits

theorem Numeral.ne_nil {cs : List Char} {n : Int} (h : Numeral cs n) : cs ≠ [] := by
  cases h with
  | plain digits => exact digits.1
  | plus | minus => exact List.cons_ne_nil _ _

/-- What is read as an integer are the numerals whose value lies within the bounds. -/
theorem readInteger_ok_iff {bounds : Bounds} (hleast : bounds.least < 0)
    (hgreatest : 0 ≤ bounds.greatest) {cs : List Char} {n : Int} :
    readInteger bounds cs = .ok n ↔ Numeral cs n ∧ bounds.holds n := by
  have hzero : bounds.holds 0 := ⟨by omega, hgreatest⟩
  have hread (negative : Bool) {ds : List Char} (hds : ds ≠ []) :
      readDigits bounds negative 0 ds = .ok n ↔
        (∃ k, Figures ds k ∧ n = signed negative k) ∧ bounds.holds n := by
    have hstart : signed negative 0 = 0 := by cases negative <;> rfl
    rw [← hstart, readDigits_ok_iff hzero (by rwa [hstart])]
    constructor
    · rintro ⟨hall, hn, hholds⟩
      exact ⟨⟨_, ⟨hds, hall, rfl⟩, hn⟩, hholds⟩
    · rintro ⟨⟨k, ⟨-, hall, rfl⟩, hn⟩, hholds⟩
      exact ⟨hall, hn, hholds⟩
  rw [readInteger.eq_def]
  split
  · rw [Numeral.plain_iff (by simp) (by simp)]
    simp [Figures]
  · rw [Numeral.plus_iff]
    simp [Figures]
  · rw [Numeral.minus_iff]
    simp [Figures]
  · next hne =>
      rw [hread false (by simpa using hne), Numeral.plus_iff]
      simp [signed]
  · next hne =>
      rw [if_pos hleast, hread true (by simpa using hne), Numeral.minus_iff]
      simp [signed]
  · next hne _ _ hplus hminus =>
      rw [hread false hne, Numeral.plain_iff (fun ds h => hplus ds h) fun ds h => hminus ds h]
      simp [signed]

/-! ## Written integers -/

theorem digits_value (n : Nat) : Nat.ofDigitChars 10 (digits n) 0 = n := by
  have hdigit {d : Nat} (hd : d < 10) : (digitChar d).toNat - '0'.toNat = d := by
    revert d
    decide
  induction n using Nat.strongRecOn with
  | _ n ih =>
      by_cases h : n < 10
      · rw [digits_of_lt h, Nat.ofDigitChars_cons, hdigit h]
        simp
      · rw [digits_step (Nat.le_of_not_lt h), Nat.ofDigitChars_append, ih (n / 10) (by omega),
          Nat.ofDigitChars_cons, hdigit (Nat.mod_lt _ (by decide)), Nat.ofDigitChars_nil]
        omega

theorem lt_pow_length (n : Nat) : n < 10 ^ (digits n).length := by
  induction n using Nat.strongRecOn with
  | _ n ih =>
      by_cases h : n < 10
      · rwa [digits_of_lt h]
      · have hlt := ih (n / 10) (by omega)
        rw [digits_step (Nat.le_of_not_lt h), List.length_append, List.length_singleton, Nat.pow_succ]
        omega

theorem figures_digits (n : Nat) : Figures (digits n) n := by
  refine ⟨digits_ne_nil n, fun c hc => ?_, (digits_value n).symm⟩
  obtain ⟨d, hd, rfl⟩ := digits_all n c hc
  exact Text.isDigit_digitChar d hd

theorem numeral_integerChars (n : Int) : Numeral (integerChars n) n := by
  rw [integerChars]
  split
  · have h := Numeral.minus (figures_digits n.natAbs)
    rwa [show -(n.natAbs : Int) = n by omega] at h
  · have h := Numeral.plain (figures_digits n.natAbs)
    rwa [show (n.natAbs : Int) = n by omega] at h

end ArmLink.Decimal
