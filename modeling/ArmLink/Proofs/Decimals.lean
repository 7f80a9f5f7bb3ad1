import ArmLink.Proofs.DecimalRounding

/-!
# What is read as a number

The reader takes digits as long as there are any, looks for a point, takes digits again and
leaves the rest to the exponent. The grammar says the same of a whole text: digits with at
most one point among them, the letter of an exponent with an integer behind it or nothing,
and at most one sign in front. `Spelled` gives such a text the number it spells, exactly.

`readFloat_spelled` and `spelled_of_readFloat` say that the reader accepts these texts and
no others as numbers, and that what it returns is the double nearest to the number spelled.
The other texts it accepts are words, and none of these is a number.
-/

namespace ArmLink.Decimal

open ArmLink.Text (digitValue?)
open Binary64

/-! ## The grammar -/

/-- Digits with at most one point among them. Without it they are the number `n`, and `places` of
them stand behind it. -/
inductive Pointed : List Char → (n places : ℕ) → Prop where
  | whole {ds : List Char} {n : ℕ} (digits : Figures ds n) : Pointed ds n 0
  | point {front back : List Char} {n : ℕ} (digits : Figures (front ++ back) n) :
      Pointed (front ++ '.' :: back) n back.length

/-- An exponent, or nothing. -/
inductive Scale : List Char → ℤ → Prop where
  | none : Scale [] 0
  | power {c : Char} {cs : List Char} {e : ℤ} (mark : c = 'e' ∨ c = 'E') (numeral : Numeral cs e) :
      Scale (c :: cs) e

/-- A number without a sign. -/
inductive Unsigned : List Char → Written → Prop where
  | intro {ds es : List Char} {n places : ℕ} {e : ℤ} (digits : Pointed ds n places)
      (scale : Scale es e) : Unsigned (ds ++ es) ⟨n, e - places⟩

/-- The texts that spell a number. -/
inductive Spelled : List Char → ℚ → Prop where
  | plain {cs : List Char} {w : Written} (decimal : Unsigned cs w) : Spelled cs w.value
  | plus {cs : List Char} {w : Written} (decimal : Unsigned cs w) : Spelled ('+' :: cs) w.value
  | minus {cs : List Char} {w : Written} (decimal : Unsigned cs w) : Spelled ('-' :: cs) (-w.value)

theorem spelled_numeral {cs : List Char} {n : ℤ} (h : Numeral cs n) : Spelled cs n := by
  have hunsigned {ds : List Char} {k : ℕ} (h : Figures ds k) : Unsigned ds ⟨k, 0⟩ := by
    simpa using Unsigned.intro (.whole h) .none
  have hvalue (k : ℕ) : (Written.mk k 0).value = k := by simp [Written.value]
  cases h with
  | plain digits => simpa [hvalue] using Spelled.plain (hunsigned digits)
  | plus digits => simpa [hvalue] using Spelled.plus (hunsigned digits)
  | minus digits => simpa [hvalue] using Spelled.minus (hunsigned digits)

/-! ## Runs of digits -/

/-- No digit comes next. -/
def NoDigit (cs : List Char) : Prop :=
  ∀ c ∈ cs.head?, ¬ c.isDigit = true

theorem spanDigits_append {ds rest : List Char} (hds : ∀ c ∈ ds, c.isDigit = true)
    (hrest : NoDigit rest) (n count : ℕ) :
    spanDigits n count (ds ++ rest) = (Nat.ofDigitChars 10 ds n, count + ds.length, rest) := by
  induction ds generalizing n count with
  | nil =>
      cases rest with
      | nil => rfl
      | cons c rest =>
          rw [List.nil_append, spanDigits, digitValue?_of_not_isDigit (hrest c rfl)]
          rfl
  | cons c ds ih =>
      rw [List.cons_append, spanDigits, digitValue?_of_isDigit (hds c List.mem_cons_self)]
      simp only [ih fun d hd => hds d (List.mem_cons_of_mem _ hd), Nat.ofDigitChars_cons,
        List.length_cons]
      rw [Nat.add_assoc, Nat.add_comm 1]

theorem exists_digits (cs : List Char) :
    ∃ ds rest, cs = ds ++ rest ∧ (∀ c ∈ ds, c.isDigit = true) ∧ NoDigit rest := by
  induction cs with
  | nil => exact ⟨[], [], rfl, by simp, by simp [NoDigit]⟩
  | cons c cs ih =>
      by_cases hc : c.isDigit = true
      · obtain ⟨ds, rest, rfl, hds, hrest⟩ := ih
        exact ⟨c :: ds, rest, rfl, List.forall_mem_cons.2 ⟨hc, hds⟩, hrest⟩
      · exact ⟨[], c :: cs, rfl, by simp, by simpa [NoDigit] using hc⟩

/-! ## Exponents -/

theorem readExponent?_iff {cs : List Char} {e : ℤ} : readExponent? cs = some e ↔ Scale cs e := by
  cases cs with
  | nil =>
      rw [readExponent?, Option.some.injEq]
      constructor
      · rintro rfl
        exact .none
      · intro h
        cases h
        rfl
  | cons c cs =>
      have hscale : Scale (c :: cs) e ↔ (c = 'e' ∨ c = 'E') ∧ Numeral cs e := by
        constructor
        · intro h
          cases h with
          | power mark numeral => exact ⟨mark, numeral⟩
        · rintro ⟨mark, numeral⟩
          exact .power mark numeral
      rw [hscale, readExponent?.eq_def]
      by_cases hmark : c = 'e' ∨ c = 'E'
      · simp only [if_pos hmark, and_iff_right hmark]
        generalize hrest : Prod.snd _ = rest
        generalize hnegative : Prod.fst _ = negative
        -- Behind the sign there is nothing but digits.
        have hnumeral : Numeral cs e ↔ ∃ k : ℕ, Figures rest k ∧ e = signed negative k := by
          rw [← hrest, ← hnegative]
          split
          · exact Numeral.minus_iff
          · exact Numeral.plus_iff
          · next hminus hplus =>
              exact Numeral.plain_iff (fun ds h => hplus ds h) fun ds h => hminus ds h
        rw [hnumeral]
        obtain ⟨ds, tail, rfl, hds, htail⟩ := exists_digits rest
        rw [spanDigits_append hds htail]
        cases tail with
        | nil =>
            simp only [Figures, signed, List.append_nil, Nat.zero_add, List.length_eq_zero_iff,
              Option.ite_none_left_eq_some, Option.some.injEq]
            constructor
            · rintro ⟨hne, rfl⟩
              exact ⟨_, ⟨hne, hds, rfl⟩, rfl⟩
            · rintro ⟨k, ⟨hne, -, rfl⟩, rfl⟩
              exact ⟨hne, rfl⟩
        | cons d tail =>
            simp only [reduceCtorEq, false_iff]
            rintro ⟨k, ⟨-, hall, -⟩, -⟩
            exact htail d rfl (hall d (by simp))
      · simp [hmark]

/-! ## Decimals -/

theorem Scale.noDigit {es : List Char} {e : ℤ} (h : Scale es e) : NoDigit es := by
  cases h with
  | none => simp [NoDigit]
  | power mark =>
      intro c hc
      cases hc
      rcases mark with rfl | rfl <;> decide

theorem Scale.ne_point {es : List Char} {e : ℤ} (h : Scale es e) (rest : List Char) :
    es ≠ '.' :: rest := by
  rintro rfl
  cases h with
  | power mark => revert mark; decide

theorem readWritten?_iff {cs : List Char} {w : Written} : readWritten? cs = some w ↔ Unsigned cs w := by
  constructor
  · intro h
    obtain ⟨front, rest, rfl, hfront, hrest⟩ := exists_digits cs
    rw [readWritten?, spanDigits_append hfront hrest] at h
    simp only [Nat.zero_add] at h
    split at h
    · next rest =>
        obtain ⟨back, tail, rfl, hback, htail⟩ := exists_digits rest
        rw [spanDigits_append hback htail] at h
        simp only [Nat.add_sub_cancel_left, Option.ite_none_left_eq_some,
          Option.map_eq_some_iff] at h
        obtain ⟨hcount, e, he, rfl⟩ := h
        have hfigures : Figures (front ++ back)
            (Nat.ofDigitChars 10 back (Nat.ofDigitChars 10 front 0)) := by
          refine ⟨?_, List.forall_mem_append.2 ⟨hfront, hback⟩, by rw [Nat.ofDigitChars_append]⟩
          exact List.ne_nil_of_length_pos (by rw [List.length_append]; omega)
        have hunsigned := Unsigned.intro (.point hfigures) (readExponent?_iff.1 he)
        rwa [List.append_assoc] at hunsigned
    · simp only [Nat.add_zero, Option.ite_none_left_eq_some, Option.map_eq_some_iff] at h
      obtain ⟨hcount, e, he, rfl⟩ := h
      have hfigures : Figures front (Nat.ofDigitChars 10 front 0) :=
        ⟨List.ne_nil_of_length_pos (by omega), hfront, rfl⟩
      exact .intro (.whole hfigures) (readExponent?_iff.1 he)
  · intro h
    cases h with
    | @intro ds es n places e digits scale =>
        have hexponent := readExponent?_iff.2 scale
        cases digits with
        | whole digits =>
            obtain ⟨hne, hall, rfl⟩ := digits
            have hlength := List.length_pos_of_ne_nil hne
            rw [readWritten?, spanDigits_append hall scale.noDigit]
            simp only [Nat.zero_add]
            split
            · exact absurd rfl (scale.ne_point _)
            · rw [if_neg (by simpa using hne), hexponent]
              rfl
        | @point front back _ digits =>
            obtain ⟨hne, hall, rfl⟩ := digits
            obtain ⟨hfront, hback⟩ := List.forall_mem_append.1 hall
            have hlength := List.length_pos_of_ne_nil hne
            have hpoint : NoDigit ('.' :: (back ++ es)) := by
              intro c hc
              cases hc
              decide
            rw [List.append_assoc, List.cons_append, readWritten?, spanDigits_append hfront hpoint]
            simp only [Nat.zero_add, spanDigits_append hback scale.noDigit]
            rw [List.length_append] at hlength
            rw [Nat.add_sub_cancel_left, if_neg (by omega), hexponent, Nat.ofDigitChars_append]
            rfl

theorem Unsigned.head {cs : List Char} {w : Written} (h : Unsigned cs w) :
    ∃ c rest, cs = c :: rest ∧ (c.isDigit = true ∨ c = '.') := by
  have hfigures {ds : List Char} {n : ℕ} (h : Figures ds n) (rest : List Char) :
      ∃ c cs, ds ++ rest = c :: cs ∧ (c.isDigit = true ∨ c = '.') := by
    obtain ⟨hne, hall, -⟩ := h
    cases ds with
    | nil => exact absurd rfl hne
    | cons c ds => exact ⟨c, ds ++ rest, rfl, .inl (hall c List.mem_cons_self)⟩
  obtain ⟨digits, -⟩ := h
  cases digits with
  | whole digits => exact hfigures digits _
  | @point front back n digits =>
      cases front with
      | nil => exact ⟨'.', _, rfl, .inr rfl⟩
      | cons c front => exact ⟨c, _, rfl, .inl (digits.2.1 c (by simp))⟩

/-! ## Characters -/

/-- The characters of a number that are no digits. -/
def marks : List Char := ['+', '-', '.', 'e', 'E']

def IsNumeric (cs : List Char) : Prop :=
  ∀ c ∈ cs, c.isDigit = true ∨ c ∈ marks

theorem IsNumeric.cons {c : Char} {cs : List Char} (hc : c ∈ marks) (h : IsNumeric cs) :
    IsNumeric (c :: cs) :=
  List.forall_mem_cons.2 ⟨.inr hc, h⟩

theorem Figures.isNumeric {ds : List Char} {n : ℕ} (h : Figures ds n) : IsNumeric ds :=
  fun c hc => .inl (h.2.1 c hc)

theorem Numeral.isNumeric {cs : List Char} {n : ℤ} (h : Numeral cs n) : IsNumeric cs := by
  cases h with
  | plain digits => exact digits.isNumeric
  | plus digits | minus digits => exact digits.isNumeric.cons (by decide)

theorem Unsigned.isNumeric {cs : List Char} {w : Written} (h : Unsigned cs w) : IsNumeric cs := by
  obtain ⟨digits, scale⟩ := h
  refine List.forall_mem_append.2 ⟨?_, ?_⟩
  · cases digits with
    | whole digits => exact digits.isNumeric
    | point digits =>
        obtain ⟨hfront, hback⟩ := List.forall_mem_append.1 digits.isNumeric
        exact List.forall_mem_append.2 ⟨hfront, IsNumeric.cons (by decide) hback⟩
  · cases scale with
    | none => simp
    | power mark numeral =>
        refine numeral.isNumeric.cons ?_
        rcases mark with rfl | rfl <;> decide

theorem Spelled.isNumeric {cs : List Char} {q : ℚ} (h : Spelled cs q) : IsNumeric cs := by
  cases h with
  | plain decimal => exact decimal.isNumeric
  | plus decimal | minus decimal => exact decimal.isNumeric.cons (by decide)

theorem Spelled.ne_nil {cs : List Char} {q : ℚ} (h : Spelled cs q) : cs ≠ [] := by
  cases h with
  | plain decimal =>
      obtain ⟨c, rest, rfl, -⟩ := decimal.head
      exact List.cons_ne_nil _ _
  | plus | minus => exact List.cons_ne_nil _ _

/-! ## Numbers and words -/

/-- No word begins like a number. -/
theorem lower_head {c : Char} (h : c.isDigit = true ∨ c = '.') :
    c.toLower ≠ 'i' ∧ c.toLower ≠ 'n' ∧ c ≠ '+' ∧ c ≠ '-' := by
  have hsame : c.toLower = c := by
    rw [Char.toLower, dif_neg]
    rintro ⟨hlow, -⟩
    rcases h with hdigit | rfl
    · simp only [Char.isDigit, Bool.and_eq_true, decide_eq_true_eq] at hdigit
      have hbetween := UInt32.le_trans hlow hdigit.2
      revert hbetween
      decide
    · revert hlow
      decide
  rw [hsame]
  refine ⟨?_, ?_, ?_, ?_⟩ <;>
    · rintro rfl
      revert h
      decide

theorem readMagnitude?_of_unsigned {cs : List Char} {w : Written} (h : Unsigned cs w) :
    readMagnitude? cs = some w.toFloat := by
  obtain ⟨c, rest, rfl, hc⟩ := h.head
  obtain ⟨hi, hn, -⟩ := lower_head hc
  simp only [readMagnitude?, lower, List.map_cons]
  rw [if_neg (by simp [hi]), if_neg (by simp [hn]), readWritten?_iff.2 h, Option.map_some]

/-- What is read is a decimal or not a number. -/
theorem readMagnitude?_cases {cs : List Char} {x : Float} (h : readMagnitude? cs = some x) :
    rational? x = none ∨ ∃ w, Unsigned cs w ∧ x = w.toFloat := by
  simp only [readMagnitude?] at h
  split_ifs at h
  · cases h
    exact .inl (by decide +kernel)
  · cases h
    exact .inl (by decide +kernel)
  · obtain ⟨w, hw, rfl⟩ := Option.map_eq_some_iff.1 h
    exact .inr ⟨w, readWritten?_iff.1 hw, rfl⟩

/-- Every text that spells a number is read, as the double nearest to that number. -/
theorem readFloat_spelled {cs : List Char} {q : ℚ} (h : Spelled cs q) :
    ∃ x, readFloatChars? cs = some x ∧ IsNearest q x := by
  cases h with
  | @plain _ w decimal =>
      refine ⟨w.toFloat, ?_, isNearest_toFloat w⟩
      obtain ⟨c, rest, rfl, hc⟩ := decimal.head
      obtain ⟨-, -, hplus, hminus⟩ := lower_head hc
      rw [readFloatChars?.eq_def]
      split
      · next heq => exact absurd (List.cons.inj heq).1 hminus
      · next heq => exact absurd (List.cons.inj heq).1 hplus
      · exact readMagnitude?_of_unsigned decimal
  | @plus cs w decimal => exact ⟨w.toFloat, readMagnitude?_of_unsigned decimal, isNearest_toFloat w⟩
  | @minus cs w decimal =>
      refine ⟨w.toFloat.neg, ?_, (isNearest_toFloat w).neg⟩
      rw [readFloatChars?, readMagnitude?_of_unsigned decimal, Option.map_some]

/-- Only texts that spell a number are read as a finite double. -/
theorem spelled_of_readFloat {cs : List Char} {x : Float} {v : ℚ} (h : readFloatChars? cs = some x)
    (hx : rational? x = some v) : ∃ q, Spelled cs q := by
  have hmagnitude {cs : List Char} {y : Float} (h : readMagnitude? cs = some y)
      (hy : rational? y ≠ none) : ∃ w, Unsigned cs w := by
    rcases readMagnitude?_cases h with hnone | ⟨w, hw, -⟩
    · exact absurd hnone hy
    · exact ⟨w, hw⟩
  rw [readFloatChars?.eq_def] at h
  split at h
  · obtain ⟨y, hy, rfl⟩ := Option.map_eq_some_iff.1 h
    rw [rational?_neg] at hx
    obtain ⟨w, hw⟩ := hmagnitude hy (by rintro hnone; simp [hnone] at hx)
    exact ⟨_, .minus hw⟩
  · obtain ⟨w, hw⟩ := hmagnitude h (by simp [hx])
    exact ⟨_, .plus hw⟩
  · obtain ⟨w, hw⟩ := hmagnitude h (by simp [hx])
    exact ⟨_, .plain hw⟩

end ArmLink.Decimal
