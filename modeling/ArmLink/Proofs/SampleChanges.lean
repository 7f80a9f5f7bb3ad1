import ArmLink.Proofs.Differences
import ArmLink.Proofs.SamplesTold

/-!
# Which samples are held back

Between two samples that are told there may be many that are not. Each of them was compared
with the one told last, so it is near that one however slowly the arm has drifted in
between, provided that the comparison sees every coordinate.

It sees every number and every infinity. The threshold is compared with a difference that
has been rounded, so the distance at which two numbers begin to differ is the threshold and
half a unit more, `reach`. What is not a number differs from nothing: a coordinate that is
no number in one of the two samples is passed over, whatever the other has there, and a
sample without any number, once told, is never followed by another.
-/

namespace ArmLink.Monitor

open ArmLink.Decimal
open ArmLink.Decimal.Binary64
open ArmLink.Record (Sample)

/-- How far apart two numbers may be before they count as different: the double nearest to a
thousandth, and half of its last place. -/
def reach : ℚ := 9223372036854777 / 2 ^ 63

/-- The same value, or two numbers that are not far apart. -/
inductive Near (a b : Float) : Prop where
  | nan (left : ofFloat a = .nan) (right : ofFloat b = .nan)
  | infinite {negative : Bool} (left : ofFloat a = .infinite negative)
      (right : ofFloat b = .infinite negative)
  | close {p q : ℚ} (left : rational? a = some p) (right : rational? b = some q)
      (distance : |p - q| ≤ reach)

/-- Each coordinate is near its counterpart, or one of the two is not a number. -/
def Unmoved (earlier later : Sample) : Prop :=
  ∀ pair ∈ earlier.coordinates.zip later.coordinates,
    Near pair.1 pair.2 ∨ ofFloat pair.1 = .nan ∨ ofFloat pair.2 = .nan

/-! ## One coordinate -/

theorem rational?_threshold :
    rational? threshold = some (((4611686018427388 : ℕ) : ℚ) * 2 ^ (-62 : ℤ)) := by
  decide +kernel

/-- The double next to the threshold is odd in its last place, so the middle belongs to the
threshold. -/
theorem rational?_threshold_succ : rational? (.ofBits 0x3f50624dd2f1a9fd) =
    some (((4611686018427388 + 1 : ℕ) : ℚ) * 2 ^ (-62 : ℤ)) := by
  decide +kernel

theorem reach_eq : (((4611686018427388 : ℕ) : ℚ) + 1 / 2) * 2 ^ (-62 : ℤ) = reach := by
  norm_num [reach]

theorem threshold_lt_iff (x : Float) : threshold < x ↔
    ofFloat x = .infinite false ∨
      ∃ v, rational? x = some v ∧ ((4611686018427388 : ℕ) : ℚ) * 2 ^ (-62 : ℤ) < v :=
  lt_iff_of_pos rational?_threshold (by positivity) x

theorem threshold_lt_abs_of_nonneg {d : ℚ} {x : Float} (h : IsNearest d x) (hd : 0 ≤ d) :
    threshold < x.abs ↔ reach < d := by
  rw [threshold_lt_iff, rational?_abs, ofFloat_abs]
  rcases h.finite_or_infinite with ⟨v, hv⟩ | ⟨negative, hx, hfar⟩
  · have hzero : rational? 0 = some 0 := by decide +kernel
    have hnonneg : 0 ≤ v := h.ge_of_ge hv hzero hd
    have hfinite : (ofFloat x).abs ≠ .infinite false := by
      obtain ⟨negative, m, e, hparts, -⟩ := parts_of_rational? hv
      rw [hparts]
      exact nofun
    rw [← reach_eq, ← h.lt_iff_of_even hv (by norm_num) (by norm_num) rational?_threshold
      rational?_threshold_succ, hv]
    simp [hfinite, abs_of_nonneg hnonneg]
  · have hlarge : reach < overflow := by
      refine lt_of_le_of_lt ?_ (abs_lt.1 (rational?_lt_overflow rational?_threshold_succ)).2
      norm_num [reach]
    have hreach : 0 < reach := by norm_num [reach]
    rw [hx]
    refine iff_of_true (.inl rfl) ?_
    cases negative with
    | false => simpa using hlarge.trans_le hfar
    | true =>
        rw [sign_true] at hfar
        linarith

/-- A rounded difference is beyond the threshold exactly when the exact one is out of reach. -/
theorem threshold_lt_abs_iff {d : ℚ} {x : Float} (h : IsNearest d x) :
    threshold < x.abs ↔ reach < |d| := by
  rcases le_total 0 d with hd | hd
  · rw [abs_of_nonneg hd]
    exact threshold_lt_abs_of_nonneg h hd
  · have hturned : ofFloat x.neg.abs = ofFloat x.abs := by
      rw [ofFloat_abs, ofFloat_neg, ofFloat_abs]
      cases ofFloat x <;> rfl
    rw [abs_of_nonpos hd, ← threshold_lt_abs_of_nonneg h.neg (neg_nonneg.2 hd), threshold_lt_iff,
      threshold_lt_iff, rational?, rational?, hturned]

theorem not_threshold_lt_of_nan {x : Float} (h : ofFloat x = .nan) : ¬ threshold < x.abs := by
  rw [threshold_lt_iff, rational?, ofFloat_abs, h]
  simp [Binary64.abs, value?]

theorem threshold_lt_of_infinite {x : Float} {negative : Bool} (h : ofFloat x = .infinite negative) :
    threshold < x.abs := by
  rw [threshold_lt_iff, ofFloat_abs, h]
  exact .inl rfl

theorem near_iff_of_rational {a b : Float} {p q : ℚ} (hp : rational? a = some p)
    (hq : rational? b = some q) : Near a b ↔ |p - q| ≤ reach := by
  refine ⟨?_, .close hp hq⟩
  rintro (⟨hleft, -⟩ | ⟨hleft, -⟩ | ⟨hp', hq', hnear⟩)
  · simp [rational?, hleft, value?] at hp
  · simp [rational?, hleft, value?] at hp
  · rw [hp, Option.some.injEq] at hp'
    rw [hq, Option.some.injEq] at hq'
    rwa [hp', hq']

theorem near_iff_of_infinite {a b : Float} {negative : Bool}
    (h : ofFloat a = .infinite negative ∨ ofFloat b = .infinite negative) :
    Near a b ↔ ofFloat a = ofFloat b := by
  constructor
  · rintro (⟨hleft, hright⟩ | ⟨hleft, hright⟩ | ⟨hp, hq, -⟩)
    · rw [hleft, hright]
    · rw [hleft, hright]
    · obtain ⟨_, _, _, hleft, -⟩ := parts_of_rational? hp
      obtain ⟨_, _, _, hright, -⟩ := parts_of_rational? hq
      simp [hleft, hright] at h
  · intro hsame
    rcases h with h | h
    · exact .infinite h (hsame ▸ h)
    · exact .infinite (hsame ▸ h) h

/-- Infinities are told apart, numbers as far as they are within reach, and nothing differs from
what is not a number. -/
theorem differ_eq_false_iff (a b : Float) :
    differ a b = false ↔ Near a b ∨ ofFloat a = .nan ∨ ofFloat b = .nan := by
  have hsub := ofFloat_sub a b
  rw [differ, decide_eq_false_iff_not]
  cases ha : ofFloat a with
  | nan =>
      rw [ha] at hsub
      exact iff_of_true (not_threshold_lt_of_nan hsub) (.inr (.inl rfl))
  | infinite n =>
      cases hb : ofFloat b with
      | nan =>
          rw [ha, hb] at hsub
          exact iff_of_true (not_threshold_lt_of_nan hsub) (.inr (.inr rfl))
      | infinite n' =>
          simp only [ha, hb] at hsub
          rw [near_iff_of_infinite (.inl ha), ha, hb]
          by_cases hsame : n = n'
          · rw [if_pos hsame] at hsub
            exact iff_of_true (not_threshold_lt_of_nan hsub) (.inl (by rw [hsame]))
          · rw [if_neg hsame] at hsub
            exact iff_of_false (not_not.2 (threshold_lt_of_infinite hsub)) (by simpa using hsame)
      | finite =>
          simp only [ha, hb] at hsub
          rw [near_iff_of_infinite (.inl ha), ha, hb]
          exact iff_of_false (not_not.2 (threshold_lt_of_infinite hsub)) (by simp)
  | finite n m e =>
      cases hb : ofFloat b with
      | nan =>
          rw [ha, hb] at hsub
          exact iff_of_true (not_threshold_lt_of_nan hsub) (.inr (.inr rfl))
      | infinite n' =>
          simp only [ha, hb] at hsub
          rw [near_iff_of_infinite (.inr hb), ha, hb]
          exact iff_of_false (not_not.2 (threshold_lt_of_infinite hsub)) (by simp)
      | finite n' m' e' =>
          have hp : rational? a = some (sign n * (m * 2 ^ e)) := by rw [rational?, ha, value?]
          have hq : rational? b = some (sign n' * (m' * 2 ^ e')) := by rw [rational?, hb, value?]
          rw [threshold_lt_abs_iff (isNearest_sub hp hq), not_lt, near_iff_of_rational hp hq]
          simp

/-! ## Whole samples -/

theorem near_self (a : Float) : Near a a := by
  cases ha : ofFloat a with
  | nan => exact .nan ha ha
  | infinite negative => exact .infinite ha ha
  | finite negative m e =>
      have hp : rational? a = some (sign negative * (m * 2 ^ e)) := by rw [rational?, ha, value?]
      refine .close hp hp ?_
      rw [sub_self, abs_zero]
      norm_num [reach]

theorem unmoved_self (s : Sample) : Unmoved s s := by
  intro pair hpair
  obtain ⟨i, hi, rfl⟩ := List.getElem_of_mem hpair
  rw [List.getElem_zip]
  exact .inl (near_self _)

theorem moved_eq_false_iff (earlier later : Sample) :
    moved earlier later = false ↔ Unmoved earlier later := by
  simp only [moved, List.any_eq_false, Bool.not_eq_true, differ_eq_false_iff, Unmoved]

theorem moved_iff (earlier later : Sample) : moved earlier later = true ↔ ¬ Unmoved earlier later := by
  rw [← moved_eq_false_iff, Bool.not_eq_false]

/-! ## Samples in a row -/

theorem remembers_onClock_new (ticks rate : ℕ) (changesOnly : Bool) (decimals : ℕ) :
    ((new rate changesOnly decimals).onClock ticks).Remembers none :=
  ⟨rfl, rfl⟩

/-- Where only changes are told, a sample that comes too soon leaves everything as it is. Any other
one is told if the arm has moved since the last sample that was told; so after it the last sample told
has each of its coordinates near that of the arm, except where one of the two is not a number. -/
theorem last_told_is_near (rate decimals ticks : ℕ) (seen : List Sighting) (now : ℕ) (s : Sample) :
    let m := (new rate true decimals).onClock ticks
    let last := fun seen => (samples (m.told seen)).getLast?
    let tooSoon := ∃ t r, last seen = some (t, r) ∧ now - t < ticks * (1000 / max rate 1)
    (tooSoon → (m.after seen).admitSample now s = (false, m.after seen)) ∧
      (¬ tooSoon →
        (((m.after seen).admitSample now s).1 = true ↔
          ∀ t r, last seen = some (t, r) → ¬ Unmoved r s) ∧
        ∃ t r, last (seen ++ [.sample now s]) = some (t, r) ∧ Unmoved r s) := by
  intro m last tooSoon
  have hfresh : m.Remembers none := remembers_onClock_new ticks rate true decimals
  have hadmitted : ((m.after seen).admitSample now s).1 = true ↔ ∀ t r, last seen = some (t, r) →
      ticks * (1000 / max rate 1) ≤ now - t ∧ ¬ Unmoved r s := by
    rw [admitted_iff hfresh]
    have hchanges : m.changesOnly = true := rfl
    simp only [hchanges, true_imp_iff, moved_iff]
    rfl
  refine ⟨fun hsoon => admitSample_of_held (Bool.eq_false_iff.2 fun htold => ?_), fun hlate => ?_⟩
  · obtain ⟨t, r, hlast, hlt⟩ := hsoon
    have := (hadmitted.1 htold t r hlast).1
    omega
  · have hiff : ((m.after seen).admitSample now s).1 = true ↔
        ∀ t r, last seen = some (t, r) → ¬ Unmoved r s := by
      rw [hadmitted]
      refine forall_congr' fun t => forall_congr' fun r => imp_congr_right fun hlast => ?_
      refine and_iff_right (not_lt.1 fun hlt => hlate ⟨t, r, hlast, hlt⟩)
    refine ⟨hiff, ?_⟩
    simp only [last, samples_told_concat]
    cases htold : ((m.after seen).admitSample now s).1 with
    | true =>
        rw [if_pos rfl, List.getLast?_concat]
        exact ⟨now, s, rfl, unmoved_self s⟩
    | false =>
        rw [htold] at hiff
        simp only [Bool.false_eq_true, false_iff, not_forall, not_not] at hiff
        obtain ⟨t, r, hlast, hunmoved⟩ := hiff
        rw [if_neg Bool.false_ne_true, List.append_nil]
        exact ⟨t, r, hlast, hunmoved⟩

/-- A tool whose height is not known. -/
def blind : Sample := ⟨#v[0, 0, 0, 0], ⟨0, 0, 0.0 / 0.0, 0, 0, 0⟩⟩

/-- The same arm when its tool is known to be half a meter up. -/
def raised : Sample := ⟨#v[0, 0, 0, 0], ⟨0, 0, 0.5, 0, 0, 0⟩⟩

/-- A height that becomes known is not told, although two milliseconds have passed and one is enough. -/
theorem last_told_can_be_far :
    let m := (new 1000 true 4).onClock 1
    samples (m.told [.sample 0 blind, .sample 2 raised]) = [(0, blind)] ∧
      ¬ 2 - 0 < 1 * (1000 / max 1000 1) ∧
      ∃ pair ∈ blind.coordinates.zip raised.coordinates, ¬ Near pair.1 pair.2 := by
  refine ⟨by decide +kernel, by decide, (blind.pose.z, raised.pose.z),
    List.mem_of_getElem? (i := 6) rfl, ?_⟩
  rintro (⟨-, hright⟩ | ⟨hleft, -⟩ | ⟨hleft, -, -⟩)
  · exact absurd hright (by decide +kernel)
  · exact absurd hleft (by cases ‹Bool› <;> decide +kernel)
  · have hnone : rational? blind.pose.z = none := by decide +kernel
    rw [hnone] at hleft
    cases hleft

/-- Nothing differs from a sample without any number. -/
theorem unmoved_of_nan {r : Sample} (h : ∀ x ∈ r.coordinates, ofFloat x = .nan) (s : Sample) :
    Unmoved r s :=
  fun _ hpair => .inr (.inl (h _ (List.of_mem_zip hpair).1))

/-- Once such a sample is told, the arm may do what it likes. -/
theorem nothing_told_after_nan {m : Monitor} (hfresh : m.Remembers none) (hchanges : m.changesOnly = true)
    {seen : List Sighting} {t : ℕ} {r : Sample}
    (hlast : (samples (m.told seen)).getLast? = some (t, r))
    (hnan : ∀ x ∈ r.coordinates, ofFloat x = .nan) (more : List Sighting) :
    samples (m.told (seen ++ more)) = samples (m.told seen) := by
  induction more using List.reverseRecOn with
  | nil => rw [List.append_nil]
  | append_singleton more sighting ih =>
      rw [← List.append_assoc]
      cases hsample : sighting.sample? with
      | none => rw [samples_told_concat_of_not_sample m _ hsample, ih]
      | some shown =>
          cases sighting with
          | mode | faults => cases hsample
          | sample now s =>
              have hheld : ¬ ((m.after (seen ++ more)).admitSample now s).1 = true := by
                rw [admitted_iff hfresh, ih]
                intro hpass
                exact (moved_iff r s).1 ((hpass t r hlast).2 hchanges) (unmoved_of_nan hnan s)
              rw [samples_told_concat, if_neg hheld, List.append_nil, ih]

end ArmLink.Monitor
