import ArmLink.Proofs.LastTold

/-!
# The samples a monitor lets through

What a monitor keeps about samples is meant to be the last one it let through, and when
that was. `remembers_after` says that it is: at every moment the memory is the end of the
list of samples told. Everything a monitor decides about a sample can therefore be said of
that list, and `admitSample_iff` does so; the fields of a monitor are not needed after
this module.

A clock may be finer than a millisecond. A monitor on such a clock waits as many times
longer in units of it, and nothing else about it changes, so what is proved of `onClock`
holds for readings of any resolution.
-/

namespace ArmLink.Monitor

open ArmLink.Record (Sample)

/-- When a sample is shown, and the sample. -/
def Sighting.sample? : Sighting → Option (ℕ × Sample)
  | .sample now s => some (now, s)
  | _ => none

def Sighting.ofSample (shown : ℕ × Sample) : Sighting :=
  .sample shown.1 shown.2

/-- The samples among some sightings with their times, in order. -/
def samples (seen : List Sighting) : List (ℕ × Sample) :=
  seen.filterMap Sighting.sample?

/-- The monitor after what it was shown. -/
def after (m : Monitor) (seen : List Sighting) : Monitor :=
  seen.foldl (fun m sighting => (m.judge sighting).2) m

/-- The monitor that is told the time in so many parts of a millisecond. -/
def onClock (ticks : ℕ) (m : Monitor) : Monitor :=
  { m with interval := ticks * m.interval }

/-- A monitor remembers a sample and its time, or none. -/
def Remembers (m : Monitor) (last : Option (ℕ × Sample)) : Prop :=
  m.sampled = last.map Prod.fst ∧ m.sample = last.map Prod.snd

theorem samples_append (xs ys : List Sighting) : samples (xs ++ ys) = samples xs ++ samples ys :=
  List.filterMap_append

@[simp] theorem samples_map (l : List (ℕ × Sample)) :
    samples (l.map .ofSample) = l := by
  induction l with
  | nil => rfl
  | cons shown rest ih => exact congrArg (shown :: ·) ih

theorem told_append (m : Monitor) (xs ys : List Sighting) :
    m.told (xs ++ ys) = m.told xs ++ (m.after xs).told ys := by
  induction xs generalizing m with
  | nil => rfl
  | cons sighting rest ih =>
      rw [List.cons_append, told, told, ih, List.append_assoc]
      rfl

/-! ## One sighting -/

theorem interval_judge (m : Monitor) (sighting : Sighting) :
    (m.judge sighting).2.interval = m.interval := by
  cases sighting with
  | sample now s =>
      rw [judge, admitSample]
      split <;> rfl
  | mode mode =>
      rw [judge, admitMode]
      split <;> rfl
  | faults report =>
      rw [judge, admitFaults]
      split
      · split <;> rfl
      · rfl

theorem remembers_judge_of_not_sample {m : Monitor} {last : Option (ℕ × Sample)}
    (h : m.Remembers last) {sighting : Sighting} (hother : sighting.sample? = none) :
    (m.judge sighting).2.Remembers last := by
  cases sighting with
  | sample now s => cases hother
  | mode mode =>
      rw [judge, admitMode]
      split <;> exact h
  | faults report =>
      rw [judge, admitFaults]
      split
      · split <;> exact h
      · exact h

theorem admitSample_of_held {m : Monitor} {now : ℕ} {s : Sample}
    (h : (m.admitSample now s).1 = false) : m.admitSample now s = (false, m) := by
  rw [admitSample] at h ⊢
  split at h
  · next hheld => rw [if_pos hheld]
  · cases h

theorem remembers_of_admitted {m : Monitor} {now : ℕ} {s : Sample}
    (h : (m.admitSample now s).1 = true) : (m.admitSample now s).2.Remembers (some (now, s)) := by
  rw [admitSample] at h ⊢
  split at h
  · cases h
  · next hpass =>
      rw [if_neg hpass]
      exact ⟨rfl, rfl⟩

/-- A sample is let through if enough time has passed since the last one, and, where only changes
are told, it differs from that one. -/
theorem Remembers.admitSample_iff {m : Monitor} {last : Option (ℕ × Sample)} (h : m.Remembers last)
    (now : ℕ) (s : Sample) : (m.admitSample now s).1 = true ↔
      ∀ t r, last = some (t, r) → m.interval ≤ now - t ∧ (m.changesOnly = true → moved r s = true) := by
  obtain ⟨hsampled, hsample⟩ := h
  rw [admitSample, tooSoon, unchanged, hsampled, hsample]
  cases last with
  | none => simp
  | some shown =>
      obtain ⟨t, r⟩ := shown
      simp only [Option.map_some, Option.any_some, Option.some.injEq, Prod.mk.injEq]
      constructor
      · rintro hadmitted t' r' ⟨rfl, rfl⟩
        split at hadmitted
        · cases hadmitted
        · next hpass => simpa [imp_iff_not_or, or_comm] using hpass
      · intro hpass
        obtain ⟨htime, hmoved⟩ := hpass t r ⟨rfl, rfl⟩
        rw [if_neg]
        cases hchanges : m.changesOnly <;> simp_all

/-! ## Any number of sightings -/

theorem interval_after (m : Monitor) (seen : List Sighting) :
    (m.after seen).interval = m.interval := by
  induction seen generalizing m with
  | nil => rfl
  | cons sighting rest ih => exact (ih _).trans (m.interval_judge sighting)

theorem changesOnly_after (m : Monitor) (seen : List Sighting) :
    (m.after seen).changesOnly = m.changesOnly := by
  induction seen generalizing m with
  | nil => rfl
  | cons sighting rest ih => exact (ih _).trans (m.changesOnly_judge sighting)

theorem after_concat (m : Monitor) (seen : List Sighting) (sighting : Sighting) :
    m.after (seen ++ [sighting]) = ((m.after seen).judge sighting).2 :=
  List.foldl_concat ..

theorem told_concat (m : Monitor) (seen : List Sighting) (sighting : Sighting) :
    m.told (seen ++ [sighting]) =
      m.told seen ++ if ((m.after seen).judge sighting).1 then [sighting] else [] := by
  rw [told_append, told, told, List.append_nil]

theorem samples_told_concat (m : Monitor) (seen : List Sighting) (now : ℕ) (s : Sample) :
    samples (m.told (seen ++ [.sample now s])) =
      samples (m.told seen) ++ if ((m.after seen).admitSample now s).1 then [(now, s)] else [] := by
  rw [told_concat, samples_append]
  congr 1
  rw [judge]
  split <;> rfl

theorem samples_told_concat_of_not_sample (m : Monitor) (seen : List Sighting) {sighting : Sighting}
    (hother : sighting.sample? = none) :
    samples (m.told (seen ++ [sighting])) = samples (m.told seen) := by
  rw [told_concat, samples_append]
  split <;> simp [samples, hother]

theorem told_sublist (m : Monitor) (seen : List Sighting) : (m.told seen).Sublist seen := by
  induction seen generalizing m with
  | nil => exact .slnil
  | cons sighting rest ih =>
      rw [told]
      split
      · exact (ih _).cons_cons _
      · exact (ih _).cons _

section

variable {m : Monitor} (hfresh : m.Remembers none)

include hfresh

/-- What a monitor remembers is the last sample it told. -/
theorem remembers_after (seen : List Sighting) :
    (m.after seen).Remembers (samples (m.told seen)).getLast? := by
  induction seen using List.reverseRecOn with
  | nil => exact hfresh
  | append_singleton seen sighting ih =>
      rw [after_concat]
      cases hsample : sighting.sample? with
      | none =>
          rw [samples_told_concat_of_not_sample m seen hsample]
          exact remembers_judge_of_not_sample ih hsample
      | some shown =>
          cases sighting with
          | mode | faults => cases hsample
          | sample now s =>
              rw [samples_told_concat, judge]
              cases hadmitted : ((m.after seen).admitSample now s).1 with
              | true =>
                  rw [if_pos rfl, List.getLast?_concat]
                  exact remembers_of_admitted hadmitted
              | false =>
                  rw [admitSample_of_held hadmitted, if_neg Bool.false_ne_true, List.append_nil]
                  exact ih

/-- What is let through is decided by the last sample told. -/
theorem admitted_iff (seen : List Sighting) (now : ℕ) (s : Sample) :
    ((m.after seen).admitSample now s).1 = true ↔
      ∀ t r, (samples (m.told seen)).getLast? = some (t, r) →
        m.interval ≤ now - t ∧ (m.changesOnly = true → moved r s = true) := by
  rw [(remembers_after hfresh seen).admitSample_iff, interval_after, changesOnly_after]

/-- What else is shown between the samples makes no difference to them. -/
theorem samples_told_eq (seen : List Sighting) :
    samples (m.told seen) = samples (m.told ((samples seen).map .ofSample)) := by
  induction seen using List.reverseRecOn with
  | nil => rfl
  | append_singleton seen sighting ih =>
      cases hsample : sighting.sample? with
      | none =>
          have hsame : samples (seen ++ [sighting]) = samples seen := by
            simp [samples, hsample]
          rw [samples_told_concat_of_not_sample m seen hsample, hsame, ih]
      | some shown =>
          cases sighting with
          | mode | faults => cases hsample
          | sample now s =>
              have hmore : samples (seen ++ [.sample now s]) = samples seen ++ [(now, s)] :=
                samples_append seen [.sample now s]
              have hpass := admitted_iff hfresh seen now s
              rw [ih, ← admitted_iff hfresh] at hpass
              rw [hmore, List.map_append, List.map_singleton, Sighting.ofSample, samples_told_concat,
                samples_told_concat, ih, Bool.eq_iff_iff.2 hpass]

/-- Samples that come far enough apart and differ from those in front are all told. -/
theorem told_eq_self {l : List (ℕ × Sample)}
    (h : l.IsChain fun a b => a.1 + m.interval ≤ b.1 ∧ moved a.2 b.2 = true) :
    samples (m.told (l.map .ofSample)) = l := by
  induction l using List.reverseRecOn with
  | nil => rfl
  | append_singleton l shown ih =>
      obtain ⟨hfront, -, hlast⟩ := List.isChain_append.1 h
      obtain ⟨now, s⟩ := shown
      rw [List.map_append, List.map_singleton, Sighting.ofSample, samples_told_concat, if_pos,
        ih hfront]
      rw [admitted_iff hfresh, ih hfront]
      intro t r htold
      obtain ⟨htime, hmoved⟩ := hlast (t, r) htold (now, s) rfl
      exact ⟨Nat.le_sub_of_add_le' htime, fun _ => hmoved⟩

end

end ArmLink.Monitor
