import Mathlib.Data.List.Range
import ArmLink.Proofs.SamplesTold
import ArmLink.Watch.Schedule

/-!
# How often samples are told

A monitor keeps two samples that it tells at least its interval apart, and that is all it
does about their rate. So within any span it tells as many as intervals begin in it, and no
fewer: `tellsAtMost_iff` gives the limit of every span exactly.

The interval is a whole number of milliseconds, and it comes from a rate by a division that
drops the rest. Dropping the rest makes the interval too short, and the rate is kept in a
second only where there is no rest to drop. The rate in turn comes from the period of the
looks by such a division, and there dropping the rest makes the interval too long: a sample
taken one period after the last is held back unless the period is one that some rate gives.
Then every other look is lost, and never more than that, because an interval is at most two
periods.
-/

namespace ArmLink.Monitor

open ArmLink.Record (Sample)
open ArmLink.Watch (Timer)

/-- The clock is not set back between two samples. -/
def ClockAdvances (seen : List Sighting) : Prop :=
  (samples seen).Pairwise fun a b => a.1 ≤ b.1

/-- How many samples are told from a time on, for so long. -/
def toldWithin (m : Monitor) (seen : List Sighting) (start span : ℕ) : ℕ :=
  (samples (m.told seen)).countP fun shown => start ≤ shown.1 ∧ shown.1 < start + span

/-- So many samples are the most that are told within a span of this length, wherever it begins. -/
def TellsAtMost (m : Monitor) (n span : ℕ) : Prop :=
  ∀ seen, ClockAdvances seen → ∀ start, m.toldWithin seen start span ≤ n

/-! ## Gaps -/

theorem told_apart {m : Monitor} (hfresh : m.Remembers none) {seen : List Sighting}
    (h : ClockAdvances seen) :
    (samples (m.told seen)).IsChain fun a b => a.1 + m.interval ≤ b.1 := by
  induction seen using List.reverseRecOn with
  | nil => exact .nil
  | append_singleton seen sighting ih =>
      rw [ClockAdvances, samples_append, List.pairwise_append] at h
      obtain ⟨hfront, -, hlast⟩ := h
      cases hsample : sighting.sample? with
      | none =>
          rw [samples_told_concat_of_not_sample m seen hsample]
          exact ih hfront
      | some shown =>
          cases sighting with
          | mode | faults => cases hsample
          | sample now s =>
              rw [samples_told_concat]
              split
              · next hadmitted =>
                  refine List.isChain_append.2 ⟨ih hfront, .singleton _, ?_⟩
                  rintro ⟨t, r⟩ htold _ ⟨⟩
                  have hseen := ((m.told_sublist seen).filterMap Sighting.sample?).subset
                    (List.mem_of_getLast? htold)
                  have hle : t ≤ now := hlast (t, r) hseen (now, s) List.mem_cons_self
                  have hgap := (((admitted_iff hfresh seen now s).1 hadmitted) t r htold).1
                  show t + m.interval ≤ now
                  omega
              · rw [List.append_nil]
                exact ih hfront

/-- Times that are so far apart cover at least as many gaps as there are times behind the first. -/
theorem gaps_lt_span {d start stop : ℕ} {times : List ℕ} (hne : times ≠ [])
    (happart : times.Pairwise fun a b => a + d ≤ b)
    (hwithin : ∀ t ∈ times, start ≤ t ∧ t < stop) : start + (times.length - 1) * d < stop := by
  induction times generalizing start with
  | nil => exact absurd rfl hne
  | cons t rest ih =>
      obtain ⟨hfirst, hrest⟩ := List.pairwise_cons.1 happart
      obtain ⟨hstart, hstop⟩ := hwithin t List.mem_cons_self
      cases rest with
      | nil => simpa using Nat.lt_of_le_of_lt hstart hstop
      | cons u rest =>
          have hlater : ∀ v ∈ u :: rest, start + d ≤ v ∧ v < stop := fun v hv =>
            ⟨(Nat.add_le_add_right hstart d).trans (hfirst v hv),
              (hwithin v (List.mem_cons_of_mem t hv)).2⟩
          have hspan := ih (List.cons_ne_nil u rest) hrest hlater
          simp only [List.length_cons, Nat.add_sub_cancel, Nat.succ_mul] at hspan ⊢
          omega

/-! ## Samples that differ -/

/-- A sample to the left or to the right, by turns. -/
def swing (i : ℕ) : Sample :=
  ⟨Vector.replicate 4 0.0, .planar (if i % 2 = 0 then 0.0 else 1.0) 0.0 0.0 0.0⟩

theorem moved_swing (i : ℕ) : moved (swing i) (swing (i + 1)) = true := by
  rcases Nat.mod_two_eq_zero_or_one i with h | h
  · rw [swing, swing, if_pos h, if_neg (by omega)]
    decide +kernel
  · rw [swing, swing, if_neg (by omega), if_pos (by omega)]
    decide +kernel

/-- Samples at even distances. -/
def course (first d : ℕ) (s : ℕ → Sample) (n : ℕ) : List (ℕ × Sample) :=
  (List.range n).map fun i => (first + i * d, s i)

theorem clockAdvances_course (first d : ℕ) (s : ℕ → Sample) (n : ℕ) :
    ClockAdvances ((course first d s n).map .ofSample) := by
  rw [ClockAdvances, samples_map, course, List.pairwise_map]
  exact List.pairwise_lt_range.imp fun hlt =>
    Nat.add_le_add_left (Nat.mul_le_mul_right d hlt.le) first

theorem isChain_course {R : ℕ × Sample → ℕ × Sample → Prop} {first d : ℕ} {s : ℕ → Sample}
    (h : ∀ i, R (first + i * d, s i) (first + (i + 1) * d, s (i + 1))) (n : ℕ) :
    (course first d s n).IsChain R := by
  rw [course, List.isChain_map, List.isChain_range]
  exact fun i _ => h i

/-- A monitor that has told nothing tells at most so many samples within a span exactly when so many
of its intervals fill it. -/
theorem tellsAtMost_iff {m : Monitor} (hfresh : m.Remembers none) (n span : ℕ) :
    m.TellsAtMost n span ↔ span ≤ n * m.interval := by
  constructor
  · intro h
    -- One sample more, each an interval behind the one in front, would go through.
    by_contra hshort
    have htold : samples (m.told ((course 0 m.interval swing (n + 1)).map .ofSample)) =
        course 0 m.interval swing (n + 1) := by
      refine told_eq_self hfresh (isChain_course (fun i => ⟨?_, moved_swing i⟩) (n + 1))
      rw [Nat.succ_mul, Nat.add_assoc]
    have hcount := h _ (clockAdvances_course 0 m.interval swing (n + 1)) 0
    have hall : ∀ shown ∈ course 0 m.interval swing (n + 1),
        decide (0 ≤ shown.1 ∧ shown.1 < 0 + span) = true := by
      intro shown hshown
      obtain ⟨i, hi, rfl⟩ := List.mem_map.1 hshown
      have hle := Nat.mul_le_mul_right m.interval (Nat.le_of_lt_succ (List.mem_range.1 hi))
      simp only [decide_eq_true_eq]
      omega
    rw [toldWithin, htold, List.countP_eq_length.2 hall, course, List.length_map,
      List.length_range] at hcount
    omega
  · intro hspan seen hclock start
    let Apart (a b : ℕ × Sample) : Prop := a.1 + m.interval ≤ b.1
    have htrans : Trans Apart Apart Apart :=
      ⟨fun hab hbc => (Nat.le_add_right _ _).trans ((Nat.add_le_add_right hab _).trans hbc)⟩
    have happart := (told_apart hfresh hclock).pairwise
    rw [toldWithin, List.countP_eq_length_filter]
    by_contra hmore
    generalize hwindow : (samples (m.told seen)).filter
      (fun shown => decide (start ≤ shown.1 ∧ shown.1 < start + span)) = window at hmore
    have hwithin : ∀ t ∈ window.map Prod.fst, start ≤ t ∧ t < start + span := by
      intro t ht
      obtain ⟨shown, hshown, rfl⟩ := List.mem_map.1 ht
      rw [← hwindow] at hshown
      exact of_decide_eq_true (List.mem_filter.1 hshown).2
    have hgaps : (window.map Prod.fst).Pairwise fun a b => a + m.interval ≤ b := by
      rw [List.pairwise_map, ← hwindow]
      exact happart.sublist List.filter_sublist
    have hlt := gaps_lt_span (by
      rw [ne_eq, List.map_eq_nil_iff]
      rintro rfl
      exact hmore (Nat.zero_le n)) hgaps hwithin
    have hle : n * m.interval ≤ (window.length - 1) * m.interval :=
      Nat.mul_le_mul_right _ (by omega)
    rw [List.length_map] at hlt
    omega

/-! ## A second -/

/-- In a second a monitor tells at most so many samples exactly when so many of its intervals, each a
thousand milliseconds divided by the rate without the rest, fill the second. The rate itself is such
a number only where there is no rest. The clock may be finer than a millisecond. -/
theorem tells_at_most_in_second {rate ticks : ℕ} (hrate : 0 < rate) (hticks : 0 < ticks)
    (changesOnly : Bool) (decimals n : ℕ) :
    (TellsAtMost (onClock ticks (new rate changesOnly decimals)) n (1000 * ticks) ↔
      1000 ≤ n * (1000 / rate)) ∧
    (TellsAtMost (onClock ticks (new rate changesOnly decimals)) rate (1000 * ticks) ↔ rate ∣ 1000) := by
  have hlimit (n : ℕ) : TellsAtMost (onClock ticks (new rate changesOnly decimals)) n (1000 * ticks) ↔
      1000 ≤ n * (1000 / rate) := by
    have hinterval : (onClock ticks (new rate changesOnly decimals)).interval = 1000 / rate * ticks := by
      show ticks * (1000 / max rate 1) = _
      rw [Nat.max_eq_left hrate, Nat.mul_comm]
    rw [tellsAtMost_iff ⟨rfl, rfl⟩, hinterval, ← Nat.mul_assoc]
    exact Nat.mul_le_mul_right_iff hticks
  refine ⟨hlimit n, (hlimit rate).trans ?_⟩
  rw [Nat.dvd_iff_div_mul_eq, Nat.mul_comm]
  have hle := Nat.div_mul_le_self 1000 rate
  omega

/-- A clock in nanoseconds, and a rate that has a rest: 17 a second may become 18, and no more. -/
theorem tells_at_most_in_second_seventeen :
    let m := onClock 1000000 (new 17 true 4)
    0 < 17 ∧ 0 < 1000000 ∧ TellsAtMost m 18 1000000000 ∧ ¬ TellsAtMost m 17 1000000000 := by
  intro m
  have hrate : 0 < 17 := by decide
  have hticks : 0 < 1000000 := by decide
  exact ⟨hrate, hticks, (tells_at_most_in_second hrate hticks true 4 18).1.2 (by decide),
    mt (tells_at_most_in_second hrate hticks true 4 17).2.1 (by decide)⟩

/-- Eighteen samples, 58 milliseconds apart, at a rate of 17 a second. -/
theorem rate_need_not_be_kept :
    let seen := (course 0 58 swing 18).map .ofSample
    ClockAdvances seen ∧ (new 17 true 4).toldWithin seen 0 1000 = 18 ∧
      (new 17 false 4).toldWithin seen 0 1000 = 18 :=
  ⟨clockAdvances_course 0 58 swing 18, by decide +kernel, by decide +kernel⟩

/-! ## Looks at an even beat -/

end ArmLink.Monitor

namespace ArmLink.Watch.Timer

/-- When a timer goes off after so many times, if it always goes off in time. -/
def beat (t : Timer) : ℕ → ℕ
  | 0 => t.due
  | n + 1 => (t.advance t.due).beat n

theorem beat_eq (t : Timer) (n : ℕ) : t.beat n = t.due + n * t.period := by
  induction n generalizing t with
  | zero => simp [beat]
  | succ n ih =>
      have hdue : (t.advance t.due).due = t.due + t.period := by simp [advance]
      have hperiod : (t.advance t.due).period = t.period := rfl
      rw [beat, ih, hdue, hperiod, Nat.succ_mul]
      omega

end ArmLink.Watch.Timer

namespace ArmLink.Monitor

open ArmLink.Record (Sample)
open ArmLink.Watch (Timer)

def taken (t : Timer) (s : ℕ → Sample) (n : ℕ) : List (ℕ × Sample) :=
  (List.range n).map fun i => (t.beat i, s i)

theorem taken_eq (t : Timer) (s : ℕ → Sample) (n : ℕ) :
    taken t s n = course t.due t.period s n := by
  rw [taken, course]
  exact List.map_congr_left fun i _ => by rw [t.beat_eq]

/-- The interval that is made of a period is as long as the period where some rate gives the period,
and a second at most. -/
theorem interval_le_period_iff {period : ℕ} (h : 0 < period) :
    1000 / max (1000 / period) 1 ≤ period ↔ 1000 ≤ period ∨ ∃ rate, period = 1000 / rate := by
  rcases Nat.lt_or_ge period 1000 with hlt | hge
  · have hrate : 1 ≤ 1000 / period := (Nat.one_le_div_iff h).2 hlt.le
    rw [Nat.max_eq_left hrate]
    have hle : period ≤ 1000 / (1000 / period) := by
      rw [Nat.le_div_iff_mul_le hrate]
      exact Nat.mul_div_le 1000 period
    constructor
    · intro hshort
      exact .inr ⟨1000 / period, by omega⟩
    · rintro (hlong | ⟨rate, rfl⟩)
      · omega
      · -- A rate that gives the period is at most the one that the period gives.
        have hpos : 0 < rate := Nat.pos_of_ne_zero (by rintro rfl; simp at h)
        have hge : rate ≤ 1000 / (1000 / rate) := by
          rw [Nat.le_div_iff_mul_le h]
          exact Nat.mul_div_le 1000 rate
        exact Nat.div_le_div_left hge hpos
  · have hsecond : 1000 / max (1000 / period) 1 ≤ 1000 := Nat.div_le_self _ _
    exact ⟨fun _ => .inl hge, fun _ => hsecond.trans hge⟩

theorem interval_le_two_periods {period : ℕ} (h : 0 < period) :
    1000 / max (1000 / period) 1 ≤ period + period := by
  rcases Nat.lt_or_ge period 1000 with hlt | hge
  · have hrate : 1 ≤ 1000 / period := (Nat.one_le_div_iff h).2 hlt.le
    rw [Nat.max_eq_left hrate]
    refine Nat.div_le_of_le_mul ?_
    have hsucc := (Nat.lt_mul_div_succ 1000 h).le
    rw [Nat.mul_add, Nat.mul_one] at hsucc
    have hperiod := Nat.mul_le_mul_left period hrate
    rw [Nat.mul_add, Nat.mul_comm _ period]
    omega
  · have hsecond : 1000 / max (1000 / period) 1 ≤ 1000 := Nat.div_le_self _ _
    omega

/-- Every other one of the first natural numbers, from zero on. -/
def evens (n : ℕ) : List ℕ :=
  (List.range n).filter fun i => i % 2 = 0

theorem evens_succ (n : ℕ) : evens (n + 1) = evens n ++ if n % 2 = 0 then [n] else [] := by
  rw [evens, List.range_succ, List.filter_append]
  congr 1
  split <;> simp [*]

theorem getLast?_evens_succ (n : ℕ) : (evens (n + 1)).getLast? = some (n - n % 2) := by
  induction n with
  | zero => rfl
  | succ n ih =>
      rw [evens_succ]
      split
      · next heven => rw [List.getLast?_concat, heven, Nat.sub_zero]
      · next hodd =>
          rw [List.append_nil, ih]
          congr 1
          omega

section

variable {m : Monitor} (hfresh : m.Remembers none) {t : Timer} {s : ℕ → Sample}

include hfresh

theorem told_taken (hinterval : m.interval ≤ t.period)
    (hmoved : ∀ i, moved (s i) (s (i + 1)) = true) (n : ℕ) :
    samples (m.told ((taken t s n).map .ofSample)) = taken t s n := by
  rw [taken_eq]
  refine told_eq_self hfresh (isChain_course (fun i => ⟨?_, hmoved i⟩) n)
  rw [Nat.succ_mul]
  show t.due + i * t.period + m.interval ≤ _
  omega

/-- A monitor whose interval is longer than the period, but not than two, tells every other sample. -/
theorem told_taken_of_lt (hlt : t.period < m.interval) (hle : m.interval ≤ t.period + t.period)
    (hmoved : ∀ i, moved (s i) (s (i + 2)) = true) (n : ℕ) :
    samples (m.told ((taken t s n).map .ofSample)) =
      (evens n).map fun i => (t.beat i, s i) := by
  induction n with
  | zero => rfl
  | succ n ih =>
      rw [taken, List.range_succ, List.map_append, List.map_append, ← taken, List.map_singleton,
        List.map_singleton, Sighting.ofSample, samples_told_concat, ih, evens_succ, List.map_append]
      congr 1
      have hadmitted := admitted_iff hfresh ((taken t s n).map .ofSample) (t.beat n) (s n)
      rw [ih, List.getLast?_map] at hadmitted
      cases n with
      | zero =>
          have hfirst := hadmitted.2 fun _ _ hnone => by cases hnone
          rw [if_pos hfirst, if_pos rfl, List.map_singleton]
      | succ n =>
          -- The last that was told is the one in front, or the one in front of that.
          rw [getLast?_evens_succ] at hadmitted
          simp only [Option.map_some, Option.some.injEq, Prod.mk.injEq] at hadmitted
          rcases Nat.mod_two_eq_zero_or_one n with heven | hodd
          · rw [if_neg (by omega : ¬ (n + 1) % 2 = 0), if_neg, List.map_nil]
            intro hpass
            have hgap := ((hadmitted.1 hpass) _ _ ⟨rfl, rfl⟩).1
            rw [heven, Nat.sub_zero, t.beat_eq, t.beat_eq, Nat.succ_mul] at hgap
            omega
          · obtain ⟨k, rfl⟩ : ∃ k, n = k + 1 := ⟨n - 1, by omega⟩
            rw [if_pos (by omega : (k + 1 + 1) % 2 = 0), if_pos, List.map_singleton]
            refine hadmitted.2 ?_
            rintro _ _ ⟨rfl, rfl⟩
            rw [hodd, Nat.add_sub_cancel]
            refine ⟨?_, fun _ => hmoved k⟩
            rw [t.beat_eq, t.beat_eq, Nat.succ_mul, Nat.succ_mul]
            omega

end

/-- The monitor of a watch tells every sample that is taken at the beat of its looks, each different
from the one in front, exactly when its period is a second or more or what some rate divides a
second into, without the rest. With any other period it tells every other sample, if these differ.
What it is shown besides makes no difference. -/
theorem every_look_told_iff (arm : Arm) (epoch : Float) (now : ℕ) :
    let m := (Watch.new arm epoch).monitor
    let period := max arm.config.polling.jointState 1
    let t := Timer.start arm.config.polling.jointState now
    ((∀ s, (∀ i, moved (s i) (s (i + 1)) = true) → ∀ n seen, samples seen = taken t s n →
        samples (m.told seen) = taken t s n) ↔
      1000 ≤ period ∨ ∃ rate, period = 1000 / rate) ∧
    (¬ (1000 ≤ period ∨ ∃ rate, period = 1000 / rate) →
      ∀ s, (∀ i, moved (s i) (s (i + 2)) = true) → ∀ n seen, samples seen = taken t s n →
        samples (m.told seen) = (evens n).map fun i => (t.beat i, s i)) := by
  intro m period t
  have hfresh : m.Remembers none := ⟨rfl, rfl⟩
  have hpos : 0 < period := Nat.lt_of_lt_of_le Nat.one_pos (Nat.le_max_right _ _)
  have hiff : m.interval ≤ t.period ↔ _ := interval_le_period_iff hpos
  have htwo : m.interval ≤ t.period + t.period := interval_le_two_periods hpos
  constructor
  · rw [← hiff]
    constructor
    · intro hall
      -- Of two looks both are told, so they are an interval apart.
      have hboth := hall swing moved_swing 2 _ (samples_map _)
      have hclock : ClockAdvances ((taken t swing 2).map .ofSample) := by
        rw [taken_eq]
        exact clockAdvances_course ..
      have hapart := told_apart hfresh hclock
      rw [hboth] at hapart
      have hgap : t.beat 0 + m.interval ≤ t.beat 1 := (List.isChain_cons_cons.1 hapart).1
      rw [t.beat_eq, t.beat_eq, Nat.zero_mul, Nat.one_mul] at hgap
      omega
    · intro hle s hmoved n seen hseen
      rw [samples_told_eq hfresh, hseen]
      exact told_taken hfresh hle hmoved n
  · intro hlong s hmoved n seen hseen
    rw [← hiff, Nat.not_le] at hlong
    rw [samples_told_eq hfresh, hseen]
    exact told_taken_of_lt hfresh hlong htwo hmoved n

/-- An arm whose joints are looked at with this period. -/
def armLookedAt (period : ℕ) : Arm :=
  let config : Config := { Config.forAddress "controller" with
    polling := { Polling.standard with jointState := period } }
  .new config config.unreachable

/-- With a period of 36 milliseconds every other look is lost. -/
theorem every_look_told_iff_thirty_six :
    let m := (Watch.new (armLookedAt 36) 0.0).monitor
    let t := Timer.start 36 0
    let seen := (taken t (fun i => swing (i / 2)) 5).map .ofSample
    ¬ (1000 ≤ 36 ∨ ∃ rate, 36 = 1000 / rate) ∧
      (samples (m.told seen)).map Prod.fst = [0, 72, 144] := by
  intro m t seen
  have hlong : ¬ (1000 ≤ 36 ∨ ∃ rate, 36 = 1000 / rate) := by
    rw [← interval_le_period_iff (by decide)]
    decide
  have hmoved (i : ℕ) : moved (swing (i / 2)) (swing ((i + 2) / 2)) = true := by
    rw [Nat.add_div_right i Nat.two_pos]
    exact moved_swing (i / 2)
  have htold := (every_look_told_iff (armLookedAt 36) 0.0 0).2 hlong _ hmoved 5 seen (samples_map _)
  refine ⟨hlong, ?_⟩
  rw [htold]
  rfl

/-- With a period of 600 milliseconds a sample that differs from the one in front is held back at the
second look. -/
theorem look_can_be_lost :
    let m := (Watch.new (armLookedAt 600) 0.0).monitor
    let looks := taken (Timer.start 600 0) swing 2
    (∀ i, moved (swing i) (swing (i + 1)) = true) ∧ looks = [(0, swing 0), (600, swing 1)] ∧
      samples (m.told (looks.map .ofSample)) = [(0, swing 0)] :=
  ⟨moved_swing, rfl, by decide +kernel⟩

end ArmLink.Monitor
