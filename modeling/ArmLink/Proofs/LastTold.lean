import Mathlib.Data.List.Destutter
import ArmLink.Monitor

/-!
# What was told last is what was seen last

Whoever reads the lines of a daemon knows of the mode and of the faults only what
the last line of each kind said. A monitor may hold something back because it is
no news, so the reader is right only if what the monitor remembers is what it has
last let through, and that is a matter of the whole history.

The two kinds differ in where the reader begins. Of the mode nothing is known at
first, so the first one is always told. Without any line about faults there are
none, so a first report that finds none is remembered and not told; that is the one
place where the memory of a monitor and its lines part, and to a reader they say
the same. `Tracks` says this of one step for both kinds, and the two run lemmas
are by induction on what is seen, with the reader's knowledge left free.
-/

namespace ArmLink.Monitor

open ArmLink.Record (Sample)
open ArmLink.Robot (Mode)

/-- Something a monitor is shown, to decide whether it is to be reported. -/
inductive Sighting where
  | sample (now : Nat) (sample : Sample)
  | mode (mode : Mode)
  | faults (report : Fault.Report)
  deriving DecidableEq, Repr

namespace Sighting

def mode? : Sighting → Option Mode
  | .mode m => some m
  | _ => none

/-- The joint and number of every fault of a report. -/
def faults? : Sighting → Option (List (Nat × Int))
  | .faults report => some (Fault.Report.ids report)
  | _ => none

end Sighting

/-- The modes among some sightings, in order. -/
def modes (seen : List Sighting) : List Mode :=
  seen.filterMap Sighting.mode?

/-- The lists of faults among some sightings, in order. -/
def faultLists (seen : List Sighting) : List (List (Nat × Int)) :=
  seen.filterMap Sighting.faults?

/-- Shows a monitor something: whether it lets it through, and the monitor behind it. -/
def judge (m : Monitor) : Sighting → Bool × Monitor
  | .sample now sample => m.admitSample now sample
  | .mode mode => m.admitMode mode
  | .faults report => m.admitFaults report

/-- What a monitor lets through of what it is shown, in order. -/
def told (m : Monitor) : List Sighting → List Sighting
  | [] => []
  | sighting :: rest =>
    (if (m.judge sighting).1 then [sighting] else []) ++ (m.judge sighting).2.told rest

/-- The faults as a reader of the lines knows them: none before the first line. -/
def knownFaults (m : Monitor) : List (Nat × Int) :=
  m.faults.getD []

/-! ## One sighting -/

theorem changesOnly_judge (m : Monitor) (sighting : Sighting) :
    (m.judge sighting).2.changesOnly = m.changesOnly := by
  cases sighting with
  | sample now sample =>
      rw [judge, admitSample]
      split <;> rfl
  | mode mode =>
      rw [judge, admitMode]
      split <;> rfl
  | faults report =>
      rw [judge, admitFaults]
      split
      · split <;> rfl
      · rfl

/-- A sample is not about the mode, nor about faults. -/
theorem admitSample_keeps (m : Monitor) (now : Nat) (s : Sample) :
    (m.admitSample now s).2.mode = m.mode ∧ (m.admitSample now s).2.faults = m.faults := by
  rw [admitSample]
  split <;> exact ⟨rfl, rfl⟩

theorem admitMode_keeps (m : Monitor) (mode : Mode) :
    (m.admitMode mode).2.faults = m.faults := by
  rw [admitMode]
  split <;> rfl

theorem admitFaults_keeps (m : Monitor) (report : Fault.Report) :
    (m.admitFaults report).2.mode = m.mode := by
  rw [admitFaults]
  split
  · split <;> rfl
  · rfl

/-- A report of faults is known afterwards whether it is told or not. -/
theorem knownFaults_admitFaults (m : Monitor) (report : Fault.Report) :
    (m.admitFaults report).2.knownFaults = Fault.Report.ids report := by
  rw [admitFaults]
  cases hfaults : m.faults with
  | none => rfl
  | some last =>
      simp only
      split
      · next hsame =>
          obtain ⟨-, heq⟩ := Bool.and_eq_true_iff.1 hsame
          rw [knownFaults, hfaults]
          exact eq_of_beq heq
      · rfl

/-- A report of faults that was known already may be told again, but only where not just changes
are. -/
theorem admitFaults_iff (m : Monitor) (report : Fault.Report) :
    (m.knownFaults ≠ Fault.Report.ids report → (m.admitFaults report).1 = true) ∧
      (m.changesOnly = true → m.knownFaults = Fault.Report.ids report →
        (m.admitFaults report).1 = false) := by
  rw [admitFaults, knownFaults]
  cases m.faults with
  | none =>
      show ([] ≠ Fault.Report.ids report → _) ∧ (_ → [] = Fault.Report.ids report → _)
      cases Fault.Report.ids report with
      | nil => exact ⟨fun hne => absurd rfl hne, fun _ _ => rfl⟩
      | cons fault rest => exact ⟨fun _ => rfl, fun _ heq => nomatch heq⟩
  | some last =>
      simp only [Option.getD_some]
      split
      · next hsame =>
          obtain ⟨-, heq⟩ := Bool.and_eq_true_iff.1 hsame
          exact ⟨fun hne => absurd (eq_of_beq heq) hne, fun _ _ => rfl⟩
      · next hother => exact ⟨fun _ => rfl, fun hchanges heq => by simp [hchanges, heq] at hother⟩

/-- What a reader knows of one kind of sighting: `view` is what a sighting says of it, `known` what
has been told of it by a monitor in this state. -/
structure Tracks {β : Type} (view : Sighting → Option β) (known : Monitor → β) : Prop where
  other : ∀ (m : Monitor) (s : Sighting), view s = none → known (m.judge s).2 = known m
  same : ∀ (m : Monitor) (s : Sighting) b, view s = some b → known (m.judge s).2 = b
  news : ∀ (m : Monitor) (s : Sighting) b, view s = some b → known m ≠ b → (m.judge s).1 = true
  noNews : ∀ (m : Monitor) (s : Sighting) b, view s = some b → m.changesOnly = true →
    known m = b → (m.judge s).1 = false

theorem tracks_mode : Tracks (fun s => s.mode?.map some) Monitor.mode where
  other m s h := by
    cases s with
    | sample now s => exact (m.admitSample_keeps now s).1
    | mode mode => cases h
    | faults report => exact m.admitFaults_keeps report
  same m s b h := by
    cases s with
    | sample | faults => cases h
    | mode mode =>
        obtain rfl := Option.some.inj h
        rw [judge, admitMode]
        split
        · next hsame => exact eq_of_beq (Bool.and_eq_true_iff.1 hsame).2
        · rfl
  news m s b h hne := by
    cases s with
    | sample | faults => cases h
    | mode mode =>
        obtain rfl := Option.some.inj h
        rw [judge, admitMode, if_neg]
        intro hsame
        exact hne (eq_of_beq (Bool.and_eq_true_iff.1 hsame).2)
  noNews m s b h hchanges heq := by
    cases s with
    | sample | faults => cases h
    | mode mode =>
        obtain rfl := Option.some.inj h
        rw [judge, admitMode, if_pos]
        simp [hchanges, heq]

theorem tracks_faults : Tracks Sighting.faults? knownFaults where
  other m s h := by
    cases s with
    | sample now s => exact congrArg (Option.getD · []) (m.admitSample_keeps now s).2
    | mode mode => exact congrArg (Option.getD · []) (m.admitMode_keeps mode)
    | faults report => cases h
  same m s b h := by
    cases s with
    | sample | mode => cases h
    | faults report =>
        obtain rfl := Option.some.inj h
        exact m.knownFaults_admitFaults report
  news m s b h hne := by
    cases s with
    | sample | mode => cases h
    | faults report =>
        obtain rfl := Option.some.inj h
        exact (m.admitFaults_iff report).1 hne
  noNews m s b h hchanges heq := by
    cases s with
    | sample | mode => cases h
    | faults report =>
        obtain rfl := Option.some.inj h
        exact (m.admitFaults_iff report).2 hchanges heq

/-! ## Any number of sightings -/

section

variable {β : Type} {view : Sighting → Option β} {known : Monitor → β}

theorem filterMap_told_cons (view : Sighting → Option β) (m : Monitor) (s : Sighting)
    (rest : List Sighting) :
    (m.told (s :: rest)).filterMap view =
      (if (m.judge s).1 then (view s).toList else []) ++
        ((m.judge s).2.told rest).filterMap view := by
  rw [told, List.filterMap_append]
  split
  · cases hview : view s <;> simp [hview]
  · rfl

/-- The last that was told is the last that was seen, if one begins with what is known. -/
theorem Tracks.getLastD_told (h : Tracks view known) (m : Monitor) (seen : List Sighting) :
    ((m.told seen).filterMap view).getLastD (known m) =
      (seen.filterMap view).getLastD (known m) := by
  induction seen generalizing m with
  | nil => rfl
  | cons s rest ih =>
      have hrest := ih (m.judge s).2
      rw [filterMap_told_cons]
      cases hview : view s with
      | none =>
          -- A sighting of another kind changes nothing, told or not.
          rw [h.other m s hview] at hrest
          rw [List.filterMap_cons_none hview, Option.toList_none, ite_self, List.nil_append]
          exact hrest
      | some b =>
          rw [h.same m s b hview] at hrest
          rw [List.filterMap_cons_some hview, List.getLastD_cons, ← hrest]
          split
          · exact List.getLastD_cons ..
          · next hheld =>
              have hknown : known m = b := by
                by_contra hnews
                exact hheld (h.news m s b hview hnews)
              rw [hknown]
              rfl

/-- Where only changes are told, what is told is what was seen, once for each change. -/
theorem Tracks.destutter_told [DecidableEq β] (h : Tracks view known) (m : Monitor)
    (hchanges : m.changesOnly = true) (seen : List Sighting) :
    known m :: (m.told seen).filterMap view =
      (seen.filterMap view).destutter' (· ≠ ·) (known m) := by
  induction seen generalizing m with
  | nil => rfl
  | cons s rest ih =>
      have hrest := ih (m.judge s).2 ((m.changesOnly_judge s).trans hchanges)
      rw [filterMap_told_cons]
      cases hview : view s with
      | none =>
          rw [h.other m s hview] at hrest
          rw [List.filterMap_cons_none hview, Option.toList_none, ite_self, List.nil_append]
          exact hrest
      | some b =>
          rw [h.same m s b hview] at hrest
          rw [List.filterMap_cons_some hview]
          by_cases hknown : known m = b
          · rw [h.noNews m s b hview hchanges hknown, List.destutter'_cons_neg _ (not_not.2 hknown),
              hknown]
            exact hrest
          · rw [h.news m s b hview hknown, List.destutter'_cons_pos _ hknown, ← hrest]
            rfl

end

/-! ## From the first sighting on -/

/-- At every moment the mode told last is the mode seen last, and the faults told last are the
faults seen last, where a reader who was told nothing takes it that there are none. Where only
changes are told, the modes told are the modes seen without those that repeat the one in front,
and likewise the faults, in front of which stands that there are none. -/
theorem last_told_is_last_seen (rate decimals : Nat) (seen : List Sighting) :
    (∀ changesOnly,
      let told := (new rate changesOnly decimals).told seen
      (modes told).getLast? = (modes seen).getLast? ∧
        (faultLists told).getLastD [] = (faultLists seen).getLastD []) ∧
    let told := (new rate true decimals).told seen
    modes told = (modes seen).destutter (· ≠ ·) ∧
      [] :: faultLists told = ([] :: faultLists seen).destutter (· ≠ ·) := by
  have hmap (xs : List Sighting) :
      xs.filterMap (fun s => s.mode?.map some) = (modes xs).map some :=
    (List.map_filterMap ..).symm
  have hsome (xs : List Mode) : (xs.map some).getLastD none = xs.getLast? := by
    rw [List.getLastD_eq_getLast?, List.getLast?_map]
    cases xs.getLast? <;> rfl
  refine ⟨fun changesOnly => ⟨?_, ?_⟩, ?_, ?_⟩
  · have hlast := tracks_mode.getLastD_told (new rate changesOnly decimals) seen
    rw [hmap, hmap] at hlast
    rw [← hsome, ← hsome]
    exact hlast
  · exact tracks_faults.getLastD_told (new rate changesOnly decimals) seen
  · have hruns := tracks_mode.destutter_told (new rate true decimals) rfl seen
    rw [hmap, hmap] at hruns
    -- The first mode differs from knowing none, so it is told as the first of a list is kept.
    cases hseen : modes seen with
    | nil =>
        rw [hseen] at hruns
        exact List.map_eq_nil_iff.1 (List.cons.inj hruns).2
    | cons mode rest =>
        have hinjective : Function.Injective (some : Mode → Option Mode) :=
          fun _ _ => Option.some.inj
        have hnews : (new rate true decimals).mode ≠ some mode := nofun
        rw [hseen, List.map_cons, List.destutter'_cons_pos _ hnews, ← List.destutter_cons',
          ← List.map_cons, ← List.map_destutter_ne _ hinjective] at hruns
        exact List.map_injective_iff.2 hinjective (List.cons.inj hruns).2
  · exact tracks_faults.destutter_told (new rate true decimals) rfl seen

example :
    faultLists ((new 10 true 4).told
      [.faults [], .faults [⟨1, 69, none⟩], .faults [⟨1, 69, none⟩], .faults []]) =
      [[(1, 69)], []] := by
  decide

end ArmLink.Monitor
