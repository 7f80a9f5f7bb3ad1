import ArmLink.Proofs.Shutdown
import ArmLink.Watch.Schedule

/-!
# What a watch lives through

A look of a watch is not one moment. While it is under way the workers go on, frames
come and links are lost, and the controller may answer the second command of a look
in another way than the first. Most looks do not care, because they only read. Two
do: the look at the faults reads the links, reads the mode, asks and clears, and the
look at the health takes an arm down and up again in a dozen steps.

So a `Moment` is finer than a look. `lookAtFaultsAmid` lets anything go on between
the parts of a look at the faults, and `mend` is any sequence of the steps in which
an arm is put down and taken up, with anything in between and however it ends. What
goes on beside is what needs no hand of the host, and the controller may be replaced
by any other at any time. That gives up the order of the looks and the reasons for
mending, so a theorem on all courses covers more than a watch can do. The schedule
is covered in particular: `lives_work` says that what it works through is a course.
-/

namespace ArmLink

open ArmLink.Arm (Leads Stage)

/-- Something that goes on beside a watch. -/
inductive Beside where
  /-- A worker takes a step, time passes, or the other side acts. -/
  | turn (t : Turn)
  /-- The controller reacts in another way from now on. -/
  | mind (controller : Controller)
  deriving Repr

/-- A step in which an arm is put down or taken up, or something beside. -/
inductive Mending where
  | stage (stage : Stage)
  | connect
  | startKeeper
  | startReader
  | beside (other : Beside)
  deriving Repr

namespace Arm

def beside (a : Arm) : Beside → Arm
  | .turn t => if t.isHandsOff then a.turn t else a
  | .mind controller => { a with bench := { a.bench with controller } }

/-- An arm behind what went on beside the watch. -/
def meanwhile (a : Arm) (going : List Beside) : Arm :=
  going.foldl beside a

def mendStep (a : Arm) : Mending → Arm
  | .stage stage => stage.act a
  | .connect => (a.onBench Dashboard.connect).2
  | .startKeeper => a.startKeeper
  | .startReader => a.startReader
  | .beside other => a.beside other

def mend (a : Arm) (steps : List Mending) : Arm :=
  steps.foldl mendStep a

/-- `b` comes from `a` by putting it down and taking it up, and by what goes on beside. -/
def Mends (a b : Arm) : Prop :=
  ∃ steps, a.mend steps = b

section

variable {a b c : Arm}

theorem Mends.trans (hab : Mends a b) (hbc : Mends b c) : Mends a c := by
  obtain ⟨xs, rfl⟩ := hab
  obtain ⟨ys, rfl⟩ := hbc
  exact ⟨xs ++ ys, List.foldl_append ..⟩

theorem mends_step (a : Arm) (step : Mending) : Mends a (a.mendStep step) :=
  ⟨[step], rfl⟩

/-- A turn that needs no hand of the host goes on beside it. -/
theorem beside_turn (a : Arm) {t : Turn} (h : t.isHandsOff = true) :
    a.beside (.turn t) = a.turn t := by
  rw [beside, if_pos h]

theorem Leads.meanwhile (h : Leads Turn.isHandsOff a b) : ∃ going, a.meanwhile going = b := by
  obtain ⟨turns, hturns, rfl⟩ := h
  refine ⟨turns.map .turn, ?_⟩
  induction turns generalizing a with
  | nil => rfl
  | cons t rest ih =>
      have hrest := @ih (a.turn t) fun u hu => hturns u (List.mem_cons_of_mem t hu)
      have hturn := a.beside_turn (hturns t List.mem_cons_self)
      rw [← hturn] at hrest
      rw [List.map_cons]
      exact hrest.trans (congrArg (course · rest) hturn)

theorem mends_meanwhile (a : Arm) (going : List Beside) : Mends a (a.meanwhile going) :=
  ⟨going.map .beside, List.foldl_map ..⟩

theorem Leads.mends (h : Leads Turn.isBackground a b) : Mends a b := by
  obtain ⟨going, rfl⟩ := (h.mono fun _ => Turn.isHandsOff_of_isBackground).meanwhile
  exact a.mends_meanwhile going

theorem mends_stopReader (a : Arm) : Mends a a.stopReader := by
  have hflag := a.mends_step (.stage .lowerReader)
  have hcut := (Stage.lowerReader.act a).mends_step (.stage .cutReader)
  have hruns : Mends _ a.stopping := (leads_runReader (k := Turn.isBackground) rfl _).mends
  have hjoin := a.stopping.mends_step (.stage .joinReader)
  have hagain := (Stage.joinReader.act a.stopping).mends_step (.stage .cutAgain)
  have hshow := (Stage.cutAgain.act (Stage.joinReader.act a.stopping)).mends_step
    (.stage .showReader)
  exact ((((hflag.trans hcut).trans hruns).trans hjoin).trans hagain).trans hshow

theorem mends_stopKeeper (a : Arm) : Mends a a.stopKeeper := by
  have hflag := a.mends_step (.stage .lowerKeeper)
  have hruns : Mends _ a.halting :=
    (leads_exhaust (k := Turn.isBackground) (t := .keep) (fun _ => rfl) rfl 16 _).mends
  have hjoin := a.halting.mends_step (.stage .joinKeeper)
  have hcut := (Stage.joinKeeper.act a.halting).mends_step (.stage .cutMotion)
  exact ((hflag.trans hruns).trans hjoin).trans hcut

theorem mends_deactivate (a : Arm) : Mends a a.deactivate :=
  (a.mends_stopReader.trans a.stopReader.mends_stopKeeper).trans
    (a.stopReader.stopKeeper.mends_step (.stage .cutDashboard))

theorem mends_activate (a : Arm) : Mends a a.activate.2 := by
  have hconnect : Mends a (a.onBench Dashboard.connect).2 := a.mends_step .connect
  rw [activate]
  split
  · next heq =>
      rw [heq] at hconnect
      exact hconnect
  · next b heq =>
      rw [heq] at hconnect
      have hstarts := (b.mends_step .startKeeper).trans (b.startKeeper.mends_step .startReader)
      exact (hconnect.trans hstarts).trans (leads_awaitLinks _ _ _).mends

theorem mends_takeNotice (a : Arm) : Mends a a.takeNotice.2 :=
  a.mends_step (.beside (.turn .take))

end

end Arm

namespace Watch

/-- What goes on between the parts of a look at the faults. -/
structure Interludes where
  /-- Between the look at the links and the look at the mode. -/
  atLinks : List Beside
  /-- Between the look at the mode and the query. -/
  atMode : List Beside
  /-- Between the query and the clearing. -/
  atQuery : List Beside
  deriving Repr

/-- The arm whose mode is looked at. -/
def checking (w : Watch) (i : Interludes) : Arm :=
  w.arm.meanwhile i.atLinks

/-- The arm that is asked for its faults. -/
def querying (w : Watch) (i : Interludes) : Arm :=
  (w.checking i).meanwhile i.atMode

/-- The arm whose faults are cleared. -/
def clearing (w : Watch) (i : Interludes) : Arm :=
  (w.querying i).faultReport.2.meanwhile i.atQuery

/-- What comes of clearing the faults. -/
def cleared (w : Watch) (i : Interludes) : Except Failure Dashboard.Answer × Arm :=
  (w.clearing i).onBench
    (Dashboard.Request.clearError.perform (w.clearing i).config.patience.reply)

/-- A look at the faults with something going on between its parts. -/
def lookAtFaultsAmid (w : Watch) (i : Interludes) : Watch :=
  if w.arm.isWell then
    if (w.checking i).isInMode .error then
      match (w.querying i).faultReport.1 with
      | .error _ => { w with arm := (w.querying i).faultReport.2 }
      | .ok report =>
        if report.isEmpty then { w with arm := (w.querying i).faultReport.2 }.tellFaults report
        else
          match (w.cleared i).1 with
          | .ok _ => { w with arm := (w.cleared i).2 }.tellFaults report
          | .error _ => { w with arm := (w.cleared i).2 }
    else { w with arm := w.checking i }.tellFaults []
  else w

/-- Nothing need go on. -/
theorem lookAtFaultsAmid_nil (w : Watch) : w.lookAtFaultsAmid ⟨[], [], []⟩ = w.lookAtFaults := by
  rw [lookAtFaultsAmid, lookAtFaults]
  split
  · rw [show w.checking ⟨[], [], []⟩ = w.arm from rfl]
    split
    · rw [readFaults, show w.querying ⟨[], [], []⟩ = w.arm from rfl]
      cases hread : w.arm.faultReport with
      | mk result arm =>
          have hclear : w.cleared ⟨[], [], []⟩ = arm.onBench
              (Dashboard.Request.clearError.perform arm.config.patience.reply) := by
            rw [cleared, show w.clearing ⟨[], [], []⟩ = w.arm.faultReport.2 from rfl, hread]
          cases result with
          | error failure => rfl
          | ok report =>
              rw [hclear]
              simp only
              split
              · rfl
              · cases arm.onBench
                  (Dashboard.Request.clearError.perform arm.config.patience.reply) with
                | mk answer arm => cases answer <;> rfl
    · rfl
  · rfl

inductive Moment where
  | joints
  | mode
  | faults (interludes : Interludes)
  /-- The arm is put down and taken up. When it is tried again is told by the second part. -/
  | mend (steps : List Mending) (retry : Option Nat)
  | beside (other : Beside)
  deriving Repr

def live (w : Watch) : Moment → Watch
  | .joints => w.lookAtJoints
  | .mode => w.lookAtMode
  | .faults interludes => w.lookAtFaultsAmid interludes
  | .mend steps retry => { w with arm := w.arm.mend steps, retry }
  | .beside other => { w with arm := w.arm.beside other }

def course (w : Watch) (moments : List Moment) : Watch :=
  moments.foldl live w

/-! ## Looks and schedules are courses -/

/-- A watch has become another through some moments. -/
def Lives (w after : Watch) : Prop :=
  ∃ moments, w.course moments = after

section

variable {w mid after : Watch}

theorem Lives.refl (w : Watch) : w.Lives w :=
  ⟨[], rfl⟩

theorem Lives.trans (hmid : w.Lives mid) (hafter : mid.Lives after) : w.Lives after := by
  obtain ⟨xs, rfl⟩ := hmid
  obtain ⟨ys, rfl⟩ := hafter
  exact ⟨xs ++ ys, List.foldl_append ..⟩

theorem lives_live (w : Watch) (m : Moment) : w.Lives (w.live m) :=
  ⟨[m], rfl⟩

theorem lives_mend (w : Watch) {b : Arm} (h : Arm.Mends w.arm b) (retry : Option Nat) :
    w.Lives { w with arm := b, retry } := by
  obtain ⟨steps, rfl⟩ := h
  exact w.lives_live (.mend steps retry)

theorem lives_meanwhile (w : Watch) (going : List Beside) :
    w.Lives { w with arm := w.arm.meanwhile going } := by
  induction going generalizing w with
  | nil => exact .refl w
  | cons other rest ih => exact (w.lives_live (.beside other)).trans (ih (w.live (.beside other)))

theorem lives_activate (w : Watch) : w.Lives w.activate := by
  have hactivate := w.arm.mends_activate
  rw [activate]
  split
  · next arm heq =>
      rw [heq] at hactivate
      exact w.lives_mend hactivate none
  · next failure arm heq =>
      rw [heq] at hactivate
      exact w.lives_mend (hactivate.trans arm.mends_deactivate) _

theorem lives_lookAtHealth (w : Watch) : w.Lives w.lookAtHealth := by
  rw [lookAtHealth]
  split
  · exact .refl w
  · have hdown := w.arm.mends_takeNotice.trans w.arm.takeNotice.2.mends_deactivate
    exact (w.lives_mend hdown w.retry).trans (lives_activate _)

theorem lives_look (w : Watch) (subject : Look) : w.Lives (w.look subject) := by
  rw [look.eq_def]
  split
  · exact .refl w
  · cases subject with
    | joints => exact w.lives_live .joints
    | mode => exact w.lives_live .mode
    | faults =>
        have hfaults := w.lives_live (.faults ⟨[], [], []⟩)
        rw [live, lookAtFaultsAmid_nil] at hfaults
        exact hfaults
    | health => exact w.lives_lookAtHealth

theorem lives_pass (w : Watch) (milliseconds : Nat) : w.Lives (w.pass milliseconds) := by
  obtain ⟨going, hgoing⟩ := ((Arm.leads_pass milliseconds w.arm).mono fun _ =>
    Turn.isHandsOff_of_isBackground).meanwhile
  rw [pass, ← hgoing]
  exact w.lives_meanwhile going

theorem lives_suffer (w : Watch) (stimulus : Stimulus) : w.Lives (w.suffer stimulus) := by
  cases stimulus with
  | frame bytes => exact w.lives_live (.beside (.turn (.aside (.arrive .realtime (.bytes bytes)))))
  | drop port => exact w.lives_live (.beside (.turn (.aside (.drop port))))
  | refuse port text =>
      exact w.lives_live (.beside (.turn (.aside (.expect port (.refused text)))))

theorem lives_happen (w : Watch) (happening : Happening) : w.Lives (w.happen happening) := by
  cases happening with
  | look subject => exact w.lives_look subject
  | pass milliseconds => exact w.lives_pass milliseconds
  | suffer stimulus => exact w.lives_suffer stimulus

theorem lives_happenings (w : Watch) (happenings : List Happening) :
    w.Lives (happenings.foldl happen w) := by
  induction happenings generalizing w with
  | nil => exact .refl w
  | cons happening rest ih => exact (w.lives_happen happening).trans (ih _)

theorem lives_serve (w : Watch) (timers : Timers) : w.Lives (Scheduled.serve w timers).1 := by
  induction timers generalizing w with
  | nil => exact .refl w
  | cons entry rest ih =>
      obtain ⟨subject, timer⟩ := entry
      simp only [Scheduled.serve]
      split
      · exact ((w.lives_look subject).trans (lives_pass _ 0)).trans (ih _)
      · exact ih w

theorem watch_wind (s : Scheduled) : s.wind.watch = s.watch := by
  rw [Scheduled.wind]
  split <;> rfl

theorem lives_act (s : Scheduled) : s.watch.Lives s.act.watch := by
  rw [Scheduled.act]
  split
  · rw [watch_wind]
    exact s.watch.lives_activate
  · exact s.watch.lives_serve _
  · exact .refl s.watch

/-- The schedule works through a course, from the first activation on. -/
theorem lives_work (s : Scheduled) (wanted milliseconds : Nat) :
    s.watch.Lives (s.work wanted milliseconds).watch := by
  have hworks (deadline fuel : Nat) (s : Scheduled) :
      s.watch.Lives (Scheduled.workFor wanted deadline fuel s).watch := by
    induction fuel generalizing s with
    | zero => exact .refl s.watch
    | succ fuel ih =>
        rw [Scheduled.workFor]
        split
        · exact .refl s.watch
        · split
          · next time _ =>
              split
              · have hpass := s.watch.lives_pass (time - s.watch.arm.clock)
                exact (hpass.trans (lives_act (s.passUntil time))).trans (ih _)
              · exact s.watch.lives_pass _
          · exact s.watch.lives_pass _
  exact hworks _ _ s

end

end Watch

end ArmLink
