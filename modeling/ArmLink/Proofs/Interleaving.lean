import ArmLink.Proofs.LeftAlone
import ArmLink.Proofs.ReaderMoves

/-!
# The arm among its workers

The reader and the keeper run beside whoever uses the arm, and the controller
beside all three. A `Turn` is the smallest thing one of them does that the others
can see, and a `course` is any list of turns in any order, so a theorem about all
courses is a theorem about all interleavings.

The other side may do to the realtime link what it likes, `sway`, but one thing: a
link comes up by being dialed and in no other way. Stopping the reader is in three
turns, because the reader goes on in between: its flag is lowered, its link is
cut, and, when it has ended, it is put away. Whatever else a host asks of an arm
is a turn of its own, `aside`.

`undergo_leads` ties this to sessions: what the arm does in a session, the waits
of an activation and the work of its background included, is a course. Only for a
stop it has to be known that the reader ends, since a session does not wait for
one that does not.
-/

namespace ArmLink

open ArmLink.Telemetry (Feed Phase Reader Sign)

/-- One thing that comes between two others. -/
inductive Turn where
  /-- The reader takes a step, if it can. -/
  | read
  /-- The keeper takes a step, if it can. -/
  | keep
  | pass (milliseconds : Nat)
  /-- The other side does something to the realtime link, but does not bring it up. -/
  | sway (link : Link)
  | cut
  | take
  /-- The host does something else. -/
  | aside (event : Event)
  /-- A reader is started, unless one is there. -/
  | start
  /-- The reader is told to stop. -/
  | lower
  /-- A reader that has ended is put away, and its link is taken down. -/
  | join
  deriving Repr

namespace Turn

/-- Whether the reader is left to run. -/
def upholds : Turn → Bool
  | lower | join => false
  | _ => true

/-- Whether the turn is one of those a session takes by itself. -/
def isBackground : Turn → Bool
  | read | keep | pass _ => true
  | _ => false

end Turn

/-- Whether the event starts a reader, if none is there. -/
def Event.starts : Event → Bool
  | .startReader | .activate => true
  | _ => false

/-- Whether the event stops the reader. -/
def Event.stops : Event → Bool
  | .stopReader | .deactivate => true
  | _ => false

/-- Whether an event can involve the turn. -/
def Turn.isOf (event : Event) : Turn → Bool
  | start => event.starts
  | lower | cut | join => event.stops
  | sway _ => false
  | _ => true

namespace Arm

/-- Whether no reader is there that is still to take steps. -/
def readerEnded (a : Arm) : Bool :=
  match a.reader with
  | some r => decide (r.phase = .finished)
  | none => true

def turn (a : Arm) : Turn → Arm
  | .read => a.stepReader.getD a
  | .keep => a.stepKeeper.getD a
  | .pass milliseconds => { a with clock := a.clock + milliseconds }
  | .sway link =>
    { a with bench := a.bench.update .realtime fun old => { link with up := old.up && link.up } }
  | .cut => { a with bench := a.bench.update .realtime Link.close }
  | .take => a.takeNotice.2
  | .aside event => if event.isAside then (a.happen event).2 else a
  | .start => a.startReader
  | .lower => { a with feed := { a.feed with running := false } }
  | .join =>
    if a.readerEnded then
      lower { a with reader := none, bench := a.bench.update .realtime Link.close }
    else a

def course (a : Arm) (turns : List Turn) : Arm :=
  turns.foldl turn a

/-- What a turn adds to the history, apart from the loss of the link. -/
def deeds (a : Arm) : Turn → List Sign
  | .read =>
    match a.reader with
    | some r => r.signs a.config.patience a.feed a.bench.realtime
    | none => []
  | .start => if a.reader.isSome then [] else [.began]
  | _ => []

/-- What a turn adds to the history. -/
def signs (a : Arm) (t : Turn) : List Sign :=
  a.deeds t ++ if a.bench.realtime.up && !(a.turn t).bench.realtime.up then [.lost] else []

def trail (a : Arm) : List Turn → List Sign
  | [] => []
  | t :: rest => a.signs t ++ (a.turn t).trail rest

theorem course_append (a : Arm) (xs ys : List Turn) :
    a.course (xs ++ ys) = (a.course xs).course ys :=
  List.foldl_append ..

theorem course_concat (a : Arm) (xs : List Turn) (t : Turn) :
    a.course (xs ++ [t]) = (a.course xs).turn t := course_append a xs [t]

theorem trail_append (a : Arm) (xs ys : List Turn) :
    a.trail (xs ++ ys) = a.trail xs ++ (a.course xs).trail ys := by
  induction xs generalizing a with
  | nil => rfl
  | cons t rest ih =>
      rw [List.cons_append, trail, trail, ih, List.append_assoc]
      rfl

theorem trail_concat (a : Arm) (xs : List Turn) (t : Turn) :
    a.trail (xs ++ [t]) = a.trail xs ++ (a.course xs).signs t := by
  rw [trail_append, trail, trail, List.append_nil]

/-! ## Single turns -/

/-- A turn of the reader is one of its moves, or nothing at all. -/
theorem turn_read (a : Arm) :
    (a.stepReader = none ∧ a.turn .read = a ∧ a.deeds .read = []) ∨
      ∃ r r' feed link, a.reader = some r ∧
        Reader.Moves a.config.patience a.clock r a.feed a.bench.realtime (a.deeds .read)
          r' feed link ∧
        a.turn .read = { a with reader := some r', feed, bench := { a.bench with realtime := link } } := by
  cases hr : a.reader with
  | none =>
      have hstuck : a.stepReader = none := by simp [stepReader, hr]
      exact .inl ⟨hstuck, by rw [turn, hstuck]; rfl, by rw [deeds, hr]⟩
  | some r =>
      cases hs : r.step a.config.patience a.clock a.feed a.bench.realtime with
      | none =>
          have hstuck : a.stepReader = none := by simp [stepReader, hr, hs]
          exact .inl ⟨hstuck, by rw [turn, hstuck]; rfl, by
            rw [deeds, hr]
            exact Reader.signs_of_stuck hs⟩
      | some next =>
          obtain ⟨r', feed, link⟩ := next
          refine .inr ⟨r, r', feed, link, rfl, ?_, by simp [turn, stepReader, hr, hs]⟩
          rw [deeds, hr]
          exact Reader.moves_of_step hs

/-- Turns that are neither the reader's nor about it spare it. -/
theorem spares_keep (a : Arm) : a.Spares (a.turn .keep) := by
  cases h : a.stepKeeper with
  | none => simpa [turn, h] using Spares.refl a
  | some b => simpa [turn, h] using spares_stepKeeper h

theorem spares_aside (a : Arm) (event : Event) : a.Spares (a.turn (.aside event)) := by
  simp only [turn]
  split
  · rename_i h
    exact spares_happen a h
  · exact .refl a

theorem startReader_of_some {a : Arm} {r : Reader} (h : a.reader = some r) :
    a.startReader = a := by
  simp [startReader, h]

theorem config_turn (a : Arm) (t : Turn) : (a.turn t).config = a.config := by
  cases t with
  | read =>
      rcases a.turn_read with ⟨-, hturn, -⟩ | ⟨_, _, _, _, _, _, hturn⟩ <;> rw [hturn]
  | keep => exact a.spares_keep.config
  | aside event => exact (a.spares_aside event).config
  | start =>
      show a.startReader.config = a.config
      rw [startReader]
      split <;> rfl
  | join =>
      rw [Arm.turn]
      split
      · rw [lower]
        split <;> rfl
      · rfl
  | pass | sway | cut | take | lower => rfl

theorem config_course (a : Arm) (turns : List Turn) : (a.course turns).config = a.config := by
  induction turns generalizing a with
  | nil => rfl
  | cons t rest ih => exact (ih (a.turn t)).trans (a.config_turn t)

/-! ## Sessions are courses -/

/-- `b` comes from `a` by turns of one kind. -/
def Leads (k : Turn → Bool) (a b : Arm) : Prop :=
  ∃ turns, (∀ t ∈ turns, k t = true) ∧ a.course turns = b

theorem Leads.refl (k : Turn → Bool) (a : Arm) : Leads k a a :=
  ⟨[], by simp, rfl⟩

theorem Leads.trans {k : Turn → Bool} {a b c : Arm} (hab : Leads k a b)
    (hbc : Leads k b c) : Leads k a c := by
  obtain ⟨xs, hxs, rfl⟩ := hab
  obtain ⟨ys, hys, rfl⟩ := hbc
  refine ⟨xs ++ ys, fun t ht => ?_, course_append a xs ys⟩
  rcases List.mem_append.1 ht with h | h
  · exact hxs t h
  · exact hys t h

theorem Leads.mono {k other : Turn → Bool} {a b : Arm}
    (himp : ∀ t, k t = true → other t = true) (h : Leads k a b) : Leads other a b := by
  obtain ⟨turns, hturns, hb⟩ := h
  exact ⟨turns, fun t ht => himp t (hturns t ht), hb⟩

theorem leads_turn {k : Turn → Bool} (a : Arm) {t : Turn} (h : k t = true) :
    Leads k a (a.turn t) :=
  ⟨[t], by simpa using h, rfl⟩

/-- To take the steps of a worker as long as there are any is to give it so many turns. -/
theorem exhaust_eq_course {t : Turn} {step : Arm → Option Arm}
    (hstep : ∀ a : Arm, a.turn t = (step a).getD a) (fuel : Nat) (a : Arm) :
    exhaust step fuel a = a.course (List.replicate fuel t) := by
  induction fuel generalizing a with
  | zero => rfl
  | succ fuel ih =>
      rw [exhaust, List.replicate_succ]
      show _ = (a.turn t).course (List.replicate fuel t)
      rw [hstep, ← ih]
      cases hs : step a with
      | some next => rfl
      | none =>
          show a = exhaust step fuel a
          cases fuel with
          | zero => rfl
          | succ fuel => rw [exhaust, hs]

theorem leads_exhaust {k : Turn → Bool} {t : Turn} {step : Arm → Option Arm}
    (hstep : ∀ a : Arm, a.turn t = (step a).getD a) (ht : k t = true) (fuel : Nat) (a : Arm) :
    Leads k a (exhaust step fuel a) := by
  refine ⟨List.replicate fuel t, fun u hu => ?_, (exhaust_eq_course hstep fuel a).symm⟩
  rw [List.eq_of_mem_replicate hu]
  exact ht

theorem leads_runReader {k : Turn → Bool} (h : k .read = true) (a : Arm) :
    Leads k a a.runReader :=
  leads_exhaust (fun _ => rfl) h _ a

theorem leads_run (a : Arm) : Leads Turn.isBackground a a.run :=
  (leads_runReader rfl a).trans (leads_exhaust (t := .keep) (fun _ => rfl) rfl _ _)

theorem leads_clock {a : Arm} (time : Nat) (h : a.clock ≤ time) :
    Leads Turn.isBackground a { a with clock := time } := by
  refine ⟨[.pass (time - a.clock)], by simp [Turn.isBackground], ?_⟩
  show { a with clock := a.clock + (time - a.clock) } = _
  rw [Nat.add_sub_cancel' h]

theorem clock_stepReader {a b : Arm} (h : a.stepReader = some b) : b.clock = a.clock := by
  obtain ⟨_, _, _, _, -, -, rfl⟩ := stepReader_inv h
  rfl

theorem clock_stepKeeper {a b : Arm} (h : a.stepKeeper = some b) : b.clock = a.clock := by
  obtain ⟨_, _, _, -, -, rfl⟩ := stepKeeper_inv h
  rfl

theorem clock_run (a : Arm) : a.run.clock = a.clock := by
  have hread : a.runReader.clock = a.clock :=
    exhaust_keeps (P := fun b => b.clock = a.clock)
      (fun _ _ h hb => (clock_stepReader h).trans hb) _ rfl
  exact exhaust_keeps (P := fun b => b.clock = a.clock)
    (fun _ _ h hb => (clock_stepKeeper h).trans hb) _ hread

theorem leads_workUntil (time fuel : Nat) {a : Arm} (h : a.clock ≤ time) :
    Leads Turn.isBackground a (workUntil time fuel a) ∧ (workUntil time fuel a).clock ≤ time := by
  induction fuel generalizing a with
  | zero => exact ⟨.refl _ a, h⟩
  | succ fuel ih =>
      have hrun := leads_run a
      have hclock : a.run.clock ≤ time := (clock_run a).symm ▸ h
      simp only [workUntil]
      split
      · rename_i wake _
        split
        · rename_i hwake
          have hset := leads_clock (a := a.run) (max wake (a.run.clock + 1)) (by omega)
          obtain ⟨hrest, hle⟩ := ih (a := { a.run with clock := max wake (a.run.clock + 1) })
            (show max wake (a.run.clock + 1) ≤ time by omega)
          exact ⟨(hrun.trans hset).trans hrest, hle⟩
        · exact ⟨hrun, hclock⟩
      · exact ⟨hrun, hclock⟩

theorem leads_pass (milliseconds : Nat) (a : Arm) :
    Leads Turn.isBackground a (a.pass milliseconds) := by
  obtain ⟨hwork, hle⟩ := leads_workUntil (a.clock + milliseconds) (milliseconds + 1) (a := a)
    (Nat.le_add_right _ _)
  exact (hwork.trans (leads_clock _ hle)).trans (leads_run _)

theorem leads_awaitLinks (deadline fuel : Nat) (a : Arm) :
    Leads Turn.isBackground a (a.awaitLinks deadline fuel).2 := by
  induction fuel generalizing a with
  | zero => exact .refl _ a
  | succ fuel ih =>
      rw [awaitLinks]
      split
      · exact .refl _ a
      · split
        · exact .refl _ a
        · exact (leads_pass _ a).trans (ih _)

theorem leads_settleFor (fuel : Nat) (a : Arm) :
    Leads Turn.isBackground a (settleFor fuel a) := by
  induction fuel generalizing a with
  | zero => exact .refl _ a
  | succ fuel ih =>
      simp only [settleFor]
      split
      · rename_i wake _
        have hset := leads_clock (a := a.run) (max wake (a.run.clock + 1)) (by omega)
        exact ((leads_run a).trans hset).trans (ih _)
      · exact leads_run a

theorem leads_settle (a : Arm) : Leads Turn.isBackground a a.settle :=
  leads_settleFor _ a

/-- The reader's part of a stop, up to where it is waited for. -/
def stopping (a : Arm) : Arm :=
  runReader
    { a with
      feed := { a.feed with running := false }
      bench := a.bench.update .realtime Link.close }

theorem leads_stopReader {k : Turn → Bool} (hread : k .read = true)
    (hlower : k .lower = true) (hcut : k .cut = true) (hjoin : k .join = true) {a : Arm}
    (hended : a.stopping.readerEnded = true) :
    Leads k a a.stopReader := by
  have hflag := leads_turn a hlower
  have hclose := leads_turn (a.turn .lower) hcut
  have hworks : Leads k ((a.turn .lower).turn .cut) a.stopping := leads_runReader hread _
  have hput := leads_turn a.stopping hjoin
  have hturn : a.stopping.turn .join = a.stopReader := by
    rw [turn, if_pos hended]
    rfl
  rw [hturn] at hput
  exact ((hflag.trans hclose).trans hworks).trans hput

theorem background_isOf (event : Event) (t : Turn) (h : t.isBackground = true) :
    t.isOf event = true := by
  cases t <;> first
    | rfl
    | cases h

/-- What happens in an event is a course; a stop ends its reader first. -/
theorem leads_happen (a : Arm) (event : Event)
    (hended : event.stops = true → a.stopping.readerEnded = true) :
    Leads (Turn.isOf event) a (a.happen event).2 := by
  by_cases haside : event.isAside = true
  · refine ⟨[.aside event], by simp [Turn.isOf], ?_⟩
    show a.turn (.aside event) = _
    rw [turn, if_pos haside]
  · cases event with
    | startReader => exact leads_turn a (t := .start) rfl
    | takeNotice => exact leads_turn a (t := .take) rfl
    | stopReader =>
        exact leads_stopReader rfl rfl rfl rfl (hended rfl)
    | activate =>
        have hdial := leads_turn (k := Turn.isOf .activate) a (t := .aside .connectDashboard) rfl
        have hdialed : a.turn (.aside .connectDashboard) = (a.onBench Dashboard.connect).2 := by
          simp only [turn, Event.isAside, if_true, happen]
        rw [hdialed] at hdial
        simp only [happen, activate]
        split
        · rename_i heq
          rw [heq] at hdial
          exact hdial
        · rename_i b heq
          rw [heq] at hdial
          have hkeeper := leads_turn (k := Turn.isOf .activate) b (t := .aside .startKeeper) rfl
          have hreader := leads_turn (k := Turn.isOf .activate) b.startKeeper (t := .start) rfl
          have hwait := (leads_awaitLinks
            (b.startKeeper.startReader.clock + 2 * b.startKeeper.startReader.config.patience.connect)
            (2 * b.startKeeper.startReader.config.patience.connect / activationPeriod + 2)
            b.startKeeper.startReader).mono (background_isOf .activate)
          exact ((hdial.trans hkeeper).trans hreader).trans hwait
    | deactivate =>
        have hstop := leads_stopReader (k := Turn.isOf .deactivate) rfl rfl rfl rfl
          (hended rfl)
        have hkeeper := leads_turn (k := Turn.isOf .deactivate) a.stopReader
          (t := .aside .stopKeeper) rfl
        have hdrop := leads_turn (k := Turn.isOf .deactivate) a.stopReader.stopKeeper
          (t := .aside .disconnectDashboard) rfl
        exact (hstop.trans hkeeper).trans hdrop
    | _ => exact absurd rfl haside

/-- What the arm does in an event of a session is a course. -/
theorem undergo_leads (a : Arm) (event : Event)
    (hended : event.stops = true → a.stopping.readerEnded = true) :
    Leads (Turn.isOf event) a (a.undergo event).2 :=
  (leads_happen a event hended).trans ((leads_settle _).mono (background_isOf event))

end Arm

end ArmLink
