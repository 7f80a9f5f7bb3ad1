import ArmLink.Watch

/-!
# The schedule of a watch

Each look has a timer of its own. A timer goes off at once when it is started and
then with its period; when it could not go off in time, it goes off as soon as it
can, once for all the times it missed, and keeps to its old beat. When several
timers are due the looks are taken in one order.

The timers are started when the arm has been activated for the first time, and
they go on through later activations.
-/

namespace ArmLink.Watch

structure Timer where
  period : Nat
  /-- When it goes off next. -/
  due : Nat
  period_pos : 0 < period
  deriving DecidableEq, Repr

namespace Timer

/-- A timer that is started at a time. No period is shorter than a millisecond. -/
def start (period now : Nat) : Timer :=
  ⟨max period 1, now, by omega⟩

/-- The timer after it went off: due at the first beat that is still to come. -/
def advance (t : Timer) (now : Nat) : Timer :=
  { t with due := t.due + t.period * ((now - t.due) / t.period + 1) }

end Timer

/-- The timers of a watch, each with its look, in the order in which they are served. -/
abbrev Timers : Type := List (Look × Timer)

namespace Timers

/-- The timers that are started at a time. -/
def start (polling : Polling) (now : Nat) : Timers :=
  [(.joints, .start polling.jointState now), (.mode, .start polling.robotMode now),
    (.faults, .start polling.errorCheck now), (.health, .start polling.interfaceCheck now)]

def due? (timers : Timers) : Option Nat :=
  (timers.map fun (_, timer) => timer.due).min?

end Timers

/-- A watch with its timers, which are absent before the first activation. -/
structure Scheduled where
  watch : Watch
  timers : Option Timers
  deriving DecidableEq, Repr

namespace Scheduled

/-- Starts the timers, if the arm is active and they have not been started. -/
def wind (s : Scheduled) : Scheduled :=
  if s.watch.retry.isNone && s.timers.isNone then
    { s with timers := some (.start s.watch.arm.config.polling s.watch.arm.clock) }
  else s

/-- Activates the arm for the first time. -/
def begin (watch : Watch) : Scheduled :=
  wind ⟨watch.activate, none⟩

/-- When something is to be done next, if ever. -/
def due? (s : Scheduled) : Option Nat :=
  match s.watch.retry with
  | some time => some time
  | none => s.timers.bind Timers.due?

/-- Serves the timers that are due, one after the other. -/
def serve (w : Watch) : Timers → Watch × Timers
  | [] => (w, [])
  | (subject, timer) :: rest =>
    if timer.due ≤ w.arm.clock ∧ w.retry = none then
      let timer := timer.advance w.arm.clock
      let w := (w.look subject).pass 0
      let (w, rest) := serve w rest
      (w, (subject, timer) :: rest)
    else
      let (w, rest) := serve w rest
      (w, (subject, timer) :: rest)

/-- Does what is due at the present time. -/
def act (s : Scheduled) : Scheduled :=
  match s.watch.retry, s.timers with
  | some _, _ => wind { s with watch := s.watch.activate }
  | none, some timers =>
    let (watch, timers) := serve s.watch timers
    { watch, timers := some timers }
  | none, none => s

/-- Time passes up to a time, which may already have come. -/
def passUntil (time : Nat) (s : Scheduled) : Scheduled :=
  { s with watch := s.watch.pass (time - s.watch.arm.clock) }

/-- Works until a time, or until so many lines have been reported. An action that takes no time
leaves nothing that is due, so no two of them begin in the same millisecond. -/
def workFor (wanted deadline : Nat) : Nat → Scheduled → Scheduled
  | 0, s => s
  | fuel + 1, s =>
    if wanted ≤ s.watch.lines.length then s
    else
      match s.due? with
      | some time =>
        if time ≤ deadline then workFor wanted deadline fuel (s.passUntil time).act
        else s.passUntil deadline
      | none => s.passUntil deadline

/-- Works for a number of milliseconds, or until so many lines have been reported. -/
def work (wanted milliseconds : Nat) (s : Scheduled) : Scheduled :=
  workFor wanted (s.watch.arm.clock + milliseconds) (milliseconds + 2) s

def suffer (s : Scheduled) (stimulus : Stimulus) : Scheduled :=
  { s with watch := s.watch.suffer stimulus }

/-- Takes the first lines away. -/
def takeLines (count : Nat) (s : Scheduled) : List String × Scheduled :=
  (s.watch.lines.take count,
    { s with watch := { s.watch with lines := s.watch.lines.drop count } })

/-- The watch is ended: the arm is deactivated. -/
def finish (s : Scheduled) : Watch :=
  { s.watch with arm := s.watch.arm.deactivate }

end Scheduled

end ArmLink.Watch
