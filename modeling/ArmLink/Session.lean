import ArmLink.Arm.Follow
import ArmLink.Arm.Lifecycle

/-!
# Sessions

A session is an arm and a list of things that happen to it, one after the other:
what its host asks of it, and what the controller and the network do. After each
of them the background works until it is at rest. A move takes a list of further
things with it, each with the time at which it happens.
-/

namespace ArmLink

open ArmLink.Arm (Outcome)
open ArmLink.Robot (Mode Pose)

inductive Event where
  | arrive (port : Port) (arrival : Arrival)
  /-- It is laid down how one more dial ends. -/
  | expect (port : Port) (dial : Dial)
  /-- It is laid down how all further dials end. -/
  | setFallback (port : Port) (fallback : Fallback)
  /-- One more send will fail. -/
  | failSend (port : Port) (text : String)
  | drop (port : Port)
  | connectDashboard
  | disconnectDashboard
  | request (request : Dashboard.Request)
  | call (command : Command)
  | move (move : Motion.Move)
  /-- A text is sent on the motion port as it is. -/
  | sendMotion (text : String)
  | startKeeper
  | stopKeeper
  | startReader
  | stopReader
  | takeNotice
  | snapshot
  /-- The state of the arm is read, and whether it is in a mode. -/
  | readState (mode : Mode)
  | activate
  | deactivate
  | faultReport
  /-- The texts of the fault numbers are replaced. -/
  | setMessages (table : String)
  | describe (id : Int)
  | address
  /-- What was asked for was refused before it reached the arm. -/
  | refused (failure : Failure)
  deriving Repr

inductive Step where
  | event (event : Event)
  /-- A straight move is sent and followed for a time, and the events happen at theirs. -/
  | moveAndWait (target : Pose) (limit : Nat) (events : List (Nat × Event))
  deriving Repr

/-- What comes of an event. -/
inductive Outturn where
  | done
  | failed (failure : Failure)
  | answer (answer : Dashboard.Answer)
  | reply (reply : Reply)
  | notice (notice : Option Failure)
  | snapshot (snapshot : Telemetry.Snapshot)
  | state (snapshot : Telemetry.Snapshot) (isInMode : Bool)
  | report (report : Fault.Report)
  | text (text : Option String)

namespace Outturn

/-- What comes of something that gives nothing back. -/
def ofUnit : Except Failure Unit → Outturn
  | .ok () => .done
  | .error failure => .failed failure

/-- What comes of something that gives a value back. -/
def of {α : Type} (f : α → Outturn) : Except Failure α → Outturn
  | .ok a => f a
  | .error failure => .failed failure

end Outturn

namespace Arm

/-- An event happens, and the background does not yet take notice. -/
def happen (a : Arm) : Event → Outturn × Arm
  | .arrive port arrival =>
    (.done, { a with bench := a.bench.update port (Link.deliver arrival) })
  | .expect port dial => (.done, { a with bench := a.bench.update port (Link.expect dial) })
  | .setFallback port fallback =>
    (.done, { a with bench := a.bench.update port fun link => { link with fallback } })
  | .failSend port text => (.done, { a with bench := a.bench.update port (Link.failSend text) })
  | .drop port => (.done, { a with bench := a.bench.update port Link.close })
  | .connectDashboard =>
    let (result, a) := a.onBench Dashboard.connect
    (.ofUnit result, a)
  | .disconnectDashboard => (.done, { a with bench := Dashboard.disconnect a.bench })
  | .request request =>
    let (result, a) := a.onBench (request.perform a.config.patience.reply)
    (.of .answer result, a)
  | .call command =>
    let (result, a) := a.onBench (Dashboard.call a.config.patience.reply command)
    (.of .reply result, a)
  | .move move =>
    let (result, a) := a.onBench move.send
    (.ofUnit result, a)
  | .sendMotion text =>
    let (result, a) := a.onBench (Bench.sendMotion text)
    (.ofUnit result, a)
  | .startKeeper => (.done, a.startKeeper)
  | .stopKeeper => (.done, a.stopKeeper)
  | .startReader => (.done, a.startReader)
  | .stopReader => (.done, a.stopReader)
  | .takeNotice =>
    let (notice, a) := a.takeNotice
    (.notice notice, a)
  | .snapshot => (.snapshot a.feed.snapshot, a)
  | .readState mode => (.state a.feed.snapshot (a.isInMode mode), a)
  | .activate =>
    let (result, a) := a.activate
    (.ofUnit result, a)
  | .deactivate => (.done, a.deactivate)
  | .faultReport =>
    let (result, a) := a.faultReport
    (.of .report result, a)
  | .setMessages table =>
    match Record.readMessages table with
    | .ok messages => (.done, { a with messages := some messages })
    | .error failure => (.failed failure, a)
  | .describe id => (.text (a.describe id), a)
  | .address => (.text (some a.config.address), a)
  | .refused failure => (.failed failure, a)

/-- An event happens, and the background works until it is at rest. -/
def undergo (a : Arm) (event : Event) : Outturn × Arm :=
  let (outturn, a) := a.happen event
  (outturn, a.settle)

def undergoAll (a : Arm) : List Event → List Outturn × Arm
  | [] => ([], a)
  | event :: rest =>
    let (outturn, a) := a.undergo event
    let (outturns, a) := a.undergoAll rest
    (outturn :: outturns, a)

end Arm

/-- Events with the times at which they can happen, given the time they cannot come before: none
happens before the one in front of it. -/
def inOrder (time : Nat) : List (Nat × Event) → List (Nat × Event)
  | [] => []
  | (moment, event) :: rest => (max time moment, event) :: inOrder (max time moment) rest

/-- The events between a look at a move and the next look. -/
def eventsAfter (look : Nat) (events : List (Nat × Event)) : List Event :=
  (events.filter fun (moment, _) =>
    Arm.lookPeriod * look ≤ moment ∧ moment < Arm.lookPeriod * (look + 1)).map Prod.snd

/-- What a step of a session gives back. -/
inductive Report where
  | outturn (outturn : Outturn)
  | moved (outcome : Except Failure Outcome) (events : List Outturn)

namespace Arm

/-- A step of a session is taken. Looking at a move changes nothing, so the events of a move can be
followed once for the looks and once for what comes of them. -/
def take (a : Arm) : Step → Report × Arm
  | .event event =>
    let (outturn, a) := a.undergo event
    (.outturn outturn, a)
  | .moveAndWait target limit events =>
    let events := inOrder 0 events
    let between look a := (undergoAll a (eventsAfter look events)).2
    let (outcome, _) := a.moveAndWait target limit false between
    let (_, sent) := a.sendMove target
    let (outturns, a) := sent.undergoAll (events.map Prod.snd)
    (.moved outcome outturns, a.settle)

/-- The steps of a session are taken; for each, what it gives back and the arm behind it. -/
def takeAll (a : Arm) : List Step → List (Report × Arm)
  | [] => []
  | step :: rest =>
    let (report, a) := a.take step
    (report, a) :: a.takeAll rest

end Arm

end ArmLink
