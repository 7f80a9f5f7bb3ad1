import ArmLink.Dashboard.Request
import ArmLink.Fault.Report
import ArmLink.Motion.Keeper
import ArmLink.Motion.Move
import ArmLink.Telemetry.Reader

/-!
# The arm

The arm as the host sees it: its configuration, the links with the controller
behind them, what has been read of its telemetry, and the two that work in the
background, the reader of telemetry and the keeper of the motion link. There is a
clock, in milliseconds, because those two rest at times.

Time only passes where this library says so. Between two commands the background
works as far as it can at the present time; what it waits for then is either
something from outside or a time on the clock.
-/

namespace ArmLink

open ArmLink.Motion (Keeper)
open ArmLink.Telemetry (Feed Reader)

/-- The links of a configuration when none of them can be opened. -/
def Config.unreachable (config : Config) : Bench :=
  let link (port : Nat) : Link := .unreachable (config.peer port)
  { dashboard := link config.ports.dashboard
    motion := link config.ports.motion
    realtime := link config.ports.realtime
    controller := .silent }

structure Arm where
  config : Config
  /-- The texts of the fault numbers, once they have been loaded. -/
  messages : Option Fault.Messages
  bench : Bench
  feed : Feed
  /-- The reader that was started and not yet stopped. -/
  reader : Option Reader
  /-- Whether a keeper is to run. -/
  keeping : Bool
  /-- The keeper that was started and not yet stopped. -/
  keeper : Option Keeper
  clock : Nat
  deriving DecidableEq, Repr

namespace Arm

def new (config : Config) (bench : Bench) : Arm :=
  { config, messages := none, bench, feed := .blank, reader := none, keeping := false
    keeper := none, clock := 0 }

def stepReader (a : Arm) : Option Arm := do
  let (reader, feed, realtime) ←
    (← a.reader).step a.config.patience a.clock a.feed a.bench.realtime
  return { a with reader := some reader, feed, bench := { a.bench with realtime } }

def stepKeeper (a : Arm) : Option Arm := do
  let (keeper, motion) ← (← a.keeper).step a.config.patience a.clock a.keeping a.bench.motion
  return { a with keeper := some keeper, bench := { a.bench with motion } }

/-- Takes the steps of one kind as long as there are any. -/
def exhaust (step : Arm → Option Arm) : Nat → Arm → Arm
  | 0, a => a
  | fuel + 1, a =>
    match step a with
    | some next => exhaust step fuel next
    | none => a

/-- More steps than the reader can take without a rest. Every round through its phases is at most
sixteen steps; it takes something off the link, or it counts as a failure, of which there are no
more than are borne between two frames. -/
def readerFuel (a : Arm) : Nat :=
  16 * ((a.bench.realtime.load + a.bench.realtime.dials.length + 2)
    * (a.config.patience.trials + 2))

def runReader (a : Arm) : Arm :=
  exhaust stepReader a.readerFuel a

/-- The keeper works as far as it can, which is never further than from one rest to the next. -/
def runKeeper (a : Arm) : Arm :=
  exhaust stepKeeper 16 a

def run (a : Arm) : Arm :=
  a.runReader.runKeeper

def readerWake (a : Arm) : Option Nat :=
  match a.reader with
  | some ⟨_, .resting wake⟩ => some wake
  | _ => none

def keeperWake (a : Arm) : Option Nat :=
  match a.keeper with
  | some (.resting wake) => some wake
  | _ => none

def earlier : Option Nat → Option Nat → Option Nat
  | some s, some t => some (min s t)
  | some s, none => some s
  | none, t => t

/-- The background works up to a time: whenever one of the two wants to go on, the clock is set to
that time, which is taken to be at least the next one. -/
def workUntil (time : Nat) : Nat → Arm → Arm
  | 0, a => a
  | fuel + 1, a =>
    let a := a.run
    match earlier a.readerWake a.keeperWake with
    | some wake =>
      if wake ≤ time ∧ a.clock < time then
        workUntil time fuel { a with clock := max wake (a.clock + 1) }
      else a
    | none => a

def pass (milliseconds : Nat) (a : Arm) : Arm :=
  let time := a.clock + milliseconds
  run { workUntil time (milliseconds + 1) a with clock := time }

/-- Whether the keeper has nothing more to do: it is not running, or its link is up, or every dial
would be refused. -/
def keeperAtRest (a : Arm) : Bool :=
  !a.keeping || a.keeper.isNone || a.bench.motion.up
    || (a.bench.motion.dials.isEmpty && match a.bench.motion.fallback with
      | .refuse _ => true
      | _ => false)

/-- The background works, and time passes for as long as one of the two rests that is not done. -/
def settleFor : Nat → Arm → Arm
  | 0, a => a
  | fuel + 1, a =>
    let a := a.run
    match earlier a.readerWake (if a.keeperAtRest then none else a.keeperWake) with
    | some wake => settleFor fuel { a with clock := max wake (a.clock + 1) }
    | none => a

/-- The background works until it is at rest. Each rest of the reader follows a failed dial, and
each rest of the keeper a failed dial or a good look, so there are no more rests than dials that can
fail. -/
def settle (a : Arm) : Arm :=
  settleFor
    (a.readerFuel + 2 * a.bench.motion.dials.length + 4) a

def isFatal (a : Arm) : Bool :=
  a.feed.status == .fatal

/-- Whether the arm can be worked with: all links are up and the reader has not given up. -/
def isWell (a : Arm) : Bool :=
  a.bench.dashboard.up && a.bench.motion.up && a.bench.realtime.up && !a.isFatal

/-- Whether the last frame reported this mode. -/
def isInMode (mode : Robot.Mode) (a : Arm) : Bool :=
  a.feed.snapshot.mode == some mode

/-- The arm with something done to its bench. -/
def onBench {α : Type} (f : Bench → α × Bench) (a : Arm) : α × Arm :=
  let (result, bench) := f a.bench
  (result, { a with bench })

def describe (a : Arm) (id : Int) : Option String :=
  a.messages.bind fun messages => messages.text? id

def faultReport (a : Arm) : Except Failure Fault.Report × Arm :=
  let (table, next) := a.onBench (Dashboard.faultTable a.config.patience.reply)
  (table.map (Fault.Report.ofTable a.describe), next)

end Arm

end ArmLink
