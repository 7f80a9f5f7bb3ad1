import ArmLink.Arm.Lifecycle
import ArmLink.Monitor

/-!
# Watching an arm

A watch keeps an arm active and reports what it sees of it. It looks at four
things, each on its own schedule and in no fixed order: where the joints are, the
mode, the faults, and whether the arm is still well. A look at an arm that is not
well reports nothing; the look at its health activates it anew, and when that
fails the watch rests for a while and looks at nothing.

Faults are asked for only while the mode says that there are some, and they are
cleared as soon as they are known. Only when both went well does the report go
on to the monitor; without that mode the report is that there are none.
-/

namespace ArmLink

open ArmLink.Record (Sample)

/-- What a watch looks at. -/
inductive Look where
  | joints
  | mode
  | faults
  | health
  deriving DecidableEq, Repr

structure Watch where
  arm : Arm
  monitor : Monitor
  /-- The time at which the clock of the arm stood at zero, in seconds. -/
  epoch : Float
  /-- The lines that have been reported. -/
  lines : List String
  /-- When activation is tried again, if it failed. -/
  retry : Option Nat
  deriving DecidableEq, Repr

namespace Watch

/-- A watch over an arm that has not been activated. -/
def new (arm : Arm) (epoch : Float) : Watch :=
  let config := arm.config
  { arm
    monitor := .forPeriod config.polling.jointState config.reporting.changesOnly
      config.reporting.decimals
    epoch
    lines := []
    retry := none }

def time (w : Watch) : Float :=
  w.epoch + Float.ofNat w.arm.clock / 1000.0

def report (w : Watch) (line : String) : Watch :=
  { w with lines := w.lines ++ [line] }

def sample (w : Watch) : Sample :=
  ⟨w.arm.feed.snapshot.armJoints, w.arm.feed.snapshot.pose⟩

def lookAtJoints (w : Watch) : Watch :=
  if w.arm.isWell then
    let (admitted, monitor) := w.monitor.admitSample w.arm.clock w.sample
    let w := { w with monitor }
    if admitted then w.report (monitor.sampleLine w.time w.sample) else w
  else w

/-- Looks at the mode, of which nothing is known before the first frame. -/
def lookAtMode (w : Watch) : Watch :=
  match w.arm.isWell, w.arm.feed.snapshot.mode with
  | true, some mode =>
    let (admitted, monitor) := w.monitor.admitMode mode
    let w := { w with monitor }
    if admitted then w.report (Record.modeLine w.time mode) else w
  | _, _ => w

/-- Reads the faults of an arm and clears them. -/
def readFaults (a : Arm) : Except Failure Fault.Report × Arm :=
  match a.faultReport with
  | (.error failure, a) => (.error failure, a)
  | (.ok report, a) =>
    if report.isEmpty then (.ok report, a)
    else
      let (result, a) := a.onBench
        (Dashboard.Request.clearError.perform a.config.patience.reply)
      (result.map fun _ => report, a)

/-- Hands a fault report to the monitor. -/
def tellFaults (w : Watch) (report : Fault.Report) : Watch :=
  let (admitted, monitor) := w.monitor.admitFaults report
  let w := { w with monitor }
  if admitted then w.report (Record.faultLine w.time report) else w

def lookAtFaults (w : Watch) : Watch :=
  if w.arm.isWell then
    if w.arm.isInMode .error then
      match readFaults w.arm with
      | (.ok report, arm) => { w with arm }.tellFaults report
      | (.error _, arm) => { w with arm }
    else w.tellFaults []
  else w

/-- How long the watch rests after an activation that failed, in milliseconds. -/
def retryDelay : Nat := 5000

/-- Activates the arm; one that cannot be activated is deactivated again. -/
def activate (w : Watch) : Watch :=
  match w.arm.activate with
  | (.ok (), arm) => { w with arm, retry := none }
  | (.error _, arm) => { w with arm := arm.deactivate, retry := some (arm.clock + retryDelay) }

/-- Looks whether the arm is well, and activates it anew if it is not. -/
def lookAtHealth (w : Watch) : Watch :=
  if w.arm.isWell then w
  else { w with arm := w.arm.takeNotice.2.deactivate }.activate

/-- Looks at one thing. A watch that rests looks at nothing. -/
def look (w : Watch) (subject : Look) : Watch :=
  if w.retry.isSome then w
  else
    match subject with
    | .joints => w.lookAtJoints
    | .mode => w.lookAtMode
    | .faults => w.lookAtFaults
    | .health => w.lookAtHealth

def pass (milliseconds : Nat) (w : Watch) : Watch :=
  { w with arm := w.arm.pass milliseconds }

/-- The controller does something on its own account. -/
def suffer (w : Watch) (stimulus : Stimulus) : Watch :=
  { w with arm := { w.arm with bench := w.arm.bench.suffer stimulus } }

inductive Happening where
  | look (subject : Look)
  | pass (milliseconds : Nat)
  | suffer (stimulus : Stimulus)
  deriving DecidableEq, Repr

def happen (w : Watch) : Happening → Watch
  | .look subject => w.look subject
  | .pass milliseconds => w.pass milliseconds
  | .suffer stimulus => w.suffer stimulus

end Watch

end ArmLink
