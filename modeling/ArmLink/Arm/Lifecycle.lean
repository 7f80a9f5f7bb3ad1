import ArmLink.Arm
import ArmLink.Record.Messages

/-!
# Starting and stopping

Activation opens the dashboard and starts the keeper and the reader, and then
waits for their links to come up, for twice the time a connect may take.
Deactivation stops the two and takes all three links down. Stopping a background
worker means to lower its flag, to take its link down, which wakes it, and to wait
until it has ended.

A reader that gave up stays in place until it is stopped, so that starting it
again without that does nothing. Its notice stays until it is taken or another
reader is really started.
-/

namespace ArmLink.Arm

open ArmLink.Telemetry (Reader)

/-- Loads the table of fault messages, if the configuration names one. -/
def configure (read : String → FileContents) (a : Arm) : Except Failure Unit × Arm :=
  match a.config.messages with
  | none => (.ok (), a)
  | some path =>
    match Record.loadMessages path (read path) with
    | .ok messages => (.ok (), { a with messages := some messages })
    | .error failure => (.error failure, a)

def startKeeper (a : Arm) : Arm :=
  if a.keeper.isSome then a else { a with keeping := true, keeper := some .looking }

def stopKeeper (a : Arm) : Arm :=
  let a := { a with keeping := false }.runKeeper
  { a with keeper := none, bench := a.bench.update .motion Link.close }

/-- Starts a reader, unless one is there. A notice that nobody took is dropped. -/
def startReader (a : Arm) : Arm :=
  if a.reader.isSome then a
  else
    { a with
      feed := { a.feed with running := true, status := .disconnected, notice := none }
      reader := some .start }

/-- Shows that no reader is running, unless the last one gave up. -/
def lower (a : Arm) : Arm :=
  if a.isFatal then a else { a with feed := { a.feed with status := .disconnected } }

/-- Stops the reader and takes the realtime link down, before it ends and after. -/
def stopReader (a : Arm) : Arm :=
  let a :=
    { a with
      feed := { a.feed with running := false }
      bench := a.bench.update .realtime Link.close }
  let a := a.runReader
  lower { a with reader := none, bench := a.bench.update .realtime Link.close }

def takeNotice (a : Arm) : Option Failure × Arm :=
  (a.feed.notice, { a with feed := { a.feed with notice := none } })

/-- How often activation looks at the links, in milliseconds. -/
def activationPeriod : Nat := 10

def awaitLinks (deadline : Nat) : Nat → Arm → Except Failure Unit × Arm
  | 0, a => (.error (.connection (.linksDown a.config.address)), a)
  | fuel + 1, a =>
    if a.bench.motion.up && a.bench.realtime.up then (.ok (), a)
    else if a.isFatal || decide (deadline ≤ a.clock) then
      (.error (.connection (.linksDown a.config.address)), a)
    else awaitLinks deadline fuel (a.pass activationPeriod)

/-- Activates the arm. What has been started when it fails stays started. -/
def activate (a : Arm) : Except Failure Unit × Arm :=
  match a.onBench Dashboard.connect with
  | (.error failure, a) => (.error failure, a)
  | (.ok (), a) =>
    let a := a.startKeeper.startReader
    let patience := 2 * a.config.patience.connect
    awaitLinks (a.clock + patience) (patience / activationPeriod + 2) a

def deactivate (a : Arm) : Arm :=
  let a := a.stopReader.stopKeeper
  { a with bench := Dashboard.disconnect a.bench }

end ArmLink.Arm
