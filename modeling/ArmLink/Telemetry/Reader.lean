import ArmLink.Config
import ArmLink.Link
import ArmLink.Telemetry.Snapshot

/-!
# Reading telemetry

A reader runs beside the commands and owns the realtime link. It dials, gathers
bytes into blocks of the size of a frame, and publishes each frame as the new
snapshot. A dial that fails, a receive that finds nothing at all and a receive
that fails each count as one failure, and only a frame sets the count back. When
as many failures as are borne have come, the reader gives up: it takes the link
down, says so in its state, leaves one notice and ends.

A block that is cut short means that the frames no longer begin where blocks
begin. The link is then taken down and dialed again, which is no failure.

A reader is told to stop by a flag. It sees it when it begins anew, and when a
receive fails, since a failure that the stop itself caused must not count.

Its steps are the smallest that others could come between: one look at the flag,
one use of the link, one change of what is shared.
-/

namespace ArmLink.Telemetry

/-- How far a reader has come, as others see it. -/
inductive Status where
  | disconnected
  | connecting
  | streaming
  | fatal
  deriving DecidableEq, Repr

def Status.name : Status → String
  | .disconnected => "Disconnected"
  | .connecting => "Connecting"
  | .streaming => "Streaming"
  | .fatal => "Fatal"

/-- What a reader shares with others. -/
structure Feed where
  /-- Whether a reader is to run. -/
  running : Bool
  status : Status
  snapshot : Snapshot
  /-- The notice of a reader that gave up, until it is taken. There is room for one. -/
  notice : Option Failure
  deriving DecidableEq, Repr

/-- What is shared before the first reader. -/
def Feed.blank : Feed := ⟨false, .disconnected, .blank, none⟩

/-- Where a reader stands. -/
inductive Phase where
  /-- It is to look whether it shall go on and whether it has to give up. -/
  | looking
  /-- It gives up and is to take the link down. -/
  | yielding
  /-- It is to show that it gave up. -/
  | marking
  /-- It is to leave its notice. -/
  | posting
  /-- It is to look whether the link is up. -/
  | probing
  /-- It is to show that it dials. -/
  | announcing
  | dialing
  /-- It waits for its dial to be answered; the link had been taken down so many times before. -/
  | hanging (cuts : Nat)
  /-- Its dial failed, and it is to show that. -/
  | refused
  /-- It rests until a time. -/
  | resting (wake : Nat)
  /-- Its dial succeeded, and it is to show that. -/
  | connected
  /-- It gathers a block and has these bytes. -/
  | gathering (got : List UInt8)
  /-- It is to take in a block. -/
  | taking (block : List UInt8)
  /-- A receive failed, and it is to look whether it was told to stop. -/
  | failing
  /-- It is to take the link down. -/
  | cutting
  /-- It is to show that the link is down. -/
  | lowering
  | finished
  deriving DecidableEq, Repr

structure Reader where
  /-- How many failures have come since the start or the last frame. -/
  failures : Nat
  phase : Phase
  deriving DecidableEq, Repr

namespace Reader

/-- A reader that is about to begin. -/
def start : Reader := ⟨0, .looking⟩

/-- The reader in another phase. -/
def go (r : Reader) (phase : Phase) : Reader := { r with phase }

/-- The reader in another phase with one more failure. -/
def fail (r : Reader) (phase : Phase) : Reader := ⟨r.failures + 1, phase⟩

/-- Where a dial leads. -/
def dialed (r : Reader) : Dialed → Phase → Reader
  | .connected, _ => r.go .connected
  | .failed _, _ => r.fail .refused
  | .waiting, phase => r.go phase

/-- Where silence leads while a block is being gathered. -/
def hushed (r : Reader) (got : List UInt8) : Reader :=
  if got = [] then r.fail .cutting else r.go (.taking got)

/-- Where a block leads that has been taken in. -/
def took (r : Reader) (block : List UInt8) (isFrame : Bool) : Reader :=
  if block.length = frameSize then ⟨if isFrame then 0 else r.failures, .looking⟩
  else r.go .cutting

/-- One step of a reader; `none` when it rests, waits or has finished. -/
def step (patience : Patience) (now : Nat) (r : Reader) (feed : Feed) (link : Link) :
    Option (Reader × Feed × Link) :=
  match r.phase with
  | .looking =>
    let next :=
      if !feed.running then Phase.finished
      else if patience.trials ≤ r.failures then .yielding
      else .probing
    some (r.go next, feed, link)
  | .yielding => some (r.go .marking, feed, link.close)
  | .marking => some (r.go .posting, { feed with status := .fatal }, link)
  | .posting =>
    some (r.go .finished, { feed with notice := feed.notice.or (some (.gaveUp patience.trials)) },
      link)
  | .probing => some (r.go (if link.up then .gathering [] else .announcing), feed, link)
  | .announcing => some (r.go .dialing, { feed with status := .connecting }, link)
  | .dialing =>
    let (result, next) := link.dial
    some (r.dialed result (.hanging link.cuts), feed, next)
  | .hanging cuts =>
    if link.cuts ≠ cuts then some (r.fail .refused, feed, link)
    else
      match link.dial with
      | (.waiting, _) => none
      | (result, next) => some (r.dialed result .looking, feed, next)
  | .refused =>
    some (r.go (.resting (now + patience.retry)), { feed with status := .disconnected }, link)
  | .resting wake => if feed.running && decide (now < wake) then none
    else some (r.go .looking, feed, link)
  | .connected => some (r.go (.gathering []), { feed with status := .streaming }, link)
  | .gathering got =>
    if patience.receive = 0 then some (r.hushed got, feed, link)
    else if frameSize ≤ got.length then some (r.go (.taking got), feed, link)
    else
      match link.receive (frameSize - got.length) with
      | (.data bytes, next) => some (r.go (.gathering (got ++ bytes)), feed, next)
      | (.quiet, next) => some (r.hushed got, feed, next)
      | (.failed _, next) => some (r.go .failing, feed, next)
      | (.waiting, _) => none
  | .taking block =>
    let (snapshot, isFrame) := feed.snapshot.take block
    some (r.took block isFrame, { feed with snapshot }, link)
  | .failing =>
    some (if feed.running then r.fail .cutting else r.go .finished, feed, link)
  | .cutting => some (r.go .lowering, feed, link.close)
  | .lowering => some (r.go .looking, { feed with status := .disconnected }, link)
  | .finished => none

end Reader

end ArmLink.Telemetry
