import ArmLink.Arm

/-!
# Moving and waiting

A straight move is sent only to an arm that is well and enabled, and it is then
followed: ten times a second the latest pose is looked at, until it counts as the
target, or a link is lost, or the controller reports an error, or the time is up.
They are tested in this order, all on what is known at that look.

The looks are numbered, and what happens between one and the next is a function
of the number. Time is compared with the limit as it is at the look: `late` says
whether a look comes a little after its time, as it does wherever time is real.
-/

namespace ArmLink.Arm

open ArmLink.Robot (Pose)

/-- Why a move is not sent. -/
inductive Rejection where
  | notConnected
  | notEnabled
  deriving DecidableEq, Repr

def Rejection.word : Rejection → String
  | .notConnected => "NotConnected"
  | .notEnabled => "NotEnabled"

/-- Why a move that was sent is not followed any longer. -/
inductive Abortion where
  | connectionLost
  | robotError
  | timeout
  deriving DecidableEq, Repr

def Abortion.word : Abortion → String
  | .connectionLost => "ConnectionLost"
  | .robotError => "RobotError"
  | .timeout => "Timeout"

inductive Outcome where
  | reached (pose : Pose)
  | rejected (reason : Rejection)
  | aborted (reason : Abortion) (pose : Pose)
  deriving DecidableEq, Repr

/-- The time between two looks, in milliseconds. -/
def lookPeriod : Nat := 100

def rejection? (a : Arm) : Option Rejection :=
  if !a.isWell then some .notConnected
  else if !a.isInMode .enable then some .notEnabled
  else none

/-- Whether the time of a look is past the limit. -/
def isLate (limit : Nat) (late : Bool) (look : Nat) : Bool :=
  if late then limit ≤ lookPeriod * look else limit < lookPeriod * look

/-- What a look says about the move, if it ends it. -/
def verdict (target : Pose) (limit : Nat) (late : Bool) (look : Nat) (a : Arm) : Option Outcome :=
  let pose := a.feed.snapshot.pose
  if pose.reaches target then some (.reached pose)
  else if !a.isWell then some (.aborted .connectionLost pose)
  else if a.isInMode .error then some (.aborted .robotError pose)
  else if isLate limit late look then some (.aborted .timeout pose)
  else none

/-- Follows a move from a look on. -/
def followFrom (target : Pose) (limit : Nat) (late : Bool) (between : Nat → Arm → Arm) :
    Nat → Nat → Arm → Outcome × Arm
  | 0, _, a => (.aborted .timeout a.feed.snapshot.pose, a)
  | fuel + 1, look, a =>
    match verdict target limit late look a with
    | some outcome => (outcome, a)
    | none => followFrom target limit late between fuel (look + 1) (between look a)

/-- Follows a move to its end. The time is up one look after the limit at the latest. -/
def follow (target : Pose) (limit : Nat) (late : Bool) (between : Nat → Arm → Arm) (a : Arm) :
    Outcome × Arm :=
  followFrom target limit late between (limit / lookPeriod + 2) 0 a

/-- Sends a straight move, unless there is a reason not to. -/
def sendMove (target : Pose) (a : Arm) : Except Failure (Option Rejection) × Arm :=
  match a.rejection? with
  | some reason => (.ok (some reason), a)
  | none =>
    let (result, a) := a.onBench (Motion.Move.movL target).send
    (result.map fun _ => none, a)

/-- Sends a straight move and follows it; `limit` is in milliseconds. -/
def moveAndWait (target : Pose) (limit : Nat) (late : Bool) (between : Nat → Arm → Arm) (a : Arm) :
    Except Failure Outcome × Arm :=
  match a.sendMove target with
  | (.error failure, a) => (.error failure, a)
  | (.ok (some reason), a) => (.ok (.rejected reason), a)
  | (.ok none, a) =>
    let (outcome, a) := a.follow target limit late between
    (.ok outcome, a)

end ArmLink.Arm
