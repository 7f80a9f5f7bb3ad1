import ArmLink.Robot.Mode
import ArmLink.Robot.Pose
import ArmLink.Telemetry.Frame

/-!
# Snapshots

A snapshot is the latest frame in the units of the host. There is one, it is
replaced as a whole, and before the first frame it reports zeros and no mode.
-/

namespace ArmLink.Telemetry

open ArmLink.Robot (Mode Pose degreesToRadians)

/-- The state of the arm as last reported. -/
structure Snapshot where
  /-- All six joint values in radians. -/
  joints : Vector Float 6
  pose : Pose
  quaternion : Robot.Quaternion Float
  /-- Absent before the first frame. -/
  mode : Option Mode
  digitalInputs : UInt64
  digitalOutputs : UInt64
  enabled : Bool
  error : Bool
  timestamp : UInt64
  deriving DecidableEq, Repr

namespace Snapshot

/-- What is reported before the first frame. -/
def blank : Snapshot :=
  { joints := Vector.replicate 6 0.0
    pose := .origin
    quaternion := ⟨0.0, 0.0, 0.0, 0.0⟩
    mode := none
    digitalInputs := 0
    digitalOutputs := 0
    enabled := false
    error := false
    timestamp := 0 }

/-- The snapshot of a frame. The mode word is read as a signed number. -/
def ofFrame (f : Frame) : Snapshot :=
  let q := f.quaternion.map Float.ofBits
  { joints := f.joints.map fun w => degreesToRadians (Float.ofBits w)
    pose := .ofController (f.tool.map Float.ofBits)
    quaternion := ⟨q[0], q[1], q[2], q[3]⟩
    mode := some (.ofRaw f.mode.toInt64.toInt)
    digitalInputs := f.digitalInputs
    digitalOutputs := f.digitalOutputs
    enabled := f.enabled != 0
    error := f.error != 0
    timestamp := f.timestamp }

/-- The joints that the arm has, in radians. -/
def armJoints (s : Snapshot) : Vector Float 4 :=
  s.joints.take 4

/-- The snapshot after a block of bytes has been taken in, and whether it was a frame. -/
def take (s : Snapshot) (bytes : List UInt8) : Snapshot × Bool :=
  match decode bytes with
  | .frame f => (ofFrame f, true)
  | .discarded _ => (s, false)

end Snapshot

end ArmLink.Telemetry
