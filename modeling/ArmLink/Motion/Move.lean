import ArmLink.Bench
import ArmLink.Command
import ArmLink.Robot.Pose

/-!
# Motion commands

A motion command is sent and not answered. Targets are given in meters and
radians and written in millimeters and degrees; the arm takes a position and a
yaw, or its four joints.
-/

namespace ArmLink.Motion

open ArmLink.Robot (JogAxis Pose metersToMillimeters radiansToDegrees)

inductive Move where
  /-- Any path to a target. -/
  | movJ (target : Pose)
  /-- The straight path to a target. -/
  | movL (target : Pose)
  | relMovJ (offset : Pose)
  | relMovL (offset : Pose)
  /-- The next of a stream of targets. -/
  | servoP (target : Pose)
  | jointMovJ (joints : Vector Float 4)
  | servoJ (joints : Vector Float 4)
  /-- Jogs along an axis, or stops doing so. -/
  | moveJog (axis : Option JogAxis)
  deriving DecidableEq, Repr

/-- A pose as the arm takes it. -/
def cartesian (p : Pose) : List Argument :=
  [.real (metersToMillimeters p.x), .real (metersToMillimeters p.y),
    .real (metersToMillimeters p.z), .real (radiansToDegrees p.yaw)]

/-- Joint angles as the arm takes them. -/
def jointAngles (joints : Vector Float 4) : List Argument :=
  joints.toList.map fun q => .real (radiansToDegrees q)

def Move.command : Move → Command
  | .movJ target => ⟨"MovJ", cartesian target⟩
  | .movL target => ⟨"MovL", cartesian target⟩
  | .relMovJ offset => ⟨"RelMovJ", cartesian offset⟩
  | .relMovL offset => ⟨"RelMovL", cartesian offset⟩
  | .servoP target => ⟨"ServoP", cartesian target⟩
  | .jointMovJ joints => ⟨"JointMovJ", jointAngles joints⟩
  | .servoJ joints => ⟨"ServoJ", jointAngles joints⟩
  | .moveJog (some axis) => ⟨"MoveJog", [.text axis.wireName]⟩
  | .moveJog none => .bare "MoveJog"

/-- Sends a move, unless a number in it is not finite. -/
def Move.send (move : Move) (b : Bench) : Except Failure Unit × Bench :=
  match move.command.check with
  | .error failure => (.error failure, b)
  | .ok () => b.sendMotion move.command.text

end ArmLink.Motion
