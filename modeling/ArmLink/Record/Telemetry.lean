import ArmLink.Decimal.Fixed
import ArmLink.Fault.Report
import ArmLink.Json.Value
import ArmLink.Robot.Mode
import ArmLink.Robot.Pose

/-!
# Telemetry lines

The daemon reports in lines of JSON, each with the time it was written and the
kind of event. A line about the joints has its numbers in a fixed form, with the
number of decimals that is configured: they are rounded first, a half away from
zero, and then written with exactly that many decimals. The other lines are
written like any other JSON.
-/

namespace ArmLink.Record

open ArmLink.Decimal (fixedChars roundHalfAway)
open ArmLink.Json (Value)
open ArmLink.Robot (Mode Pose)

/-- The power of a number by repeated squaring, rounding at every step. -/
def powerSteps : Nat → Float → Float → Nat → Float
  | 0, _, result, _ => result
  | fuel + 1, base, result, n =>
    let result := if n % 2 = 1 then result * base else result
    if n / 2 = 0 then result else powerSteps fuel (base * base) result (n / 2)

/-- Ten to the number of decimals. A count with its highest bit set is a negative one. -/
def decimalScale (decimals : Nat) : Float :=
  let n := decimals % UInt32.size
  if n < UInt32.size / 2 then powerSteps 32 10.0 1.0 n
  else 1.0 / powerSteps 32 10.0 1.0 (UInt32.size - n)

/-- A number rounded to a number of decimals, a half away from zero. -/
def roundTo (decimals : Nat) (x : Float) : Float :=
  roundHalfAway (x * decimalScale decimals) / decimalScale decimals

/-- Where the arm is: its joints in radians and its tool. -/
structure Sample where
  joints : Vector Float 4
  pose : Pose
  deriving DecidableEq, Repr

namespace Sample

/-- The ten coordinates of a sample, joints first. -/
def coordinates (s : Sample) : List Float :=
  s.joints.toList ++ s.pose.toList

def rounded (decimals : Nat) (s : Sample) : Sample :=
  let r := roundTo decimals
  { joints := s.joints.map r
    pose := ⟨r s.pose.x, r s.pose.y, r s.pose.z, r s.pose.roll, r s.pose.pitch, r s.pose.yaw⟩ }

end Sample

/-- The kind of the lines about the joints. -/
def jointKind : String := "joint_state"

def fixedList (decimals : Nat) (xs : List Float) : List Char :=
  '[' :: [','].intercalate (xs.map (fixedChars decimals)) ++ [']']

/-- The line about a sample that has been rounded. -/
def jointLine (decimals : Nat) (time : Float) (s : Sample) : String :=
  String.ofList
    ("\x7b\"stime\":".toList ++ fixedChars 6 time
      ++ (",\"type\":\"" ++ jointKind ++ "\",\"joint_positions\":").toList
      ++ fixedList decimals s.joints.toList
      ++ ",\"tcp_pose\":".toList ++ fixedList decimals s.pose.toList ++ ['\x7d'])

def modeLine (time : Float) (mode : Mode) : String :=
  Value.render (.object
    [("stime", .number time), ("type", .text "robot_mode"), ("robot_mode", .integer mode.raw),
      ("robot_mode_name", .text mode.name)])

/-- A fault as it is reported; a description that is not known is left out. -/
def ofFault (fault : Fault.Entry) : Value :=
  .object
    ([("joint", .integer fault.joint), ("id", .integer fault.id)]
      ++ (fault.description.map fun text => ("description", Value.text text)).toList)

/-- The line about the active faults. -/
def faultLine (time : Float) (report : Fault.Report) : String :=
  Value.render (.object
    [("stime", .number time), ("type", .text "fault"), ("faults", .array (report.map ofFault))])

end ArmLink.Record
