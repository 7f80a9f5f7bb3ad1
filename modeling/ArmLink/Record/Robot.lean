import ArmLink.Failure
import ArmLink.Json.Document
import ArmLink.Json.Value
import ArmLink.Robot.Mode
import ArmLink.Robot.Pose

/-!
# Stored modes and poses

A mode is stored under its name, one without a name under its number. Reading
takes a named mode also as the name with nothing attached. A pose is stored as
its six numbers.
-/

namespace ArmLink.Record

open ArmLink.Json (Document Value)
open ArmLink.Robot (Mode Pose)

def ofMode (mode : Mode) : Value :=
  match mode.recordName? with
  | some name => .text name
  | none => .object [("Unknown", .integer mode.raw)]

/-- The mode stored under a name with something attached. -/
def attached? (name : String) (content : Document) : Option Mode :=
  if name = "Unknown" then content.integer?.map .unknown
  else
    match content with
    | .null => Mode.ofRecordName? name
    | _ => none

def mode? (document : Document) : Option Mode :=
  match document with
  | .text _ => do Mode.ofRecordName? (← document.string?)
  | .object _ => do
    match ← document.members? with
    | [(name, content)] => attached? name content
    | _ => none
  | _ => none

def readMode (text : String) : Except Failure Mode :=
  match Document.ofText? text >>= mode? with
  | some mode => .ok mode
  | none => .error .json

def ofPose (pose : Pose) : Value :=
  .object
    [("x", .number pose.x), ("y", .number pose.y), ("z", .number pose.z),
      ("roll", .number pose.roll), ("pitch", .number pose.pitch), ("yaw", .number pose.yaw)]

end ArmLink.Record
