import ArmLink.Dashboard.Exchange
import ArmLink.Fault.Table
import ArmLink.Robot.Mode

/-!
# Requests

Everything that can be asked of the dashboard, each request with the arguments it
takes. A request is turned into a command, which may be refused for its arguments
before anything is sent, and knows how to read the reply.
-/

namespace ArmLink.Dashboard

open ArmLink.Robot (Handedness Index Level Mode Pose degreesToRadians metersToMillimeters)

inductive Request where
  | enableRobot
  | disableRobot
  | clearError
  | resetRobot
  | emergencyStop
  | powerOn
  | speedFactor (ratio : Nat)
  | accJ (ratio : Nat)
  | accL (ratio : Nat)
  | speedJ (ratio : Nat)
  | speedL (ratio : Nat)
  /-- How far paths are blended, in percent; zero turns it off. -/
  | blend (ratio : Nat)
  | user (frame : Index .userFrame)
  | tool (frame : Index .toolFrame)
  | arch (index : Index .arch)
  | setCollisionLevel (level : Index .collisionLevel)
  | payload (weight inertia : Float)
  /-- Sets an output in order with the motion commands. -/
  | digitalOutput (index : Index .digitalOutput) (level : Level)
  /-- Sets an output at once. -/
  | digitalOutputNow (index : Index .digitalOutput) (level : Level)
  | toolOutput (index : Index .toolOutput) (level : Level)
  | toolOutputNow (index : Index .toolOutput) (level : Level)
  | analogOutput (index : Index .analogOutput) (volts : Float)
  | analogOutputNow (index : Index .analogOutput) (volts : Float)
  /-- The greatest lifting height, in meters. -/
  | limitHeight (z : Float)
  | setArmOrientation (handedness : Handedness)
  | setSafeSkin (enabled : Bool)
  | setObstacleAvoid (enabled : Bool)
  | runScript (name : String)
  | stopScript
  | pauseScript
  | continueScript
  | robotMode
  | errorIds
  | angles
  | pose
  | digitalInput (index : Index .digitalInput)
  deriving DecidableEq, Repr

inductive Answer where
  | done
  | mode (mode : Mode)
  | faults (table : Fault.Table)
  | angles (joints : Vector Float 6)
  | pose (pose : Pose)
  | level (level : Level)
  deriving DecidableEq, Repr

/-- A ratio in percent, from `least` on. -/
def ratio (command : String) (least value : Nat) : Except Failure Command :=
  if least ≤ value ∧ value ≤ 100 then .ok ⟨command, [.integer value]⟩
  else .error (.argument (.ratio command least value))

/-- The characters that a script name must not hold. -/
def isSeparator (c : Char) : Bool :=
  c == '(' || c == ')' || c == ',' || c == ';'

/-- The number of a switch. -/
def switch (on : Bool) : Argument := .integer (if on then 1 else 0)

namespace Request

/-- The command of a request, or why its arguments are refused. -/
def command : Request → Except Failure Command
  | enableRobot => .ok (.bare "EnableRobot")
  | disableRobot => .ok (.bare "DisableRobot")
  | clearError => .ok (.bare "ClearError")
  | resetRobot => .ok (.bare "ResetRobot")
  | emergencyStop => .ok (.bare "EmergencyStop")
  | powerOn => .ok (.bare "PowerOn")
  | speedFactor value => ratio "SpeedFactor" 1 value
  | accJ value => ratio "AccJ" 1 value
  | accL value => ratio "AccL" 1 value
  | speedJ value => ratio "SpeedJ" 1 value
  | speedL value => ratio "SpeedL" 1 value
  | blend value => ratio "CP" 0 value
  | user frame => .ok ⟨"User", [.integer frame.value]⟩
  | tool frame => .ok ⟨"Tool", [.integer frame.value]⟩
  | arch index => .ok ⟨"Arch", [.integer index.value]⟩
  | setCollisionLevel level => .ok ⟨"SetCollisionLevel", [.integer level.value]⟩
  | payload weight inertia => .ok ⟨"PayLoad", [.real weight, .real inertia]⟩
  | digitalOutput index level => .ok ⟨"DO", [.integer index.value, .integer level.raw]⟩
  | digitalOutputNow index level => .ok ⟨"DOExecute", [.integer index.value, .integer level.raw]⟩
  | toolOutput index level => .ok ⟨"ToolDO", [.integer index.value, .integer level.raw]⟩
  | toolOutputNow index level => .ok ⟨"ToolDOExecute", [.integer index.value, .integer level.raw]⟩
  | analogOutput index volts => .ok ⟨"AO", [.integer index.value, .real volts]⟩
  | analogOutputNow index volts => .ok ⟨"AOExecute", [.integer index.value, .real volts]⟩
  | limitHeight z =>
    if z.isFinite then
      .ok ⟨"LimZ", [.integer (Decimal.toInt64 (Decimal.roundHalfAway (metersToMillimeters z)))]⟩
    else .error (.argument (.height z))
  | setArmOrientation handedness => .ok ⟨"SetArmOrientation", [.integer handedness.raw]⟩
  | setSafeSkin enabled => .ok ⟨"SetSafeSkin", [switch enabled]⟩
  | setObstacleAvoid enabled => .ok ⟨"SetObstacleAvoid", [switch enabled]⟩
  | runScript name =>
    if name = "" ∨ name.toList.any isSeparator then .error (.argument (.script name))
    else .ok ⟨"RunScript", [.text name]⟩
  | stopScript => .ok (.bare "StopScript")
  | pauseScript => .ok (.bare "PauseScript")
  | continueScript => .ok (.bare "ContinueScript")
  | robotMode => .ok (.bare "RobotMode")
  | errorIds => .ok (.bare "GetErrorID")
  | angles => .ok (.bare "GetAngle")
  | pose => .ok (.bare "GetPose")
  | digitalInput index => .ok ⟨"DI", [.integer index.value]⟩

def readTable (reply : Reply) : Except Failure Fault.Table := do
  reply.reading (Fault.Table.ofLists (← reply.lists))

/-- Reads what a request gives back from its reply. -/
def read (request : Request) (reply : Reply) : Except Failure Answer :=
  match request with
  | robotMode => reply.integer.map fun raw => .mode (.ofRaw raw)
  | errorIds => (readTable reply).map .faults
  | angles => (reply.vector 6).map fun v => .angles (v.map degreesToRadians)
  | pose => (reply.vector 6).map fun v => .pose (.ofController v)
  | digitalInput _ => reply.integer.map fun n => .level (.ofBool (n ≠ 0))
  | _ => .ok .done

/-- Makes a request: its command is sent and its reply read. -/
def perform (limit : Nat) (request : Request) (b : Bench) : Except Failure Answer × Bench :=
  match request.command with
  | .error failure => (.error failure, b)
  | .ok command =>
    match call limit command b with
    | (.ok reply, b) => (request.read reply, b)
    | (.error failure, b) => (.error failure, b)

end Request

def faultTable (limit : Nat) (b : Bench) : Except Failure Fault.Table × Bench :=
  match call limit (.bare "GetErrorID") b with
  | (.ok reply, b) => (Request.readTable reply, b)
  | (.error failure, b) => (.error failure, b)

end ArmLink.Dashboard
