import ArmLink.CommandLine.Ending
import ArmLink.Dashboard.Request

/-!
# Tasks

The command tool does one task a run. Each is called by a name, with operands and
options of its own; the options about the configuration and the form of the
output may stand before the name or behind it, and what stands behind it counts
if both are given.
-/

namespace ArmLink.CommandLine

open ArmLink.Robot (Pose)

/-- The names of the tasks. -/
inductive Verb where
  | enable
  | disable
  | clearError
  | reset
  | emergencyStop
  | mode
  | angle
  | pose
  | errors
  | speedFactor
  | output
  | jog
  | movJ
  | movL
  deriving DecidableEq, Repr

namespace Verb

def all : List Verb :=
  [.enable, .disable, .clearError, .reset, .emergencyStop, .mode, .angle, .pose, .errors,
    .speedFactor, .output, .jog, .movJ, .movL]

def name : Verb → String
  | .enable => "enable"
  | .disable => "disable"
  | .clearError => "clear-error"
  | .reset => "reset"
  | .emergencyStop => "emergency-stop"
  | .mode => "mode"
  | .angle => "angle"
  | .pose => "pose"
  | .errors => "errors"
  | .speedFactor => "speed-factor"
  | .output => "do"
  | .jog => "jog"
  | .movJ => "mov-j"
  | .movL => "mov-l"

def ofName? (text : String) : Option Verb :=
  all.find? fun verb => verb.name = text

def operands : Verb → List Kind
  | .speedFactor | .output => [.byte]
  | .jog => [.text]
  | .movJ | .movL => [.number, .number, .number, .number]
  | _ => []

def flags : Verb → List Flag
  | .output => [⟨"high", none, .switch⟩]
  | .jog => [⟨"duration-ms", none, .setting .count⟩]
  | .movL => [⟨"timeout-secs", none, .setting .count⟩]
  | _ => []

end Verb

inductive Task where
  /-- A request that gives nothing back. -/
  | order (request : Dashboard.Request)
  | mode
  | angle
  | pose
  | errors
  | output (index : Nat) (level : Robot.Level)
  | jog (axis : String) (duration : Nat)
  | movJ (target : Pose)
  /-- Moves straight and waits for the end, for a number of seconds at most. -/
  | movL (target : Pose) (limit : Nat)
  deriving Repr

/-- Reads the count an option gives, which stands for another when it is not given. -/
def countOr? (otherwise : Nat) : Option String → Option Nat
  | some text => count? text
  | none => some otherwise

/-- The target that four operands give. -/
def target? : List String → Option Pose
  | [x, y, z, yaw] => do
    return .planar (← Decimal.readFloat? x) (← Decimal.readFloat? y) (← Decimal.readFloat? z)
      (← Decimal.readFloat? yaw)
  | _ => none

/-- The task of a verb with what was given to it. -/
def Task.of? (verb : Verb) (given : Given) : Option Task :=
  match verb, given.operands with
  | .enable, [] => some (.order .enableRobot)
  | .disable, [] => some (.order .disableRobot)
  | .clearError, [] => some (.order .clearError)
  | .reset, [] => some (.order .resetRobot)
  | .emergencyStop, [] => some (.order .emergencyStop)
  | .mode, [] => some .mode
  | .angle, [] => some .angle
  | .pose, [] => some .pose
  | .errors, [] => some .errors
  | .speedFactor, [ratio] => do return .order (.speedFactor (← byte? ratio))
  | .output, [index] => do return .output (← byte? index) (.ofBool (given.has "high"))
  | .jog, [axis] => do return .jog axis (← countOr? 500 (given.setting? "duration-ms"))
  | .movJ, operands => do return .movJ (← target? operands)
  | .movL, operands => do
    return .movL (← target? operands) (← countOr? 5 (given.setting? "timeout-secs"))
  | _, _ => none

/-- What the tool is called to do. -/
structure Invocation where
  config : Option String
  address : Option String
  json : Bool
  task : Task
  deriving Repr

namespace Invocation

/-- The options that may stand before the name of a task and behind it. -/
def flags : List Flag :=
  [configFlag, addressFlag, ⟨"verbose", some 'v', .switch⟩, ⟨"format", none, .setting .text⟩,
    helpFlag]

/-- What stands before the name of the task. -/
def outerLevel : Level := ⟨flags ++ [versionFlag], [], "help" :: Verb.all.map Verb.name⟩

/-- What stands behind the name of a task. -/
def innerLevel (verb : Verb) : Level := ⟨verb.flags ++ flags, verb.operands, []⟩

/-- Reads what stands behind the word that asks for help: at most the name of a task. -/
def ofHelp : List String → Stop
  | [] => .help
  | [name] => if outerLevel.commands.contains name then .help else .misuse
  | _ => .misuse

/-- The invocation of a verb, from what was given before it and behind it. -/
def ofGiven? (verb : Verb) (outer inner : Given) : Option Invocation := do
  let setting name := (inner.setting? name).or (outer.setting? name)
  return {
    config := setting "config"
    address := setting "ip"
    json := setting "format" == some "json"
    task := ← Task.of? verb inner }

def read (arguments : List String) : Except Stop Invocation := do
  match ← outerLevel.take arguments .nothing with
  | (_, []) => .error .misuse
  | (_, "help" :: rest) => .error (ofHelp rest)
  | (outer, name :: rest) =>
    match Verb.ofName? name with
    | none => .error .misuse
    | some verb =>
      let (inner, _) ← (innerLevel verb).take rest .nothing
      match ofGiven? verb outer inner with
      | some invocation => .ok invocation
      | none => .error .misuse

end Invocation

end ArmLink.CommandLine
