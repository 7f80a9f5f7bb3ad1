import ArmLink.Arm.Follow
import ArmLink.Arm.Lifecycle
import ArmLink.CommandLine.Task
import ArmLink.Record.Robot

/-!
# The command tool

The tool makes one request or one move and prints what came of it. A request only
needs the dashboard and a plain move only the motion link, for which the tool
waits twice the time a connect may take. A straight move needs the whole arm: it
is activated, given a moment to report its mode, moved, and deactivated.

What is printed is either text for a reader or one line of JSON with its members
in the order of their names.
-/

namespace ArmLink.CommandLine

open ArmLink.Decimal (fixedText integerText natText)
open ArmLink.Json (Value)
open ArmLink.Robot (Mode Pose)

/-- What a task came to: the lines it printed, and why it failed if it did. -/
structure Conclusion where
  lines : List String
  complaint : Option Complaint
  deriving DecidableEq, Repr

namespace Conclusion

def printed (lines : List String) : Conclusion := ⟨lines, none⟩

def failed (complaint : Complaint) : Conclusion := ⟨[], some complaint⟩

def of {α : Type} (lines : α → List String) : Except Failure α → Conclusion
  | .ok a => printed (lines a)
  | .error failure => failed (.ofFailure failure)

end Conclusion

/-! ## What is printed -/

def jsonLine (members : List (String × Value)) : List String :=
  [Value.render (.object members)]

def doneLines (json : Bool) (command : String) : List String :=
  if json then jsonLine [("command", .text command), ("status", .text "ok")]
  else [command ++ ": ok"]

def modeLines (json : Bool) (mode : Mode) : List String :=
  if json then
    jsonLine [("robot_mode", .integer mode.raw), ("robot_mode_name", .text mode.name)]
  else [mode.name ++ " (" ++ integerText mode.raw ++ ")"]

def angleLines (json : Bool) (joints : Vector Float 6) : List String :=
  if json then jsonLine [("joint_positions", .numbers joints.toList)]
  else
    joints.toList.zipIdx.map fun (q, i) =>
      "J" ++ natText (i + 1) ++ ": " ++ fixedText 4 q ++ " rad"

/-- A pose, with its members in the order of their names. -/
def poseValue (p : Pose) : Value :=
  .object
    [("pitch", .number p.pitch), ("roll", .number p.roll), ("x", .number p.x), ("y", .number p.y),
      ("yaw", .number p.yaw), ("z", .number p.z)]

def poseLines (json : Bool) (p : Pose) : List String :=
  if json then jsonLine [("pose", poseValue p), ("quaternion", .numbers p.quaternion.toList)]
  else
    let named (name : String) (x : Float) := name ++ "=" ++ fixedText 4 x
    [" ".intercalate
      [named "x" p.x, named "y" p.y, named "z" p.z, named "roll" p.roll, named "pitch" p.pitch,
        named "yaw" p.yaw]]

/-- Numbers in a list for a reader. -/
def numberList (ids : List Int) : String :=
  "[" ++ ", ".intercalate (ids.map integerText) ++ "]"

def faultLines (json : Bool) (table : Fault.Table) : List String :=
  if json then
    jsonLine
      [("error_ids", .array (table.slots.toList.map fun ids => .array (ids.map .integer)))]
  else if table.hasFaults then
    table.faults.map fun (i, ids) => "Joint" ++ natText (i + 1) ++ ": " ++ numberList ids
  else ["No faults"]

def answerLines (json : Bool) (command : String) : Dashboard.Answer → List String
  | .done => doneLines json command
  | .mode mode => modeLines json mode
  | .faults table => faultLines json table
  | .angles joints => angleLines json joints
  | .pose pose => poseLines json pose
  | .level level => [natText level.raw]

/-! ## What is done -/

/-- Opens the dashboard and goes on. -/
def onDashboard (next : Arm → Conclusion × Arm) (a : Arm) : Conclusion × Arm :=
  match a.onBench Dashboard.connect with
  | (.ok (), a) => next a
  | (.error failure, a) =>
    (.failed (.during ("Failed to connect to dashboard at " ++ a.config.address) failure), a)

def makeRequest (json : Bool) (request : Dashboard.Request) (a : Arm) : Conclusion × Arm :=
  match request.command with
  | .error failure => (.failed (.ofFailure failure), a)
  | .ok command =>
    let (result, a) := a.onBench (request.perform a.config.patience.reply)
    (.of (answerLines json command.name) result, a)

/-- How long the tool rests between two looks at a link or at the mode, in milliseconds. -/
def lookPeriod : Nat := 10

/-- Waits for something to become true of the arm, until a time. Tells whether it did. -/
def await (ready : Arm → Bool) (deadline : Nat) : Nat → Arm → Bool × Arm
  | 0, a => (ready a, a)
  | fuel + 1, a =>
    if ready a then (true, a)
    else if deadline ≤ a.clock then (false, a)
    else await ready deadline fuel (a.pass lookPeriod)

/-- Waits for something to become true of the arm, for a number of milliseconds. -/
def awaitFor (ready : Arm → Bool) (limit : Nat) (a : Arm) : Bool × Arm :=
  await ready (a.clock + limit) (limit / lookPeriod + 1) a

/-- Starts the keeper, waits for the motion link and goes on. -/
def onMotion (next : Arm → Conclusion × Arm) (a : Arm) : Conclusion × Arm :=
  match awaitFor (·.bench.motion.up) (2 * a.config.patience.connect) a.startKeeper with
  | (true, a) => next a
  | (false, a) =>
    (.failed ⟨none, "Motion port on " ++ a.config.address ++ " did not accept a connection"⟩, a)

def sendMove (move : Motion.Move) (next : Arm → Conclusion × Arm) (a : Arm) : Conclusion × Arm :=
  match a.onBench move.send with
  | (.ok (), a) => next a
  | (.error failure, a) => (.failed (.ofFailure failure), a)

def finishMove (json : Bool) (command : String) (a : Arm) : Conclusion × Arm :=
  (.printed (doneLines json command), a.stopKeeper)

/-- What the end of a straight move prints. -/
def outcomeConclusion (json : Bool) : Arm.Outcome → Conclusion
  | .reached pose => .printed (poseLines json pose)
  | .rejected reason => .failed ⟨none, "MovL rejected: " ++ reason.word⟩
  | .aborted reason pose => ⟨poseLines json pose, some ⟨none, "MovL aborted: " ++ reason.word⟩⟩

/-- How long a straight move waits for the arm to report its mode, in milliseconds. -/
def modePatience : Nat := 1000

/-- Moves straight with an arm that is active, and deactivates it. -/
def moveActive (json : Bool) (target : Pose) (limit : Nat) (a : Arm) : Conclusion × Arm :=
  let (_, a) := awaitFor (·.feed.snapshot.mode.isSome) modePatience a
  match a.moveAndWait target (1000 * limit) true fun _ a => a.pass Arm.lookPeriod with
  | (.error failure, a) => (.failed (.ofFailure failure), a)
  | (.ok outcome, a) => (outcomeConclusion json outcome, a.deactivate)

/-- Moves straight: the arm is configured and activated before. -/
def moveStraight (surroundings : Surroundings) (json : Bool) (target : Pose) (limit : Nat)
    (a : Arm) : Conclusion × Arm :=
  match a.configure surroundings.read with
  | (.error failure, a) => (.failed (.ofFailure failure), a)
  | (.ok (), a) =>
    match a.activate with
    | (.error failure, a) => (.failed (.during "Failed to activate interface" failure), a)
    | (.ok (), a) => moveActive json target limit a

def perform (surroundings : Surroundings) (json : Bool) (task : Task) (a : Arm) :
    Conclusion × Arm :=
  match task with
  | .order request => onDashboard (makeRequest json request) a
  | .mode => onDashboard (makeRequest json .robotMode) a
  | .angle => onDashboard (makeRequest json .angles) a
  | .pose => onDashboard (makeRequest json .pose) a
  | .errors => onDashboard (makeRequest json .errorIds) a
  | .output index level =>
    onDashboard
      (fun a =>
        match Robot.Index.make .digitalOutput index with
        | .error failure => (.failed (.ofFailure failure), a)
        | .ok index => makeRequest json (.digitalOutput index level) a) a
  | .jog axis duration =>
    match Robot.JogAxis.parse axis with
    | .error failure => (.failed (.ofFailure failure), a)
    | .ok axis =>
      onMotion
        (sendMove (.moveJog (some axis)) fun a =>
          sendMove (.moveJog none) (finishMove json "MoveJog") (a.pass duration)) a
  | .movJ target => onMotion (sendMove (.movJ target) (finishMove json "MovJ")) a
  | .movL target limit => moveStraight surroundings json target limit a

/-- The configuration of an invocation: that of the file named by the option or else by the
environment, or the one for an address alone. An address that is given always counts. -/
def Invocation.load (surroundings : Surroundings) (invocation : Invocation) :
    Except Complaint Config :=
  match invocation.config.or surroundings.configPath, invocation.address with
  | some path, address => (surroundings.load path).map (withAddress address)
  | none, some address => .ok (.forAddress address)
  | none, none => .error ⟨none, "Either --config, MG400_CONFIG or --ip is required"⟩

namespace Tool

def name : String := "mg400-command"

def usage : String := "Usage: " ++ name ++ " [OPTIONS] <COMMAND>"

/-- The files that the tool reads, as far as the files read so far tell. -/
def files (surroundings : Surroundings) (arguments : List String) : List String :=
  match Invocation.read arguments with
  | .error _ => []
  | .ok invocation =>
    match invocation.config.or surroundings.configPath with
    | none => []
    | some path => surroundings.filesOf path

/-- Runs the tool with its arguments; `links` says what the links of a configuration are. -/
def run (surroundings : Surroundings) (links : Config → Bench) (arguments : List String) :
    Ending :=
  match Invocation.read arguments with
  | .error stop => .ofStop name usage stop
  | .ok invocation =>
    match invocation.load surroundings with
    | .error complaint => .failed [] complaint none
    | .ok config =>
      match perform surroundings invocation.json invocation.task (.new config (links config)) with
      | (⟨lines, none⟩, a) => .done lines (some a.bench)
      | (⟨lines, some complaint⟩, a) => .failed lines complaint (some a.bench)

end Tool

end ArmLink.CommandLine
