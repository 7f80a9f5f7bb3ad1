import ArmLink.Decimal.Fixed
import ArmLink.Duration
import ArmLink.Robot.Index
import ArmLink.Text.Quoted

/-!
# Why an operation fails

A failure is its cause, with what a reader needs to act on it, and the wording is
in `message` alone. Two kinds of failure mean that the link has to be opened
again before anything else can be sent: a lost connection and an error of the
operating system. All others leave the link as it was.
-/

namespace ArmLink

open ArmLink.Decimal (IntegerFault fixedText integerText natText)
open ArmLink.Robot (IndexKind)
open ArmLink.Text (quoted)

/-- Why a link could not be used. -/
inductive ConnectionFault where
  /-- What the link itself reported. -/
  | reported (text : String)
  /-- No complete reply to a command came within the limit; what came is kept. -/
  | silent (command : String) (limit : Nat) (received : String)
  /-- A link of the arm at this address stayed down. -/
  | linksDown (address : String)
  deriving DecidableEq, Repr

/-- Why an argument is refused before anything is sent. -/
inductive ArgumentFault where
  | notFinite (command : String) (value : Float)
  | height (value : Float)
  | ratio (command : String) (least : Nat) (value : Nat)
  | index (kind : IndexKind) (value : Nat)
  | axis (text : String)
  | script (name : String)
  deriving DecidableEq, Repr

/-- Why the text of a reply, or its payload, does not say what was asked for. -/
inductive PayloadFault where
  | shape
  | status (fault : IntegerFault)
  | nested
  | notNumber (token : String)
  | count (wanted got : Nat)
  | notWhole
  | notGroups (payload : String)
  | unbalanced (payload : String)
  | notInteger (token : String)
  | noLists
  | slots (most got : Nat)
  deriving DecidableEq, Repr

/-- Why a configuration cannot be used. -/
inductive ConfigFault where
  | unreadable (path cause : String)
  | unreadableTable (path cause : String)
  | noAddress
  | noTrials
  deriving DecidableEq, Repr

/-- Why an operation fails. -/
inductive Failure where
  | connection (fault : ConnectionFault)
  | malformed (fault : PayloadFault) (line : String)
  | rejected (status : Int) (command : String)
  | gaveUp (trials : Nat)
  | config (fault : ConfigFault)
  | argument (fault : ArgumentFault)
  | unknownFault (id : Int)
  | io (text : String)
  | yaml
  | json
  deriving DecidableEq, Repr

def ConnectionFault.message : ConnectionFault → String
  | .reported text => text
  | .silent command limit received =>
    "No complete reply to " ++ command ++ " within " ++ durationText limit ++ " (got "
      ++ quoted received ++ ")"
  | .linksDown address => "motion or realtime link to " ++ address ++ " did not come up"

def ArgumentFault.message : ArgumentFault → String
  | .notFinite command value => command ++ " argument must be finite, got " ++ fixedText 3 value
  | .height value => "LimZ height must be finite, got " ++ fixedText 3 value
  | .ratio command least value =>
    command ++ " ratio must be within " ++ natText least ++ "..=100, got " ++ natText value
  | .index kind value =>
    kind.name ++ " must be within " ++ natText kind.least ++ "..=" ++ natText kind.greatest
      ++ ", got " ++ natText value
  | .axis text => "Unknown jog axis '" ++ text ++ "'"
  | .script name => "Invalid script name '" ++ name ++ "'"

def PayloadFault.message : PayloadFault → String
  | .shape => "expected `status,\x7bpayload\x7d,command;`"
  | .status fault => "bad status: " ++ fault.message
  | .nested => "expected a flat list, found nested brackets"
  | .notNumber token => "`" ++ token ++ "` is not a number"
  | .count wanted got => "expected " ++ natText wanted ++ " values, got " ++ natText got
  | .notWhole => "expected an integer value"
  | .notGroups payload => "`" ++ payload ++ "` is not a list of bracketed groups"
  | .unbalanced payload => "unbalanced brackets in `" ++ payload ++ "`"
  | .notInteger token => "`" ++ token ++ "` is not an integer"
  | .noLists => "expected at least one bracketed list"
  | .slots most got =>
    "expected at most " ++ natText most ++ " joint slots, got " ++ natText got

def ConfigFault.message : ConfigFault → String
  | .unreadable path cause => "Failed to read " ++ path ++ ": " ++ cause
  | .unreadableTable path cause => "Failed to read error table " ++ path ++ ": " ++ cause
  | .noAddress => "robot.ip_address must not be empty"
  | .noTrials => "connection.realtime_trials must be at least 1"

def Failure.message : Failure → String
  | .connection fault => "Connection failed: " ++ fault.message
  | .malformed fault line => "Malformed reply (" ++ fault.message ++ "): " ++ quoted line
  | .rejected status command =>
    "Controller rejected " ++ command ++ " with status " ++ integerText status
  | .gaveUp trials =>
    "realtime channel failed " ++ natText trials ++ " consecutive times, giving up"
  | .config fault => "Configuration error: " ++ fault.message
  | .argument fault => "Invalid argument: " ++ fault.message
  | .unknownFault id => "No message registered for error id " ++ integerText id
  | .io text => "IO error: " ++ text
  | .yaml => "YAML parsing error"
  | .json => "JSON parsing error"

/-- Whether the link has to be opened again. -/
def Failure.isConnection : Failure → Bool
  | .connection _ | .io _ => true
  | _ => false

/-- The index of a value, or the fault that names the bounds. -/
def Robot.Index.make (kind : IndexKind) (value : Nat) : Except Failure (Robot.Index kind) :=
  match Robot.Index.ofNat? kind value with
  | some index => .ok index
  | none => .error (.argument (.index kind value))

end ArmLink
