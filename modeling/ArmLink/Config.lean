import ArmLink.Failure
import ArmLink.File
import ArmLink.Text.Blank
import ArmLink.Yaml.Field

/-!
# Configuration

Where the controller is, how long to wait for it and how often to look, and what
to report. Everything but the address has a value of its own. A file with a blank
address, or one that tolerates no failure at all, is refused.
-/

namespace ArmLink

structure Ports where
  dashboard : Nat
  motion : Nat
  realtime : Nat
  deriving DecidableEq, Repr

/-- The ports a controller has unless it is told otherwise. -/
def Ports.standard : Ports := ⟨29999, 30003, 30004⟩

/-- How long to wait on the links, in milliseconds, and how many failures to bear. -/
structure Patience where
  connect : Nat
  reply : Nat
  receive : Nat
  /-- How many telemetry failures in a row are one too many. -/
  trials : Nat
  /-- How long to rest after a connect that failed. -/
  retry : Nat
  /-- How long to rest between two looks at the motion link. -/
  watch : Nat
  deriving DecidableEq, Repr

/-- The waiting times that hold unless others are given. -/
def Patience.standard : Patience := ⟨1000, 500, 5000, 3, 1000, 1000⟩

/-- How often the daemon looks, in milliseconds. -/
structure Polling where
  jointState : Nat
  robotMode : Nat
  errorCheck : Nat
  interfaceCheck : Nat
  deriving DecidableEq, Repr

/-- The periods that hold unless others are given. -/
def Polling.standard : Polling := ⟨10, 100, 500, 100⟩

/-- What the daemon reports: with how many decimals, and whether only changes. -/
structure Reporting where
  decimals : Nat
  changesOnly : Bool
  deriving DecidableEq, Repr

/-- The reporting that holds unless another is given. -/
def Reporting.standard : Reporting := ⟨4, true⟩

structure Config where
  address : String
  ports : Ports
  patience : Patience
  polling : Polling
  messages : Option String
  reporting : Reporting
  deriving DecidableEq, Repr

namespace Config

/-- The configuration for an address with everything else as it comes. -/
def forAddress (address : String) : Config :=
  { address, ports := .standard, patience := .standard, polling := .standard, messages := none
    reporting := .standard }

/-- How the controller is called when one of its ports is spoken of. -/
def peer (config : Config) (port : Nat) : String :=
  config.address ++ ":" ++ Decimal.natText port

open Yaml (Document Node)

def readPorts? (d : Document) (node : Node) : Option Ports := do
  let r ← d.record? ["dashboard", "motion", "realtime"] node
  let port name otherwise := Document.reading? r name otherwise (d.natural? UInt16.size)
  let s := Ports.standard
  return ⟨← port "dashboard" s.dashboard, ← port "motion" s.motion, ← port "realtime" s.realtime⟩

def readRobot? (d : Document) (node : Node) : Option (String × Ports) := do
  let r ← d.record? ["ip_address", "ports"] node
  let address ← d.text? (← Document.field? r "ip_address")
  return (address, ← Document.reading? r "ports" Ports.standard (readPorts? d))

def readPatience? (d : Document) (node : Node) : Option Patience := do
  let r ← d.record?
    ["connect_timeout_ms", "reply_timeout_ms", "realtime_recv_timeout_ms", "realtime_trials",
      "retry_delay_ms", "monitor_period_ms"] node
  let time name otherwise := Document.reading? r name otherwise (d.natural? UInt64.size)
  let s := Patience.standard
  return {
    connect := ← time "connect_timeout_ms" s.connect
    reply := ← time "reply_timeout_ms" s.reply
    receive := ← time "realtime_recv_timeout_ms" s.receive
    trials := ← Document.reading? r "realtime_trials" s.trials (d.natural? UInt32.size)
    retry := ← time "retry_delay_ms" s.retry
    watch := ← time "monitor_period_ms" s.watch }

def readPolling? (d : Document) (node : Node) : Option Polling := do
  let r ← d.record?
    ["joint_state_ms", "robot_mode_ms", "error_check_ms", "interface_check_ms"] node
  let time name otherwise := Document.reading? r name otherwise (d.natural? UInt64.size)
  let s := Polling.standard
  return ⟨← time "joint_state_ms" s.jointState, ← time "robot_mode_ms" s.robotMode,
    ← time "error_check_ms" s.errorCheck, ← time "interface_check_ms" s.interfaceCheck⟩

def readReporting? (d : Document) (node : Node) : Option Reporting := do
  let r ← d.record? ["decimal_places", "dynamic"] node
  let s := Reporting.standard
  return ⟨← Document.reading? r "decimal_places" s.decimals (d.natural? UInt32.size),
    ← Document.reading? r "dynamic" s.changesOnly d.switch?⟩

def readDocument? (d : Document) : Option Config := do
  let r ← d.record? ["robot", "connection", "polling", "error_messages", "monitoring"] d.root
  let (address, ports) ← readRobot? d (← Document.field? r "robot")
  return {
    address, ports
    patience := ← Document.reading? r "connection" Patience.standard (readPatience? d)
    polling := ← Document.reading? r "polling" Polling.standard (readPolling? d)
    messages := ← Document.reading? r "error_messages" none d.optionalText?
    reporting := ← Document.reading? r "monitoring" Reporting.standard (readReporting? d) }

/-- Refuses a configuration that makes no sense. -/
def check (config : Config) : Except Failure Config :=
  if Text.trim config.address.toList = [] then .error (.config .noAddress)
  else if config.patience.trials = 0 then .error (.config .noTrials)
  else .ok config

def ofText (text : String) : Except Failure Config :=
  match Document.ofText? text >>= readDocument? with
  | some config => config.check
  | none => .error .yaml

def load (path : String) (contents : FileContents) : Except Failure Config :=
  match contents.text with
  | .ok text => ofText text
  | .error cause => .error (.config (.unreadable path cause))

end Config

end ArmLink
