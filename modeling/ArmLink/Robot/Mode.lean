import ArmLink.Decimal.Integer

/-!
# Operating modes

The controller reports its mode as a number, over the dashboard and in every
telemetry frame. Ten of the numbers have names; every other number is kept as it
came, so a mode and its number determine each other.
-/

namespace ArmLink.Robot

/-- The operating mode of the controller. -/
inductive Mode where
  | init
  | brakeOpen
  | disabled
  | enable
  | backdrive
  | running
  | recording
  | error
  | pause
  | jog
  | unknown (raw : Int)
  deriving DecidableEq, Repr

namespace Mode

def ofRaw : Int → Mode
  | 1 => .init
  | 2 => .brakeOpen
  | 4 => .disabled
  | 5 => .enable
  | 6 => .backdrive
  | 7 => .running
  | 8 => .recording
  | 9 => .error
  | 10 => .pause
  | 11 => .jog
  | raw => .unknown raw

def raw : Mode → Int
  | .init => 1
  | .brakeOpen => 2
  | .disabled => 4
  | .enable => 5
  | .backdrive => 6
  | .running => 7
  | .recording => 8
  | .error => 9
  | .pause => 10
  | .jog => 11
  | .unknown raw => raw

def name : Mode → String
  | .init => "INIT"
  | .brakeOpen => "BRAKE_OPEN"
  | .disabled => "DISABLED"
  | .enable => "ENABLE"
  | .backdrive => "BACKDRIVE"
  | .running => "RUNNING"
  | .recording => "RECORDING"
  | .error => "ERROR"
  | .pause => "PAUSE"
  | .jog => "JOG"
  | .unknown raw => "UNKNOWN(" ++ Decimal.integerText raw ++ ")"

/-- The name of a mode in stored records; a mode without a number of its own has none. -/
def recordName? : Mode → Option String
  | .init => some "Init"
  | .brakeOpen => some "BrakeOpen"
  | .disabled => some "Disabled"
  | .enable => some "Enable"
  | .backdrive => some "Backdrive"
  | .running => some "Running"
  | .recording => some "Recording"
  | .error => some "Error"
  | .pause => some "Pause"
  | .jog => some "Jog"
  | .unknown _ => none

/-- The modes that have a name. -/
def named : List Mode :=
  [.init, .brakeOpen, .disabled, .enable, .backdrive, .running, .recording, .error, .pause, .jog]

/-- The mode stored under a name. -/
def ofRecordName? (text : String) : Option Mode :=
  named.find? fun mode => mode.recordName? = some text

@[simp] theorem raw_ofRaw (n : Int) : (ofRaw n).raw = n := by
  unfold ofRaw
  split <;> rfl

/-- Different numbers are different modes. -/
theorem ofRaw_injective {m n : Int} (h : ofRaw m = ofRaw n) : m = n := by
  rw [← raw_ofRaw m, ← raw_ofRaw n, h]

end Mode

end ArmLink.Robot
