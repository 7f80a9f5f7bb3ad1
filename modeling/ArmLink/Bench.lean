import ArmLink.Link
import ArmLink.Text.Utf8

/-!
# The three links and the controller behind them

The controller has three ports: the dashboard, which answers every command, the
motion port, which answers none, and the realtime port, which sends telemetry. A
controller may react to what is sent to it, by an answer and by things it does on
its own account. A silent controller does neither, and whatever arrives is then
laid down in the links.
-/

namespace ArmLink

inductive Port where
  | dashboard
  | motion
  | realtime
  deriving DecidableEq, Repr

def Port.name : Port → String
  | .dashboard => "dashboard"
  | .motion => "motion"
  | .realtime => "realtime"

/-- Something the controller does on its own account. -/
inductive Stimulus where
  | frame (bytes : List UInt8)
  | drop (port : Port)
  | refuse (port : Port) (text : String)
  deriving DecidableEq, Repr

/-- The answers to a command that are still to come; the last one stays. -/
structure Answers where
  /-- The text of the command, or `none` for every command that has no answers of its own. -/
  command : Option String
  texts : List String
  deriving DecidableEq, Repr

/-- How a controller reacts. -/
structure Controller where
  answers : List Answers
  /-- What it does after every command on the dashboard. -/
  onDashboard : List Stimulus
  /-- What it does after every command on the motion port. -/
  onMotion : List Stimulus
  deriving DecidableEq, Repr

namespace Controller

def silent : Controller := ⟨[], [], []⟩

/-- The next of some texts, and what is left: the last one stays. -/
def takeText : List String → Option String × List String
  | [] => (none, [])
  | [text] => (some text, [text])
  | text :: rest => (some text, rest)

/-- The answer to the command of these answers, if it is among them, and the answers left. -/
def takeFrom (command : Option String) : List Answers → Option (Option String × List Answers)
  | [] => none
  | a :: rest =>
    if a.command = command then
      let (text, left) := takeText a.texts
      some (text, { a with texts := left } :: rest)
    else (takeFrom command rest).map fun (text, rest) => (text, a :: rest)

/-- The answer to a command, if there is one. -/
def answer (c : Controller) (command : String) : Option String × Controller :=
  match takeFrom (some command) c.answers with
  | some (text, answers) => (text, { c with answers })
  | none =>
    match takeFrom none c.answers with
    | some (text, answers) => (text, { c with answers })
    | none => (none, c)

end Controller

structure Bench where
  dashboard : Link
  motion : Link
  realtime : Link
  controller : Controller
  deriving DecidableEq, Repr

namespace Bench

def link (b : Bench) : Port → Link
  | .dashboard => b.dashboard
  | .motion => b.motion
  | .realtime => b.realtime

def update (b : Bench) (port : Port) (f : Link → Link) : Bench :=
  match port with
  | .dashboard => { b with dashboard := f b.dashboard }
  | .motion => { b with motion := f b.motion }
  | .realtime => { b with realtime := f b.realtime }

/-- Something the controller does happens. -/
def suffer (b : Bench) : Stimulus → Bench
  | .frame bytes => b.update .realtime (Link.deliver (.bytes bytes))
  | .drop port => b.update port Link.close
  | .refuse port text => b.update port (Link.expect (.refused text))

/-- The controller has heard a command on the dashboard: it answers, and then it does what it does
after every command. -/
def heardDashboard (b : Bench) (command : String) : Bench :=
  let (text, controller) := b.controller.answer command
  let b := { b with controller }
  let b :=
    match text with
    | some text => b.update .dashboard (Link.deliver (.bytes (Text.Utf8.encode text)))
    | none => b
  controller.onDashboard.foldl suffer b

def heardMotion (b : Bench) : Bench :=
  b.controller.onMotion.foldl suffer b

def sendDashboard (command : String) (b : Bench) : Except Failure Unit × Bench :=
  match b.dashboard.send command with
  | (.ok (), dashboard) => (.ok (), { b with dashboard }.heardDashboard command)
  | (.error failure, dashboard) => (.error failure, { b with dashboard })

def sendMotion (command : String) (b : Bench) : Except Failure Unit × Bench :=
  match b.motion.send command with
  | (.ok (), motion) => (.ok (), { b with motion }.heardMotion)
  | (.error failure, motion) => (.error failure, { b with motion })

theorem heardDashboard_silent {b : Bench} (h : b.controller = .silent) (command : String) :
    b.heardDashboard command = b := by
  cases b
  subst h
  rfl

end Bench

end ArmLink
