import ArmLink.CommandLine.Ending
import ArmLink.Watch.Schedule

/-!
# The daemon

The daemon watches an arm until it is interrupted. Whatever it has to refuse is
refused before it first looks at the arm; from then on nothing makes it give up,
and an interruption is its regular end.
-/

namespace ArmLink.CommandLine.Daemon

def name : String := "mg400d"

def usage : String := "Usage: " ++ name ++ " [OPTIONS]"

def level : Level := ⟨[configFlag, addressFlag, helpFlag, versionFlag], [], []⟩

/-- The path of the configuration that is used when none is named. -/
def standardPath : String := "config/default_config.yaml"

/-- The path of the configuration: that of the option, or else of the environment. -/
def configPath (surroundings : Surroundings) (given : Given) : String :=
  ((given.setting? "config").or surroundings.configPath).getD standardPath

/-- The files that the daemon reads, as far as the files read so far tell. -/
def files (surroundings : Surroundings) (arguments : List String) : List String :=
  match level.take arguments .nothing with
  | .error _ => []
  | .ok (given, _) => surroundings.filesOf (configPath surroundings given)

def load (surroundings : Surroundings) (given : Given) : Except Complaint Config :=
  (surroundings.load (configPath surroundings given)).map (withAddress (given.setting? "ip"))

/-- The arm of a configuration, with its table of fault messages. -/
def configured (surroundings : Surroundings) (links : Config → Bench) (config : Config) :
    Except Complaint Arm :=
  match (Arm.new config (links config)).configure surroundings.read with
  | (.ok (), a) => .ok a
  | (.error failure, _) => .error (.during "Failed to configure interface" failure)

/-- The watch the daemon is to keep, or how it ends instead; `links` says what the links of a
configuration are. -/
def prepare (surroundings : Surroundings) (links : Config → Bench) (epoch : Float)
    (arguments : List String) : Except Ending Watch :=
  match level.take arguments .nothing with
  | .error stop => .error (.ofStop name usage stop)
  | .ok (given, _) =>
    match load surroundings given >>= configured surroundings links with
    | .error complaint => .error (.failed [] complaint none)
    | .ok arm => .ok (.new arm epoch)

end ArmLink.CommandLine.Daemon
