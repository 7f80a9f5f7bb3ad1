import ArmLink.Bench
import ArmLink.CommandLine.Arguments
import ArmLink.Config

/-!
# How a program runs and ends

A program sees of its machine one variable of the environment and the files. It
ends with a status: zero when it did what it was asked to, one when that failed,
and two when it was not understood. A failure is reported with what was being
done, if that is known, and the cause below it.
-/

namespace ArmLink.CommandLine

/-- What a program sees of the machine it runs on. -/
structure Surroundings where
  /-- The path of the configuration that the environment names. -/
  configPath : Option String
  read : String → FileContents

/-- The surroundings in which these files have been read; there are no others. -/
def Surroundings.ofFiles (configPath : Option String) (files : List (String × FileContents)) :
    Surroundings :=
  { configPath
    read := fun path =>
      match files.find? fun (name, _) => name = path with
      | some (_, contents) => contents
      | none => .missing }

/-- What a program reports before it gives up. -/
structure Complaint where
  task : Option String
  cause : String
  deriving DecidableEq, Repr

namespace Complaint

def ofFailure (failure : Failure) : Complaint := ⟨none, failure.message⟩

/-- A failure of something that was being done. -/
def during (task : String) (failure : Failure) : Complaint := ⟨some task, failure.message⟩

/-- A cause with its lines set in. -/
def indented (cause : String) : List Char :=
  "    ".toList ++ cause.toList.flatMap fun c => if c = '\n' then "\n    ".toList else [c]

def text (complaint : Complaint) : String :=
  match complaint.task with
  | none => "Error: " ++ complaint.cause ++ "\n"
  | some task =>
    "Error: " ++ task ++ "\n\nCaused by:\n" ++ String.ofList (indented complaint.cause) ++ "\n"

end Complaint

/-- What a run of a program came to. -/
structure Ending where
  status : Nat
  output : String
  errors : String
  /-- The links as they were left, if any were opened. -/
  bench : Option Bench
  deriving DecidableEq, Repr

def helpFlag : Flag := ⟨"help", some 'h', .help⟩

def versionFlag : Flag := ⟨"version", some 'V', .version⟩

def configFlag : Flag := ⟨"config", some 'c', .setting .text⟩

def addressFlag : Flag := ⟨"ip", none, .setting .text⟩

def version : String := "0.1.0"

namespace Ending

def done (lines : List String) (bench : Option Bench) : Ending :=
  ⟨0, String.join (lines.map (· ++ "\n")), "", bench⟩

def failed (lines : List String) (complaint : Complaint) (bench : Option Bench) : Ending :=
  ⟨1, String.join (lines.map (· ++ "\n")), complaint.text, bench⟩

/-- How a program ends that stopped reading its arguments. -/
def ofStop (program usage : String) : Stop → Ending
  | .misuse => ⟨2, "", "error: " ++ usage ++ "\n", none⟩
  | .help => done [usage] none
  | .version => done [program ++ " " ++ version] none

end Ending

def Surroundings.load (surroundings : Surroundings) (path : String) : Except Complaint Config :=
  (Config.load path (surroundings.read path)).mapError
    (.during ("Failed to load config from " ++ path))

/-- The files that a program needs which loads its configuration from a path: that one, and the
table it names. -/
def Surroundings.filesOf (surroundings : Surroundings) (path : String) : List String :=
  match surroundings.load path with
  | .ok config => path :: config.messages.toList
  | .error _ => [path]

/-- The configuration with another address, if one was given. -/
def withAddress (address : Option String) (config : Config) : Config :=
  match address with
  | some address => { config with address }
  | none => config

end ArmLink.CommandLine
