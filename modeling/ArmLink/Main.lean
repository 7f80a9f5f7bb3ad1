import ArmLink.CommandLine.Daemon
import ArmLink.CommandLine.Tool

/-!
# The programs

Called under the name of the daemon this is the daemon, and under any other name
the command tool. Here the arguments, the environment and the files are read and
the lines are printed. No network is used: every dial ends as on a machine that
has none.
-/

namespace ArmLink.Program

open ArmLink.CommandLine
open ArmLink.Watch (Scheduled)

/-- What reading a file gave that ended with an error. -/
def contentsOf : IO.Error → FileContents
  | .noFileOrDirectory _ number reason | .inappropriateType _ number reason
  | .permissionDenied _ number reason | .invalidArgument _ number reason
  | .resourceExhausted _ number reason => .refused number.toNat reason
  | other => .error (toString other)

def readFile (path : String) : IO FileContents := do
  if path.toList.contains '\x00' then return .unnameable
  try
    return .ok (← IO.FS.readBinFile path).toList
  catch e =>
    return contentsOf e

/-- Reads the files that are wanted, which may only be known when others have been read. -/
def surroundings (wanted : Surroundings → List String) : IO Surroundings := do
  let configPath ← IO.getEnv "MG400_CONFIG"
  let read (known : Surroundings) : IO Surroundings := do
    return .ofFiles configPath (← (wanted known).mapM fun path => do
      return (path, ← readFile path))
  read (← read (.ofFiles configPath []))

def finish (ending : Ending) : IO UInt32 := do
  IO.print ending.output
  IO.eprint ending.errors
  return ending.status.toUInt32

/-- Keeps a watch for ever. -/
partial def keep (s : Scheduled) : IO UInt32 := do
  s.watch.lines.forM fun line => IO.println line
  (← IO.getStdout).flush
  let (_, s) := s.takeLines s.watch.lines.length
  match s.due? with
  | some time =>
    IO.sleep (time - s.watch.arm.clock).toUInt32
    keep (s.passUntil time).act
  | none => return 0

def run (arguments : List String) : IO UInt32 := do
  if (← IO.appPath).fileStem = some Daemon.name then
    let s ← surroundings fun s => Daemon.files s arguments
    match Daemon.prepare s Config.unreachable 0.0 arguments with
    | .error ending => finish ending
    | .ok watch => keep (.begin watch)
  else
    let s ← surroundings fun s => Tool.files s arguments
    finish (Tool.run s Config.unreachable arguments)

end ArmLink.Program

def main (arguments : List String) : IO UInt32 :=
  ArmLink.Program.run arguments
