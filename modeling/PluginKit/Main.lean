import PluginKit.Command.Info
import PluginKit.Command.Serve
import PluginKit.CommandLine.Help
import PluginKit.CommandLine.Parse

/-!
# The program

Reads the command line and carries it out on a file system of its own, in which nothing exists
but the settings file that the command line names. A served plugin is stopped when the standard
input ends.
-/

namespace PluginKit

namespace Main

def readEnvironment : IO CommandLine.Environment := do
  let get (o : CommandLine.Opt) : IO (Option String) :=
    match o.envName? with
    | some name => IO.getEnv name
    | none => return none
  return ⟨← get .logPath, ← get .registrationDir, ← get .config⟩

/-- The file system that holds a file that exists outside. -/
def readFiles (path : Option Path) : IO FileSystem := do
  let some path := path | return .fresh
  try
    let content ← IO.FS.readBinFile path.toText
    let (fs, _) := FileSystem.fresh.makeDirectories 0o777 path.directory
    return (fs.writeFile path content.toList).toOption.getD fs
  catch _ => return .fresh

partial def awaitEnd (input : IO.FS.Stream) : IO Unit := do
  let line ← input.getLine
  unless line.isEmpty do
    awaitEnd input

def tell (message : String) : IO UInt32 := do
  IO.eprintln ("Error: " ++ message)
  return 1

def serve (plan : Serve.Plan) : IO UInt32 := do
  match Serve.launch (← readFiles plan.config) plan with
  | .error e => tell e.message
  | .ok sys =>
      let sys := sys.settle
      awaitEnd (← IO.getStdin)
      match (Serve.shutDown sys).2 with
      | .error e => tell e.message
      | .ok () => return 0

/-- Asks a socket who it is; nobody listens in a file system where nothing exists. -/
def info (socket : Path) (seconds : Nat) : IO UInt32 := do
  let reached := (FileSystem.fresh.connect socket).map fun _ => ()
  let dialed := Transport.works.dial (seconds * 1000) reached
  match Info.output socket (dialed.map fun _ => .error .noService) with
  | .error e => tell e.message
  | .ok text =>
      IO.print text
      return 0

def run (arguments : List String) : IO UInt32 := do
  let env ← readEnvironment
  match CommandLine.parse env arguments with
  | .error r =>
      let message := r.message CommandLine.programName env
      if r.exitCode = 0 then IO.print message else IO.eprintln message
      return UInt32.ofNat r.exitCode
  | .ok invocation =>
      match invocation.order with
      | .serve kind name dirs config => serve ⟨kind, name, dirs, config⟩
      | .info socket seconds => info socket seconds

end Main

end PluginKit

def main (arguments : List String) : IO UInt32 :=
  PluginKit.Main.run arguments
