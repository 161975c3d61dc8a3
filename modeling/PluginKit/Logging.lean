import PluginKit.FileSystem.Operations

/-!
# Log files

A log path names a file that is replaced by a new one every day: the day is appended to its
name. A path that leads to a directory stands for a file of the default name in it.
-/

namespace PluginKit

namespace Logging

def defaultName : List Char := "plugin.log".toList

/-- Where log files go, and what their names begin with. -/
structure Target where
  dir : Path
  stem : List Char
deriving DecidableEq, Repr

def target (fs : FileSystem) (path : Path) : Target :=
  if fs.isDirectory path then ⟨path, defaultName⟩
  else ⟨path.directory, path.fileName?.getD defaultName⟩

inductive OpenStep where
  | directory
  | file
deriving DecidableEq, Repr

inductive Failure where
  | appender (dir : Path) (step : OpenStep) (e : IoError)
  | alreadyInstalled
deriving DecidableEq, Repr

namespace Failure

def name : Failure → String
  | appender _ _ _ => "Appender"
  | alreadyInstalled => "AlreadyInitialized"

def message : Failure → String
  | appender dir step e =>
      "failed to create rolling file appender in \x60" ++ dir.toText ++ "\x60: failed to create " ++
        (match step with
        | .directory => "log directory: "
        | .file => "initial log file: ") ++ e.message
  | alreadyInstalled =>
      "global tracing subscriber already installed: " ++
        "a global default trace dispatcher has already been set"

end Failure

def openFile (fs : FileSystem) (p : Path) : Except IoError FileSystem :=
  let content :=
    match fs.readFile p with
    | .ok content => content
    | .error _ => []
  fs.writeFile p content

/-- Opens the log file of a day. Where that fails, the directory is created and the file is tried
again. -/
def openLog (fs : FileSystem) (t : Target) (day : List Char) : Except Failure FileSystem :=
  let p := t.dir.join ⟨t.stem ++ '.' :: day⟩
  match openFile fs p with
  | .ok fs => .ok fs
  | .error _ =>
      match fs.makeDirectories 0o777 p.directory with
      | (_, .error e) => .error (.appender t.dir .directory e)
      | (fs, .ok ()) => (openFile fs p).mapError (.appender t.dir .file)

/-- Starts logging, to a file where a log path is given. A process can do so only once. -/
def start (fs : FileSystem) (path : Option Path) (day : List Char) (installed : Bool) :
    Except Failure FileSystem := do
  let fs ←
    match path with
    | some path => openLog fs (target fs path) day
    | none => .ok fs
  if installed then .error .alreadyInstalled else .ok fs

end Logging

end PluginKit
