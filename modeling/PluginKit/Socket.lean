import PluginKit.FileSystem.Operations
import PluginKit.Lifecycle.Error

/-!
# The sockets of a plugin

A plugin has one socket in each registration directory. Before they are bound, the directories
are created, sockets whose directory is the same place as an earlier one are dropped, and
whatever lies at the remaining paths is removed.
-/

namespace PluginKit

namespace Socket

def paths (dirs : List Path) (plugin : String) : List Path :=
  dirs.map fun dir => dir.join (Path.ofString (plugin ++ ".sock"))

def directoryMode : Nat := 0o755

/-- Creates a directory where it is missing, and answers where it lies. -/
def placeDirectory (fs : FileSystem) (dir : Path) : FileSystem × Except IoError Location :=
  match fs.makeDirectories directoryMode dir with
  | (fs', .error e) => (fs', .error e)
  | (fs', .ok ()) => (fs', (fs'.lookup dir).map Prod.fst)

/-- Places the directories of sockets one after the other. A failure names the first directory
that cannot be placed. -/
def placeDirectories (fs : FileSystem) :
    List Path → FileSystem × Except (Path × IoError) (List (Path × Location))
  | [] => (fs, .ok [])
  | socket :: rest =>
      match placeDirectory fs socket.directory with
      | (fs', .error e) => (fs', .error (socket.directory, e))
      | (fs', .ok loc) =>
          match placeDirectories fs' rest with
          | (fs'', .error e) => (fs'', .error e)
          | (fs'', .ok placed) => (fs'', .ok ((socket, loc) :: placed))

/-- The sockets whose location is none of those before them, nor one of `seen`. -/
def firstOfEach (seen : List Location) : List (Path × Location) → List Path
  | [] => []
  | (socket, loc) :: rest =>
      if loc ∈ seen then firstOfEach seen rest
      else socket :: firstOfEach (loc :: seen) rest

def cleanupReport (plugin : String) (socket : Path) (e : IoError) : LifecycleReport :=
  ⟨⟨plugin, .cleanup⟩, ["remove " ++ socket.toText], [e.message]⟩

/-- Removes the entries at the paths of sockets, in order; a path that names nothing is
fine. -/
def removeAll (plugin : String) (fs : FileSystem) :
    List Path → FileSystem × LifecycleOutcome
  | [] => (fs, .ok ())
  | socket :: rest =>
      match fs.unlink socket with
      | .ok fs' => removeAll plugin fs' rest
      | .error .notFound => removeAll plugin fs rest
      | .error e => (fs, .error (cleanupReport plugin socket e))

structure Prepared where
  files : FileSystem
  sockets : List Path
  outcome : LifecycleOutcome

def prepare (plugin : String) (fs : FileSystem) (sockets : List Path) : Prepared :=
  match placeDirectories fs sockets with
  | (fs', .error (dir, e)) =>
      ⟨fs', sockets, .error ⟨⟨plugin, .socketDirectory dir⟩, [], [e.message]⟩⟩
  | (fs', .ok placed) =>
      match firstOfEach [] placed with
      | [] => ⟨fs', [], .error (LifecycleCause.emptySockets.report plugin)⟩
      | kept =>
          let (fs'', outcome) := removeAll plugin fs' kept
          ⟨fs'', kept, outcome⟩

end Socket

end PluginKit
