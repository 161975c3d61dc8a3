import PluginKit.Config.Settings
import PluginKit.FileSystem.Operations
import PluginKit.Report
import PluginKit.Text.Record

/-!
# Settings in a file
-/

namespace PluginKit

inductive ConfigError where
  | read (path : Path)
  | parse (path : Path)
deriving DecidableEq, Repr

namespace ConfigError

def name : ConfigError → String
  | read _ => "Read"
  | parse _ => "Parse"

def path : ConfigError → Path
  | read path => path
  | parse path => path

def message : ConfigError → String
  | read path => "Failed to read lifecycle config " ++ path.toText
  | parse path => "Failed to parse lifecycle config " ++ path.toText

def debug (e : ConfigError) : String :=
  Text.showRecord e.name [("path", Text.quotePath e.path.toText)]

end ConfigError

namespace Config

def readText (fs : FileSystem) (path : Path) : Except IoError String :=
  match fs.readFile path with
  | .error e => .error e
  | .ok bytes =>
      match String.fromUTF8? ⟨bytes.toArray⟩ with
      | some text => .ok text
      | none => .error .notUtf8

def load (fs : FileSystem) (path : Path) : Except (Report ConfigError) Settings :=
  match readText fs path with
  | .error e => .error ⟨.read path, [], [e.message]⟩
  | .ok text =>
      match parse text with
      | .error e => .error ⟨.parse path, [], [e.message]⟩
      | .ok settings => .ok settings

end Config

end PluginKit
