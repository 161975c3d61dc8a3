import PluginKit.Path
import PluginKit.Report
import PluginKit.Text.Record

/-!
# Why a plugin cannot be wrapped, started or stopped

The causes, their wording, and the form diagnostics show them in.
-/

namespace PluginKit

/-- What a panic carries: a text, or something that has none. -/
inductive PanicPayload where
  | text (message : String)
  | other
deriving DecidableEq, Repr

def PanicPayload.message : PanicPayload → String
  | text message => message
  | other => "unknown panic payload"

inductive ConstructionError where
  | unsupportedPluginType (name : String)
deriving DecidableEq, Repr

namespace ConstructionError

def name : ConstructionError → String
  | unsupportedPluginType _ => "UnsupportedPluginType"

def message : ConstructionError → String
  | unsupportedPluginType plugin => "unsupported plugin type: " ++ plugin

def debug : ConstructionError → String
  | unsupportedPluginType plugin =>
      Text.showRecord "UnsupportedPluginType" [("name", Text.quote plugin)]

end ConstructionError

inductive LifecycleCause where
  | emptySockets
  | socketDirectory (dir : Path)
  | pluginStart
  | startPanicked (message : String)
  | pluginStop
  | bind (socket : Path)
  | dialCheck (socket : Path)
  | cleanup
  | stopPanicked (message : String)
  | alreadyStopped
  | noRuntime
deriving DecidableEq, Repr

structure LifecycleError where
  plugin : String
  cause : LifecycleCause
deriving DecidableEq, Repr

namespace LifecycleCause

def name : LifecycleCause → String
  | emptySockets => "EmptySockets"
  | socketDirectory _ => "SocketDirectory"
  | pluginStart => "PluginStart"
  | startPanicked _ => "StartPanicked"
  | pluginStop => "PluginStop"
  | bind _ => "Bind"
  | dialCheck _ => "DialCheck"
  | cleanup => "Cleanup"
  | stopPanicked _ => "StopPanicked"
  | alreadyStopped => "AlreadyStopped"
  | noRuntime => "NoRuntime"

def details : LifecycleCause → List (String × String)
  | socketDirectory dir => [("dir", Text.quotePath dir.toText)]
  | startPanicked message => [("message", Text.quote message)]
  | bind socket => [("socket", Text.quotePath socket.toText)]
  | dialCheck socket => [("socket", Text.quotePath socket.toText)]
  | stopPanicked message => [("message", Text.quote message)]
  | _ => []

end LifecycleCause

namespace LifecycleError

def name (e : LifecycleError) : String := e.cause.name

def message (e : LifecycleError) : String :=
  match e.cause with
  | .emptySockets => e.plugin ++ " plugin got empty sockets"
  | .socketDirectory dir =>
      "prepare registration directory " ++ dir.toText ++ " for " ++ e.plugin ++ " failed"
  | .pluginStart => "start wrapped plugin " ++ e.plugin ++ " failed"
  | .startPanicked message => "start plugin " ++ e.plugin ++ " panicked: " ++ message
  | .pluginStop => "stop wrapped plugin " ++ e.plugin ++ " failed"
  | .bind socket => "listen for " ++ e.plugin ++ " at socket " ++ socket.toText ++ " failed"
  | .dialCheck socket =>
      "dial check for " ++ e.plugin ++ " at socket " ++ socket.toText ++ " failed"
  | .cleanup => "cleanup failed for " ++ e.plugin
  | .stopPanicked message => "stop plugin " ++ e.plugin ++ " panicked: " ++ message
  | .alreadyStopped => "plugin " ++ e.plugin ++ " has been stopped permanently"
  | .noRuntime => "plugin " ++ e.plugin ++ " can only be started within a tokio runtime"

def debug (e : LifecycleError) : String :=
  Text.showRecord e.name (("plugin", Text.quote e.plugin) :: e.cause.details)

end LifecycleError

abbrev LifecycleReport := Report LifecycleError

instance decidableEqExcept {ε α : Type} [DecidableEq ε] [DecidableEq α] :
    DecidableEq (Except ε α)
  | .ok a, .ok b => decidable_of_iff (a = b) (by simp)
  | .error e, .error e' => decidable_of_iff (e = e') (by simp)
  | .ok _, .error _ => isFalse (by simp)
  | .error _, .ok _ => isFalse (by simp)

abbrev LifecycleOutcome := Except LifecycleReport Unit

def LifecycleCause.report (cause : LifecycleCause) (plugin : String) : LifecycleReport :=
  ⟨⟨plugin, cause⟩, [], []⟩

end PluginKit
