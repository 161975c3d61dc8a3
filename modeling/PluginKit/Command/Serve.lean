import PluginKit.Config.File
import PluginKit.Lifecycle.Schedule

/-!
# Serving a plugin until told to stop

The command reads the settings, wraps a plugin that does nothing, starts it, and stops it once
the program is told to end.
-/

namespace PluginKit

namespace Serve

/-- The step at which the command gave up, and why. -/
inductive Failure where
  | load (r : Report ConfigError)
  | wrap (r : Report ConstructionError)
  | start (r : LifecycleReport)
  | stop (r : LifecycleReport)
deriving DecidableEq, Repr

def Failure.message : Failure → String
  | load r => "Failed to load lifecycle config: " ++ r.cause.message
  | wrap r => "Failed to wrap plugin: " ++ r.cause.message
  | start r => "Failed to start plugin: " ++ r.cause.message
  | stop r => "Failed to stop plugin: " ++ r.cause.message

/-- What to serve: the kind and the name of the plugin, the directories it registers in, and
the file with its settings. -/
structure Plan where
  kind : PluginKind
  name : Option String := none
  dirs : List Path := []
  config : Option Path := none
deriving DecidableEq, Repr

def settings (fs : FileSystem) (plan : Plan) : Except Failure Settings :=
  match plan.config with
  | none => .ok {}
  | some path => (Config.load fs path).mapError .load

/-- The outcome of the call made last, where a failure is that of a step. -/
def outcome (step : LifecycleReport → Failure) (sys : Supervision) : Except Failure Unit :=
  match sys.lastCall? with
  | some (.finished (.error r)) => .error (step r)
  | _ => .ok ()

def launch (fs : FileSystem) (plan : Plan) : Except Failure Supervision := do
  let settings ← settings fs plan
  let supervisor ←
    (Supervisor.create (.dummy plan.kind plan.name none) [] [] plan.dirs settings {} fs).mapError
      .wrap
  let sys := (Supervision.start { supervisor := supervisor } true).runLastCall
  outcome .start sys
  .ok sys

def shutDown (sys : Supervision) : Supervision × Except Failure Unit :=
  let sys := sys.stop.runLastCall
  (sys, outcome .stop sys)

end Serve

end PluginKit
