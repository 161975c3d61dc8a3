/-!
# What can be watched from outside

The metrics that a supervised plugin reports, and the calls made to it.
-/

namespace PluginKit

inductive Metric where
  | serverRestart
  | crashLoop
  | startFailed
  | stopFailed
deriving DecidableEq, Repr

def Metric.key : Metric → String
  | serverRestart => "plugin_restart"
  | crashLoop => "plugin_crash_loop"
  | startFailed => "plugin_start_failed"
  | stopFailed => "plugin_stop_failed"

def Metric.ofKey? (key : String) : Option Metric :=
  [serverRestart, crashLoop, startFailed, stopFailed].find? fun m => m.key == key

/-- Whoever is told of metrics, and the metrics at which it panics. -/
structure Observer where
  listens : Bool := true
  panicsAt : List Metric := []
deriving DecidableEq, Repr

namespace Observer

def panicMessage : String := "metric callback failed"

def panics (o : Observer) (m : Metric) : Bool :=
  o.listens && decide (m ∈ o.panicsAt)

end Observer

end PluginKit
