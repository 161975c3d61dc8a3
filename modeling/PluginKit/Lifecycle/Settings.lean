/-!
# Lifecycle settings

The intervals and limits that govern the life of a plugin. Times are milliseconds.
-/

namespace PluginKit

/-- The time between two attempts of a failed cycle, the limit of a dial check, the window in
which crashes count as consecutive, how many of those are borne, and the time a stopped server
has to finish its calls. -/
structure Settings where
  retryInterval : Nat := 5000
  dialTimeout : Nat := 5000
  crashResetWindow : Nat := 3600000
  crashThreshold : UInt32 := 5
  serverStopGrace : Nat := 1000
deriving DecidableEq, Repr

end PluginKit
