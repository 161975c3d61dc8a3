import PluginKit.Lifecycle.CrashWindow
import PluginKit.Lifecycle.Event
import PluginKit.Lifecycle.Signals

/-!
# The serving task of a socket

A socket is served in rounds. A round that ends before the server is shut down is a crash,
whether it failed or merely ran out of connections, and the next round begins. Too many
crashes in a row are handed to the supervisor as a restart request, and the task ends.
-/

namespace PluginKit

/-- What somebody else may do to the signals while a round lasts. -/
inductive Request where
  | restart
  | stop
deriving DecidableEq, Repr

def Signals.apply (s : Signals) : Request → Signals
  | .restart => s.requestRestart.1
  | .stop => s.requestStop

/-- How one round ended: when, with which failure if any, whether the server had been shut
down by then, and what was requested meanwhile. -/
structure Round where
  endedAt : Nat
  failure : Option String := none
  shutDown : Bool := false
  requests : List Request := []
deriving DecidableEq, Repr

namespace Serving

inductive Ending where
  | shutDown
  | escalated (accepted : Bool)
  | panicked
deriving DecidableEq, Repr

/-- What a serving task has done: how many rounds it began, what it reported, the signals it
left and how it ended, unless it serves on. -/
structure Run where
  rounds : Nat
  metrics : List Metric
  signals : Signals
  ending : Option Ending
deriving DecidableEq, Repr

def Run.after (r : Run) (metrics : List Metric) : Run :=
  { r with rounds := r.rounds + 1, metrics := metrics ++ r.metrics }

def lastRound (metrics : List Metric) (signals : Signals) (ending : Ending) : Run :=
  ⟨1, metrics, signals, some ending⟩

def run (o : Observer) (w : CrashWindow) (s : Signals) : List Round → Run
  | [] => ⟨0, [], s, none⟩
  | round :: rest =>
      let s' := round.requests.foldl Signals.apply s
      if round.shutDown then lastRound [] s' .shutDown
      else if o.panics .serverRestart then lastRound [.serverRestart] s' .panicked
      else
        let w' := w.record round.endedAt
        if w'.escalates then
          if o.panics .crashLoop then lastRound [.serverRestart, .crashLoop] s' .panicked
          else
            let (s'', accepted) := s'.requestRestart
            lastRound [.serverRestart, .crashLoop] s'' (.escalated accepted)
        else (run o w' s' rest).after [.serverRestart]

end Serving

end PluginKit
