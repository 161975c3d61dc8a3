import PluginKit.Lifecycle.Cycle

/-!
# A supervisor with all who act on it

Besides the supervisor's own loop there are calls from outside: to start, to restart, to stop,
and to run a single cycle. Cycles exclude each other by a lock that is handed over in the order
in which it was asked for. What a task does at once is one step here, so every interleaving of
tasks is a sequence of these steps.
-/

namespace PluginKit

/-- How far a task is with a section: it will ask for the lock, it has asked, or it has it. -/
inductive Access where
  | asking
  | queued
  | holding (stage : Stage)
deriving DecidableEq, Repr

/-- The supervisor's loop: it attempts a cycle, looks at the outcome, sleeps before the next
attempt, waits for a signal, or is over. -/
inductive Loop where
  | attempting (kind : CycleKind) (access : Access)
  | finished (kind : CycleKind) (outcome : LifecycleOutcome)
  | sleeping (kind : CycleKind)
  | waiting
  | ended
  | panicked
deriving DecidableEq, Repr

/-- A call from outside. A start and a restart have found that no stop was requested, and are
about to act on it; a stop is at its section, at its report, or waits for the loop it has
taken. -/
inductive Call where
  | start
  | restart
  | stop (access : Access)
  | cycle (kind : CycleKind) (access : Access)
  | reporting (outcome : LifecycleOutcome)
  | leaving (outcome : LifecycleOutcome)
  | joining (outcome : LifecycleOutcome) (loop : Nat)
  | finished (outcome : LifecycleOutcome)
  | panicked
deriving DecidableEq, Repr

/-- Who may have the lock. -/
inductive Holder where
  | loop (index : Nat)
  | call (index : Nat)
deriving DecidableEq, Repr

/-- A supervisor, the lock with those who wait for it, the loops launched so far with the one
that is known to be launched, and the calls made so far. -/
structure Supervision where
  supervisor : Supervisor
  lock : Option Holder := none
  queue : List Holder := []
  loops : List Loop := []
  launched : Option Nat := none
  calls : List Call := []

namespace Loop

def isOver : Loop → Bool
  | ended => true
  | panicked => true
  | _ => false

end Loop

namespace Supervision

def setLoop (sys : Supervision) (i : Nat) (loop : Loop) : Supervision :=
  { sys with loops := sys.loops.set i loop }

def setCall (sys : Supervision) (j : Nat) (call : Call) : Supervision :=
  { sys with calls := sys.calls.set j call }

def goOn (sys : Supervision) (who : Holder) :
    Supervisor × Progress → Supervision × Sum Access LifecycleOutcome
  | (s, .inl stage) => ({ sys with supervisor := s, lock := some who }, .inl (.holding stage))
  | (s, .inr outcome) => ({ sys with supervisor := s, lock := none }, .inr outcome)

/-- What a task does with a section it is at: it asks for the lock, waits for it, or makes a
step under it. Nothing is answered while it has to wait. -/
def access? (sys : Supervision) (who : Holder) (sec : Section) :
    Access → Option (Supervision × Sum Access LifecycleOutcome)
  | .asking =>
      if sys.lock = none ∧ sys.queue = [] then some (sys.goOn who (sys.supervisor.enter sec))
      else some ({ sys with queue := sys.queue ++ [who] }, .inl .queued)
  | .queued =>
      if sys.lock = none ∧ sys.queue.head? = some who then
        some ({ sys with queue := sys.queue.tail }.goOn who (sys.supervisor.enter sec))
      else none
  | .holding stage => some (sys.goOn who (sys.supervisor.advance stage))

/-- One step of the loop with an index, unless it has to wait or is over. -/
def loopStep? (sys : Supervision) (i : Nat) : Option Supervision :=
  match sys.loops[i]? with
  | none => none
  | some (.attempting kind access) =>
      match sys.access? (.loop i) (.cycle kind) access with
      | none => none
      | some (sys', .inl access') => some (sys'.setLoop i (.attempting kind access'))
      | some (sys', .inr outcome) => some (sys'.setLoop i (.finished kind outcome))
  | some (.finished .start (.ok ())) => some (sys.setLoop i .waiting)
  | some (.finished .stop (.ok ())) => some (sys.setLoop i (.attempting .start .asking))
  | some (.finished kind (.error _)) =>
      if sys.supervisor.signals.stopped then some (sys.setLoop i .ended)
      else
        let (s, panics) :=
          sys.supervisor.tell (match kind with | .start => .startFailed | .stop => .stopFailed)
        let sys' := { sys with supervisor := s }
        some (sys'.setLoop i (if panics then .panicked else .sleeping kind))
  | some (.sleeping _) =>
      if sys.supervisor.signals.stopped then some (sys.setLoop i .ended) else none
  | some .waiting =>
      match sys.supervisor.signals.poll with
      | (signals, some .stop) =>
          let s := { sys.supervisor with signals := signals }
          some ({ sys with supervisor := s }.setLoop i .ended)
      | (signals, some .restart) =>
          let s := { sys.supervisor with signals := signals }
          some ({ sys with supervisor := s }.setLoop i (.attempting .stop .asking))
      | (signals, none) =>
          if signals = sys.supervisor.signals then none
          else some { sys with supervisor := { sys.supervisor with signals := signals } }
  | some .ended => none
  | some .panicked => none

/-- The end of a sleep of the loop with an index: it makes its next attempt. -/
def wake (sys : Supervision) (i : Nat) : Supervision :=
  match sys.loops[i]? with
  | some (.sleeping kind) => sys.setLoop i (.attempting kind .asking)
  | _ => sys

def isRunning (sys : Supervision) : Bool :=
  match sys.launched with
  | none => false
  | some i => (sys.loops[i]?).any fun loop => !loop.isOver

def launch (sys : Supervision) : Supervision :=
  if sys.isRunning then sys
  else
    { sys with
      loops := sys.loops ++ [.attempting .start .asking]
      launched := some sys.loops.length }

def callStep? (sys : Supervision) (j : Nat) : Option Supervision :=
  match sys.calls[j]? with
  | none => none
  | some .start => some (sys.launch.setCall j (.finished (.ok ())))
  | some .restart =>
      let s := { sys.supervisor with signals := sys.supervisor.signals.notify }
      some ({ sys with supervisor := s }.setCall j (.finished (.ok ())))
  | some (.stop access) =>
      match sys.access? (.call j) .farewell access with
      | none => none
      | some (sys', .inl access') => some (sys'.setCall j (.stop access'))
      | some (sys', .inr outcome) => some (sys'.setCall j (.reporting outcome))
  | some (.cycle kind access) =>
      match sys.access? (.call j) (.cycle kind) access with
      | none => none
      | some (sys', .inl access') => some (sys'.setCall j (.cycle kind access'))
      | some (sys', .inr outcome) => some (sys'.setCall j (.finished outcome))
  | some (.reporting (.ok ())) => some (sys.setCall j (.leaving (.ok ())))
  | some (.reporting (.error r)) =>
      let (s, panics) := sys.supervisor.tell .stopFailed
      let sys' := { sys with supervisor := s }
      some (sys'.setCall j (if panics then .panicked else .leaving (.error r)))
  | some (.leaving outcome) =>
      let sys' := { sys with launched := none }
      match sys.launched with
      | none => some (sys'.setCall j (.finished outcome))
      | some i => some (sys'.setCall j (.joining outcome i))
  | some (.joining outcome i) =>
      if (sys.loops[i]?).all Loop.isOver then some (sys.setCall j (.finished outcome)) else none
  | some (.finished _) => none
  | some .panicked => none

def addCall (sys : Supervision) (call : Call) : Supervision :=
  { sys with calls := sys.calls ++ [call] }

/-- Asks for the loop to be launched; `runtime` says whether tasks can be run at all. -/
def start (sys : Supervision) (runtime : Bool) : Supervision :=
  if sys.supervisor.signals.stopped then
    sys.addCall (.finished (.error (sys.supervisor.report .alreadyStopped)))
  else if !runtime then sys.addCall (.finished (.error (sys.supervisor.report .noRuntime)))
  else sys.addCall .start

def restart (sys : Supervision) : Supervision :=
  if sys.supervisor.signals.stopped then
    sys.addCall (.finished (.error (sys.supervisor.report .alreadyStopped)))
  else sys.addCall .restart

def stop (sys : Supervision) : Supervision := sys.addCall (.stop .asking)

def runCycle (sys : Supervision) (kind : CycleKind) : Supervision :=
  sys.addCall (.cycle kind .asking)

def endTask (id : Nat) (servers : List Server) : List Server :=
  servers.map fun server =>
    if server.id = id ∧ server.task = .serving then { server with task := .ended } else server

def endTaskIn (id : Nat) : Stage → Stage
  | .dialing server left =>
      .dialing (if server.id = id then { server with task := .ended } else server) left
  | stage => stage

def endTaskOf (id : Nat) : Access → Access
  | .holding stage => .holding (endTaskIn id stage)
  | access => access

/-- The task of a server has seen too many crashes: it asks for a restart and ends. -/
def escalate (sys : Supervision) (id : Nat) : Supervision :=
  let s := sys.supervisor
  { sys with
    supervisor :=
      { s with
        signals := s.signals.requestRestart.1
        servers := endTask id s.servers }
    loops := sys.loops.map fun loop =>
      match loop with
      | .attempting kind access => .attempting kind (endTaskOf id access)
      | loop => loop
    calls := sys.calls.map fun call =>
      match call with
      | .cycle kind access => .cycle kind (endTaskOf id access)
      | call => call }

end Supervision

end PluginKit
