import PluginKit.Lifecycle.Supervisor

/-!
# Start and stop cycles

What is done under the cycle lock: a start cycle, a stop cycle, and the last stop of all. Each
is a sequence of stages, and others may act between two stages, though not under the lock.

A start cycle stops the plugin, starts it, readies the socket paths, and binds and dials one
socket after the other; once the plugin has been started, a failure rolls back. A rollback and
a stop stop every server, remove the socket files and stop the plugin.
-/

namespace PluginKit

inductive CycleKind where
  | start
  | stop
deriving DecidableEq, Repr

/-- What may be done under the lock. -/
inductive Section where
  | cycle (kind : CycleKind)
  | farewell
deriving DecidableEq, Repr

/-- Why servers are stopped. -/
inductive Purpose where
  | rollback (cause : LifecycleReport)
  | cycle
  | farewell
deriving DecidableEq, Repr

/-- What comes next under the lock: binding the sockets that are left, dialing a server that
was just bound, stopping a server that could not be dialed, or stopping the bound servers. -/
inductive Stage where
  | binding (left : List Path)
  | dialing (server : Server) (left : List Path)
  | giveUp (server : Server) (cause : LifecycleReport)
  | draining (purpose : Purpose)
deriving DecidableEq, Repr

/-- Either there is a next stage, or the section is over. -/
abbrev Progress := Sum Stage LifecycleOutcome

namespace Supervisor

def stopFirst : List Server → List Server
  | [] => []
  | server :: rest =>
      if server.task = .stopped then server :: stopFirst rest
      else { server with task := .stopped } :: rest

def allStopped (servers : List Server) : Bool :=
  servers.all fun server => server.task == .stopped

def conclude (s : Supervisor) (outcome : LifecycleOutcome) :
    Purpose → Supervisor × LifecycleOutcome
  | .rollback cause => ({ s with state := .idle }, .error cause)
  | .cycle =>
      match outcome with
      | .ok () => ({ s with state := .idle }, .ok ())
      | .error r => (s, .error r)
  | .farewell =>
      ({ s with state := .permanentlyStopped, signals := s.signals.requestStop }, outcome)

/-- One step of a start cycle, a stop cycle or the last stop. -/
def advance (s : Supervisor) : Stage → Supervisor × Progress
  | .binding [] => ({ s with state := .serving }, .inr (.ok ()))
  | .binding (socket :: left) =>
      match s.files.bindSocket socket (some s.nextServer) with
      | .error e =>
          (s, .inl (.draining (.rollback ⟨⟨s.name, .bind socket⟩, [], [e.message]⟩)))
      | .ok files =>
          ({ s with files := files, nextServer := s.nextServer + 1 },
            .inl (.dialing { id := s.nextServer, socket := socket } left))
  | .dialing server left =>
      match s.dial [server] server.socket with
      | .ok () => ({ s with servers := s.servers ++ [server] }, .inl (.binding left))
      | .error e =>
          (s, .inl (.giveUp server
            ((s.report (.dialCheck server.socket)).attach e.message)))
  | .giveUp _ cause => (s, .inl (.draining (.rollback cause)))
  | .draining purpose =>
      if allStopped s.servers then
        let (s', outcome) := { s with servers := [] }.tearDown
        let (s'', result) := s'.conclude outcome purpose
        (s'', .inr result)
      else ({ s with servers := stopFirst s.servers }, .inl (.draining purpose))

def enterStart (s : Supervisor) : Supervisor × Progress :=
  if s.state = .permanentlyStopped then (s, .inr (.error (s.report .alreadyStopped)))
  else if s.sockets = [] then (s, .inr (.error (s.report .emptySockets)))
  else
    let (s₁, _) := { s with state := .starting }.stopPlugin
    match s₁.startPlugin with
    | (s₂, .error r) => ({ s₂ with state := .idle }, .inr (.error r))
    | (s₂, .ok ()) =>
        let prepared := Socket.prepare s₂.name s₂.files s₂.sockets
        let s₃ := { s₂ with files := prepared.files, sockets := prepared.sockets }
        match prepared.outcome with
        | .error r => (s₃, .inl (.draining (.rollback r)))
        | .ok () => (s₃, .inl (.binding prepared.sockets))

def enterStop (s : Supervisor) : Supervisor × Progress :=
  if s.state = .permanentlyStopped then (s, .inr (.error (s.report .alreadyStopped)))
  else ({ s with state := .stopping }, .inl (.draining .cycle))

/-- The beginning of the last stop; there is nothing to do when it has been made before. -/
def enterFarewell (s : Supervisor) : Supervisor × Progress :=
  if s.state = .permanentlyStopped then (s, .inr (.ok ()))
  else ({ s with state := .stopping }, .inl (.draining .farewell))

def enter (s : Supervisor) : Section → Supervisor × Progress
  | .cycle .start => s.enterStart
  | .cycle .stop => s.enterStop
  | .farewell => s.enterFarewell

/-- Whether a stage has to wait for something other than the lock. -/
def awaits (s : Supervisor) : Stage → Bool
  | .binding _ => false
  | .dialing _ _ => true
  | .giveUp _ _ => true
  | .draining _ => !allStopped s.servers

end Supervisor

end PluginKit
