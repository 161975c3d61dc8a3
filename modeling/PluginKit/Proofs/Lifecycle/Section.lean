import PluginKit.Lifecycle.Cycle

/-!
# What is done under the lock

A case for each way in which a section can begin and for each way in which a stage can go on,
with what it does to the supervisor. Everything later about cycles goes through these cases.
-/

namespace PluginKit

def Event.isCall : Event → Bool
  | .metric _ => false
  | _ => true

namespace Supervisor

/-- The calls of the plugin so far, the latest first. -/
def calls (s : Supervisor) : List Event := s.history.filter Event.isCall

def nextStart (s : Supervisor) : CallOutcome := s.startScript.headD .ok

def nextStop (s : Supervisor) : CallOutcome := s.stopScript.headD .ok

def clears (s : Supervisor) : Bool := (Socket.removeAll s.name s.files s.sockets).2.isOk

def prepared (s : Supervisor) : Socket.Prepared := Socket.prepare s.name s.files s.sockets

/-- The supervisor in a start cycle after both calls of the plugin. -/
def reset (s : Supervisor) : Supervisor := { s with state := .starting }.callStop.1.callStart.1

/-! ## Calls of the plugin -/

theorem callStop_fst (s : Supervisor) :
    s.callStop.1 =
      { s with
        stopScript := s.stopScript.tail
        plugin := if s.nextStop = .ok then s.plugin.stop else s.plugin
        history := .stop s.nextStop :: s.history } := rfl

@[simp] theorem stopPlugin_fst (s : Supervisor) : s.stopPlugin.1 = s.callStop.1 := by
  unfold stopPlugin
  rcases s.callStop with ⟨s', _ | _ | _⟩ <;> rfl

@[simp] theorem startPlugin_fst (s : Supervisor) : s.startPlugin.1 = s.callStart.1 := by
  unfold startPlugin
  rcases s.callStart with ⟨s', _ | _ | _⟩ <;> rfl

theorem startPlugin_isOk (s : Supervisor) : s.startPlugin.2.isOk = decide (s.nextStart = .ok) := by
  have h : s.callStart.2 = s.nextStart := rfl
  unfold startPlugin
  rw [← h]
  rcases s.callStart with ⟨s', _ | _ | _⟩ <;> rfl

@[simp] theorem reset_state (s : Supervisor) : s.reset.state = .starting := rfl
@[simp] theorem reset_sockets (s : Supervisor) : s.reset.sockets = s.sockets := rfl
@[simp] theorem reset_servers (s : Supervisor) : s.reset.servers = s.servers := rfl
@[simp] theorem reset_nextServer (s : Supervisor) : s.reset.nextServer = s.nextServer := rfl
@[simp] theorem reset_startScript (s : Supervisor) :
    s.reset.startScript = s.startScript.tail := rfl
@[simp] theorem reset_stopScript (s : Supervisor) :
    s.reset.stopScript = s.stopScript.tail := rfl
@[simp] theorem reset_signals (s : Supervisor) : s.reset.signals = s.signals := rfl
@[simp] theorem reset_history (s : Supervisor) :
    s.reset.history = .start s.nextStart :: .stop s.nextStop :: s.history := rfl
theorem reset_calls (s : Supervisor) :
    s.reset.calls = .start s.nextStart :: .stop s.nextStop :: s.calls := rfl

/-! ## Beginning a start cycle -/

/-- The ways in which a start cycle begins: refused after the last stop, refused without
sockets, over at once since the plugin did not start, about to roll back since the paths could
not be readied, or about to bind. -/
inductive StartOpens (s : Supervisor) : Supervisor × Progress → Prop
  | refused (h : s.state = .permanentlyStopped) :
      StartOpens s (s, .inr (.error (s.report .alreadyStopped)))
  | bare (h : s.state ≠ .permanentlyStopped) (none : s.sockets = []) :
      StartOpens s (s, .inr (.error (s.report .emptySockets)))
  | failed {r : LifecycleReport} (h : s.state ≠ .permanentlyStopped) (some : s.sockets ≠ [])
      (fails : s.nextStart ≠ .ok) :
      StartOpens s ({ s.reset with state := .idle }, .inr (.error r))
  | unprepared {r : LifecycleReport} (h : s.state ≠ .permanentlyStopped) (some : s.sockets ≠ [])
      (starts : s.nextStart = .ok) (fails : s.prepared.outcome = .error r) :
      StartOpens s
        ({ s.reset with files := s.prepared.files, sockets := s.prepared.sockets },
          .inl (.draining (.rollback r)))
  | prepared (h : s.state ≠ .permanentlyStopped) (some : s.sockets ≠ [])
      (starts : s.nextStart = .ok) (works : s.prepared.outcome = .ok ()) :
      StartOpens s
        ({ s.reset with files := s.prepared.files, sockets := s.prepared.sockets },
          .inl (.binding s.prepared.sockets))

theorem enterStart_cases {s : Supervisor} {p : Supervisor × Progress} (h : s.enterStart = p) :
    StartOpens s p := by
  subst h
  unfold enterStart
  by_cases hperm : s.state = .permanentlyStopped
  · rw [if_pos hperm]
    exact .refused hperm
  rw [if_neg hperm]
  by_cases hsome : s.sockets = []
  · rw [if_pos hsome]
    exact .bare hperm hsome
  rw [if_neg hsome]
  have hstop : ({ s with state := .starting } : Supervisor).stopPlugin.1 =
      ({ s with state := .starting } : Supervisor).callStop.1 := stopPlugin_fst _
  generalize ({ s with state := .starting } : Supervisor).stopPlugin = stopped at hstop
  obtain ⟨s₁, o⟩ := stopped
  simp only at hstop ⊢
  have hreset : s₁.startPlugin.1 = s.reset := by rw [startPlugin_fst, hstop]; rfl
  have hok : s₁.startPlugin.2.isOk = decide (s.nextStart = .ok) := by
    rw [startPlugin_isOk, hstop]; rfl
  generalize s₁.startPlugin = started at hreset hok
  obtain ⟨s₂, outcome⟩ := started
  simp only at hreset hok
  subst hreset
  cases outcome with
  | error r =>
      have hfails : s.nextStart ≠ .ok := by simpa [Except.isOk, Except.toBool] using hok
      exact .failed hperm hsome hfails
  | ok u =>
      have hstarts : s.nextStart = .ok := by simpa [Except.isOk, Except.toBool] using hok
      have hprep : Socket.prepare s.reset.name s.reset.files s.reset.sockets = s.prepared := rfl
      simp only [hprep]
      cases hout : s.prepared.outcome with
      | error r => exact .unprepared hperm hsome hstarts hout
      | ok _ => exact .prepared hperm hsome hstarts hout

/-! ## Beginning a stop -/

theorem enterStop_of_stopped {s : Supervisor} (h : s.state = .permanentlyStopped) :
    s.enterStop = (s, .inr (.error (s.report .alreadyStopped))) := if_pos h

theorem enterStop_of_not_stopped {s : Supervisor} (h : s.state ≠ .permanentlyStopped) :
    s.enterStop = ({ s with state := .stopping }, .inl (.draining .cycle)) := if_neg h

theorem enterFarewell_of_stopped {s : Supervisor} (h : s.state = .permanentlyStopped) :
    s.enterFarewell = (s, .inr (.ok ())) := if_pos h

theorem enterFarewell_of_not_stopped {s : Supervisor} (h : s.state ≠ .permanentlyStopped) :
    s.enterFarewell = ({ s with state := .stopping }, .inl (.draining .farewell)) := if_neg h

/-- A stop that is not the second takes the lock to stop the servers. -/
theorem enter_of_not_stopped {s : Supervisor} {sec : Section} (h : s.state ≠ .permanentlyStopped)
    (hsec : sec ≠ .cycle .start) :
    ∃ purpose, s.enter sec = ({ s with state := .stopping }, .inl (.draining purpose)) := by
  rcases sec with (_ | _) | _
  · contradiction
  · exact ⟨_, enterStop_of_not_stopped h⟩
  · exact ⟨_, enterFarewell_of_not_stopped h⟩

def refusal (s : Supervisor) : Section → LifecycleOutcome
  | .cycle _ => .error (s.report .alreadyStopped)
  | .farewell => .ok ()

theorem enter_of_stopped {s : Supervisor} (h : s.state = .permanentlyStopped) (sec : Section) :
    s.enter sec = (s, .inr (s.refusal sec)) := by
  rcases sec with (_ | _) | _
  · exact if_pos h
  · exact enterStop_of_stopped h
  · exact enterFarewell_of_stopped h

/-! ## Stages -/

/-- The state that a section leaves once the servers were stopped and the rest was tried. -/
def leaves (before : LifecycleState) (outcome : LifecycleOutcome) : Purpose → LifecycleState
  | .rollback _ => .idle
  | .cycle => if outcome.isOk then .idle else before
  | .farewell => .permanentlyStopped

/-- The end of a section in which the servers were stopped: the plugin is stopped if the socket
files could be removed. -/
structure Drained (s : Supervisor) (purpose : Purpose) (s' : Supervisor)
    (outcome : LifecycleOutcome) : Prop where
  state : s'.state = leaves s.state outcome purpose
  sockets : s'.sockets = s.sockets
  servers : s'.servers = []
  nextServer : s'.nextServer = s.nextServer
  stopped : s'.signals.stopped = (s.signals.stopped || decide (purpose = .farewell))
  history : s'.history = if s.clears then .stop s.nextStop :: s.history else s.history

/-- The ways in which a stage goes on. -/
inductive Advances (s : Supervisor) : Stage → Supervisor × Progress → Prop
  | serves : Advances s (.binding []) ({ s with state := .serving }, .inr (.ok ()))
  | binds {socket : Path} {left : List Path} {files : FileSystem} :
      Advances s (.binding (socket :: left))
        ({ s with files := files, nextServer := s.nextServer + 1 },
          .inl (.dialing { id := s.nextServer, socket := socket } left))
  | unbound {socket : Path} {left : List Path} {r : LifecycleReport} :
      Advances s (.binding (socket :: left)) (s, .inl (.draining (.rollback r)))
  | dialed {server : Server} {left : List Path} :
      Advances s (.dialing server left)
        ({ s with servers := s.servers ++ [server] }, .inl (.binding left))
  | undialed {server : Server} {left : List Path} {r : LifecycleReport} :
      Advances s (.dialing server left) (s, .inl (.giveUp server r))
  | givesUp {server : Server} {r : LifecycleReport} :
      Advances s (.giveUp server r) (s, .inl (.draining (.rollback r)))
  | drains {purpose : Purpose} (h : allStopped s.servers = false) :
      Advances s (.draining purpose)
        ({ s with servers := stopFirst s.servers }, .inl (.draining purpose))
  | drained {purpose : Purpose} {s' : Supervisor} {outcome : LifecycleOutcome}
      (h : allStopped s.servers = true) (end_ : Drained s purpose s' outcome) :
      Advances s (.draining purpose) (s', .inr outcome)

/-- The supervisor without its servers, its socket files removed and its plugin stopped as far
as that works. -/
def cleared (s : Supervisor) : Supervisor × LifecycleOutcome := { s with servers := [] }.tearDown

/-- What that leaves. -/
structure Torn (s t : Supervisor) : Prop where
  state : t.state = s.state
  sockets : t.sockets = s.sockets
  servers : t.servers = []
  nextServer : t.nextServer = s.nextServer
  signals : t.signals = s.signals
  history : t.history = if s.clears then .stop s.nextStop :: s.history else s.history

theorem cleared_torn (s : Supervisor) : Torn s s.cleared.1 := by
  unfold cleared tearDown
  have hclears : s.clears =
      (Socket.removeAll ({ s with servers := [] } : Supervisor).name s.files s.sockets).2.isOk :=
    rfl
  generalize Socket.removeAll ({ s with servers := [] } : Supervisor).name s.files s.sockets =
    removed at hclears
  obtain ⟨files, r | u⟩ := removed
  · have hfails : s.clears = false := hclears
    exact ⟨rfl, rfl, rfl, rfl, rfl, by rw [hfails]; rfl⟩
  · have hworks : s.clears = true := hclears
    simp only [stopPlugin_fst, callStop_fst]
    exact ⟨rfl, rfl, rfl, rfl, rfl, by rw [hworks]; rfl⟩

theorem drained_conclude (s : Supervisor) (purpose : Purpose) :
    Drained s purpose (s.cleared.1.conclude s.cleared.2 purpose).1
      (s.cleared.1.conclude s.cleared.2 purpose).2 := by
  have htorn := s.cleared_torn
  generalize s.cleared = cleared at htorn
  obtain ⟨t, outcome⟩ := cleared
  have hstopped : t.signals.stopped = s.signals.stopped := by rw [htorn.signals]
  have hsame : t.signals.stopped = (s.signals.stopped || false) := by
    rw [Bool.or_false, hstopped]
  cases purpose with
  | rollback cause =>
      exact ⟨rfl, htorn.sockets, htorn.servers, htorn.nextServer, hsame, htorn.history⟩
  | cycle =>
      cases outcome with
      | ok u => exact ⟨rfl, htorn.sockets, htorn.servers, htorn.nextServer, hsame, htorn.history⟩
      | error r =>
          exact ⟨htorn.state, htorn.sockets, htorn.servers, htorn.nextServer, hsame,
            htorn.history⟩
  | farewell =>
      have hnow : t.signals.requestStop.stopped = (s.signals.stopped || true) := by simp
      exact ⟨rfl, htorn.sockets, htorn.servers, htorn.nextServer, hnow, htorn.history⟩

theorem advance_cases {s : Supervisor} {stage : Stage} {p : Supervisor × Progress}
    (h : s.advance stage = p) : Advances s stage p := by
  subst h
  cases stage with
  | binding left =>
      cases left with
      | nil => exact .serves
      | cons socket left =>
          simp only [advance]
          cases s.files.bindSocket socket (some s.nextServer) with
          | error e => exact .unbound
          | ok files => exact .binds
  | dialing server left =>
      simp only [advance]
      cases s.dial [server] server.socket with
      | ok u => exact .dialed
      | error e => exact .undialed
  | giveUp server r => exact .givesUp
  | draining purpose =>
      cases h : allStopped s.servers with
      | false =>
          have hadv : s.advance (.draining purpose) =
              ({ s with servers := stopFirst s.servers }, .inl (.draining purpose)) := by
            simp [advance, h]
          exact hadv ▸ .drains h
      | true =>
          have hadv : s.advance (.draining purpose) =
              ((s.cleared.1.conclude s.cleared.2 purpose).1,
                .inr (s.cleared.1.conclude s.cleared.2 purpose).2) := by
            simp [advance, h, cleared]
          exact hadv ▸ .drained h (drained_conclude s purpose)

end Supervisor

end PluginKit
