import PluginKit.Proofs.Lifecycle.Coherence
import PluginKit.Proofs.Socket.Binding

/-!
# All sockets or none

As long as nobody else changes the files, a start cycle that cannot bind or dial one of its sockets
takes back all that it has bound, and answers with that failure. The files are then those that
readying the paths has left.
-/

namespace PluginKit

open FileSystem (Absent)
open Socket (Laid)

def Server.binding (server : Server) : Path × Nat := (server.socket, server.id)

namespace Supervisor

variable {s t : Supervisor}

/-- The bind or the dial check that fails at a stage: at which socket, and how that is reported. -/
def failure? (s : Supervisor) : Stage → Option (Path × LifecycleReport)
  | .binding (socket :: _) =>
      match s.files.bindSocket socket (some s.nextServer) with
      | .error e => some (socket, ⟨⟨s.name, .bind socket⟩, [], [e.message]⟩)
      | .ok _ => none
  | .dialing server _ =>
      match s.dial [server] server.socket with
      | .error e =>
          some (server.socket, (s.report (.dialCheck server.socket)).attach e.message)
      | .ok () => none
  | _ => none

/-- The servers, the `further` ones included, are bound to the first sockets, and nothing is at the
sockets but that. -/
structure Laying (s : Supervisor) (further : List Server) (left : List Path) : Prop where
  sockets : s.sockets = (s.servers ++ further).map Server.socket ++ left
  laid : ∃ base, (∀ p ∈ s.sockets, Absent base p) ∧
    Laid base ((s.servers ++ further).map Server.binding) s.files

/-- The socket files are those of the first sockets, and nothing else is at the sockets. -/
def Undoable (s : Supervisor) : Prop :=
  ∃ base bound left, s.sockets = bound.map Prod.fst ++ left ∧
    (∀ p ∈ s.sockets, Absent base p) ∧ Laid base bound s.files

/-- Where a start cycle is with its sockets, given its failed bind or dial check, if any. -/
def Underway (failed : Option (Path × LifecycleReport)) (s : Supervisor) : Stage → Prop
  | .binding left => failed = none ∧ s.Laying [] left
  | .dialing server left => failed = none ∧ s.Laying [server] left
  | .giveUp _ cause => (∃ socket, failed = some (socket, cause)) ∧ s.Undoable
  | .draining (.rollback cause) =>
      ∀ socket r, failed = some (socket, r) → cause = r ∧ s.Undoable
  | .draining _ => True

/-- The plugin was stopped, and then started with success. -/
def Started (s : Supervisor) : Prop :=
  ∃ outcome earlier, s.calls = .start .ok :: .stop outcome :: earlier

theorem map_binding_fst (servers : List Server) :
    (servers.map Server.binding).map Prod.fst = servers.map Server.socket := by
  rw [List.map_map]
  rfl

theorem Laying.undoable {further : List Server} {left : List Path} (h : s.Laying further left) :
    s.Undoable := by
  obtain ⟨base, habsent, hlaid⟩ := h.laid
  exact ⟨base, _, left, by rw [map_binding_fst]; exact h.sockets, habsent, hlaid⟩

theorem Laying.of_same {further further' : List Server} {left : List Path}
    (h : s.Laying further left) (hfiles : t.files = s.files) (hsockets : t.sockets = s.sockets)
    (hbinding : (t.servers ++ further').map Server.binding =
      (s.servers ++ further).map Server.binding) : t.Laying further' left := by
  obtain ⟨base, habsent, hlaid⟩ := h.laid
  constructor
  · rw [hsockets, ← map_binding_fst, hbinding, map_binding_fst]
    exact h.sockets
  · exact ⟨base, hsockets ▸ habsent, by rw [hfiles, hbinding]; exact hlaid⟩

theorem Undoable.of_same (h : s.Undoable) (hfiles : t.files = s.files)
    (hsockets : t.sockets = s.sockets) : t.Undoable := by
  obtain ⟨base, bound, left, hbound, habsent, hlaid⟩ := h
  exact ⟨base, bound, left, hsockets ▸ hbound, hsockets ▸ habsent, hfiles ▸ hlaid⟩

theorem Underway.of_same {failed : Option (Path × LifecycleReport)} {stage : Stage}
    (h : s.Underway failed stage) (hfiles : t.files = s.files) (hsockets : t.sockets = s.sockets)
    (hbinding : t.servers.map Server.binding = s.servers.map Server.binding) :
    t.Underway failed stage := by
  cases stage with
  | binding left =>
      obtain ⟨hnone, hlaying⟩ := h
      exact ⟨hnone, hlaying.of_same hfiles hsockets (by simp [hbinding])⟩
  | dialing server left =>
      obtain ⟨hnone, hlaying⟩ := h
      exact ⟨hnone, hlaying.of_same hfiles hsockets (by simp [hbinding])⟩
  | giveUp server cause =>
      obtain ⟨hfailed, hundoable⟩ := h
      exact ⟨hfailed, hundoable.of_same hfiles hsockets⟩
  | draining purpose =>
      cases purpose with
      | rollback cause =>
          intro socket r hfailed
          obtain ⟨hcause, hundoable⟩ := h socket r hfailed
          exact ⟨hcause, hundoable.of_same hfiles hsockets⟩
      | cycle => trivial
      | farewell => trivial

theorem underway_endTaskIn {failed : Option (Path × LifecycleReport)} {stage : Stage}
    (h : s.Underway failed stage) (id : Nat) :
    s.Underway failed (Supervision.endTaskIn id stage) := by
  cases stage with
  | dialing server left =>
      obtain ⟨hnone, hlaying⟩ := h
      simp only [Supervision.endTaskIn]
      split
      · exact ⟨hnone, hlaying.of_same rfl rfl (by simp [Server.binding])⟩
      · exact ⟨hnone, hlaying⟩
  | _ => exact h

/-! ## One stage -/

/-- A start cycle has bound nothing yet when the paths are ready. -/
theorem underway_of_enterStart {next : Stage} (hservers : s.servers = [])
    (hnext : s.enterStart.2 = .inl next) : s.enterStart.1.Underway none next ∧
      s.enterStart.1.Started := by
  generalize hp : s.enterStart = p at hnext ⊢
  have hopens := enterStart_cases hp
  cases hopens with
  | prepared hperm hsome hstarts hworks =>
      cases hnext
      refine ⟨⟨rfl, ?_, s.prepared.files, ?_, ?_⟩, s.nextStop, s.calls, ?_⟩
      · simp [hservers]
      · exact Socket.absent_of_prepare hworks
      · simpa [hservers] using Laid.nil s.prepared.files
      · exact hstarts ▸ s.reset_calls
  | unprepared hperm hsome hstarts hfails =>
      cases hnext
      exact ⟨nofun, s.nextStop, s.calls, hstarts ▸ s.reset_calls⟩
  | _ => simp at hnext

/-- A stage that fails is followed by the rollback, or by the stop of the one server. -/
theorem advance_of_failure {failed : Option (Path × LifecycleReport)} {stage next : Stage}
    {socket : Path} {r : LifecycleReport} (h : s.Underway failed stage)
    (hfailure : s.failure? stage = some (socket, r))
    (hnext : (s.advance stage).2 = .inl next) :
    (s.advance stage).1.Underway (some (socket, r)) next := by
  cases stage with
  | binding left =>
      cases left with
      | nil => simp [failure?] at hfailure
      | cons first left =>
          obtain ⟨-, hlaying⟩ := h
          simp only [failure?] at hfailure
          cases hbind : s.files.bindSocket first (some s.nextServer) with
          | ok files => simp [hbind] at hfailure
          | error e =>
              simp only [hbind, Option.some.injEq, Prod.mk.injEq] at hfailure
              simp only [advance, hbind, Sum.inl.injEq] at hnext ⊢
              subst hnext
              intro socket' r' heq
              cases heq
              exact ⟨hfailure.2, hlaying.undoable⟩
  | dialing server left =>
      obtain ⟨-, hlaying⟩ := h
      simp only [failure?] at hfailure
      cases hdial : s.dial [server] server.socket with
      | ok u => simp [hdial] at hfailure
      | error e =>
          simp only [hdial, Option.some.injEq, Prod.mk.injEq] at hfailure
          simp only [advance, hdial, Sum.inl.injEq] at hnext ⊢
          subst hnext
          exact ⟨⟨socket, by rw [hfailure.2]⟩, hlaying.undoable⟩
  | giveUp server cause => simp [failure?] at hfailure
  | draining purpose => simp [failure?] at hfailure

/-- A stage that does not fail binds one socket more, or takes back further. -/
theorem advance_of_no_failure {failed : Option (Path × LifecycleReport)} {stage next : Stage}
    (h : s.Underway failed stage) (named : ∀ p ∈ s.sockets, p.chars ≠ [])
    (hfailure : s.failure? stage = none) (hnext : (s.advance stage).2 = .inl next) :
    (s.advance stage).1.Underway failed next := by
  cases stage with
  | binding left =>
      cases left with
      | nil => simp [advance] at hnext
      | cons first left =>
          obtain ⟨hnone, hlaying⟩ := h
          simp only [failure?] at hfailure
          cases hbind : s.files.bindSocket first (some s.nextServer) with
          | error e => simp [hbind] at hfailure
          | ok files =>
              simp only [advance, hbind, Sum.inl.injEq] at hnext ⊢
              subst hnext
              obtain ⟨base, habsent, hlaid⟩ := hlaying.laid
              have hsockets := hlaying.sockets
              have hnamed : first.chars ≠ [] := named first (by rw [hsockets]; simp)
              refine ⟨hnone, by simpa using hsockets, base, habsent, ?_⟩
              simpa [Server.binding] using hlaid.concat hbind hnamed
  | dialing server left =>
      obtain ⟨hnone, hlaying⟩ := h
      simp only [failure?] at hfailure
      cases hdial : s.dial [server] server.socket with
      | error e => simp [hdial] at hfailure
      | ok u =>
          simp only [advance, hdial, Sum.inl.injEq] at hnext ⊢
          subst hnext
          exact ⟨hnone, hlaying.of_same rfl rfl (by simp)⟩
  | giveUp server cause =>
      obtain ⟨⟨socket, hfailed⟩, hundoable⟩ := h
      simp only [advance, Sum.inl.injEq] at hnext ⊢
      subst hnext
      intro socket' r heq
      rw [hfailed] at heq
      cases heq
      exact ⟨rfl, hundoable⟩
  | draining purpose =>
      generalize hp : s.advance (.draining purpose) = p at hnext ⊢
      have hadv := advance_cases hp
      cases hadv with
      | drains hleft =>
          cases hnext
          cases purpose with
          | rollback cause =>
              intro socket r hfailed
              obtain ⟨hcause, hundoable⟩ := h socket r hfailed
              exact ⟨hcause, hundoable.of_same rfl rfl⟩
          | cycle => trivial
          | farewell => trivial
      | drained hall hend => simp at hnext

/-- What a start cycle leaves that has taken everything back: nothing at any socket, no server, an
idle supervisor, and the plugin stopped after it was started. -/
structure NoneBound (s : Supervisor) : Prop where
  state : s.state = .idle
  servers : s.servers = []
  absent : ∀ p ∈ s.sockets, ∀ follow, s.files.lookupLink follow p = .error .notFound
  calls : ∃ last first earlier, s.calls = .stop last :: .start .ok :: .stop first :: earlier

/-- What a successful start cycle leaves: one server for each socket, with a number of its own, and
at each socket the socket file of its server. -/
structure AllBound (s : Supervisor) : Prop where
  state : s.state = .serving
  sockets : s.servers.map Server.socket = s.sockets
  distinct : (s.servers.map Server.id).Nodup
  bound : ∀ server ∈ s.servers, ∃ loc mode, ∀ follow,
    s.files.lookupLink follow server.socket = .ok (loc, ⟨.socket (some server.id), mode⟩)

/-- The end of a rollback that finds its socket files answers with the failure that caused it. -/
theorem advance_rollback {cause : LifecycleReport} {outcome : LifecycleOutcome}
    (hundoable : s.Undoable) (hstarted : s.Started)
    (hover : (s.advance (.draining (.rollback cause))).2 = .inr outcome) :
    outcome = .error cause ∧ (s.advance (.draining (.rollback cause))).1.NoneBound := by
  obtain ⟨base, bound, left, hsockets, habsent, hlaid⟩ := hundoable
  obtain ⟨first, earlier, hcalls⟩ := hstarted
  have hleft : ∀ q ∈ left, Absent base q := by
    intro q hq
    exact habsent q (hsockets ▸ List.mem_append_right _ hq)
  have hremoved := hlaid.removeAll s.name hleft
  rw [← hsockets] at hremoved
  have hname : ({ s with servers := [] } : Supervisor).name = s.name := rfl
  cases hall : allStopped s.servers with
  | false => simp [advance, hall] at hover
  | true =>
      simp only [advance, hall, if_true, tearDown, hname, hremoved, conclude, stopPlugin_fst,
        Sum.inr.injEq] at hover ⊢
      refine ⟨hover.symm, rfl, rfl, fun p hp follow => ?_, s.nextStop, first, earlier, ?_⟩
      · exact (habsent p hp).lookupLink follow
      · rw [← hcalls]
        rfl

/-- A start cycle that ends after a failure has taken everything back. -/
theorem noneBound_of_advance {stage : Stage} {socket : Path} {r : LifecycleReport}
    {outcome : LifecycleOutcome} (h : s.Underway (some (socket, r)) stage) (hstarted : s.Started)
    (hoccurs : stage.occursIn (.cycle .start) = true)
    (hover : (s.advance stage).2 = .inr outcome) :
    outcome = .error r ∧ (s.advance stage).1.NoneBound := by
  cases stage with
  | binding left => exact absurd h.1 (by simp)
  | dialing server left => exact absurd h.1 (by simp)
  | giveUp server cause => simp [advance] at hover
  | draining purpose =>
      cases purpose with
      | rollback cause =>
          obtain ⟨rfl, hundoable⟩ := h socket r rfl
          exact advance_rollback hundoable hstarted hover
      | cycle => simp [Stage.occursIn] at hoccurs
      | farewell => simp [Stage.occursIn] at hoccurs

theorem Laying.found {left : List Path} (h : s.Laying [] left) {server : Server}
    (hserver : server ∈ s.servers) : ∃ loc mode, ∀ follow,
      s.files.lookupLink follow server.socket = .ok (loc, ⟨.socket (some server.id), mode⟩) := by
  obtain ⟨base, -, hlaid⟩ := h.laid
  have hmem : (server.socket, server.id) ∈ (s.servers ++ []).map Server.binding :=
    List.mem_map.mpr ⟨server, by simpa using hserver, rfl⟩
  obtain ⟨loc, mode, harrive⟩ := hlaid.arrive hmem
  exact ⟨loc, mode, fun follow => FileSystem.lookupLink_of_leaf harrive rfl follow⟩

/-- A start cycle that ends well has bound a server at each of its sockets. -/
theorem served_of_advance {failed : Option (Path × LifecycleReport)} {stage : Stage}
    (h : s.Underway failed stage) (hoccurs : stage.occursIn (.cycle .start) = true)
    (hover : (s.advance stage).2 = .inr (.ok ())) :
    (s.advance stage).1.state = .serving ∧ (s.advance stage).1.Laying [] [] := by
  generalize hp : s.advance stage = p at hover ⊢
  have hadv := advance_cases hp
  cases hadv with
  | serves => exact ⟨rfl, h.2.of_same rfl rfl rfl⟩
  | @drained purpose t outcome hall hend =>
      cases purpose with
      | rollback cause =>
          have hcause : (s.advance (.draining (.rollback cause))).2 = .inr (.error cause) := by
            simp [advance, hall, conclude]
          rw [hp, hover] at hcause
          cases hcause
      | cycle => simp [Stage.occursIn] at hoccurs
      | farewell => simp [Stage.occursIn] at hoccurs
  | _ => simp at hover

end Supervisor

namespace Supervision

variable {sys sys' : Supervision} {who : Holder} {a : Action}
  {found : Option (Supervision × Action)}

/-- The bind or dial check of a start cycle that fails at an action. -/
def failure? (sys : Supervision) (a : Action) : Option (Path × LifecycleReport) :=
  match sys.turnOf? a with
  | some (.advances (.cycle .start) stage) => sys.supervisor.failure? stage
  | _ => none

/-- Whether an action begins a start cycle, or its bind or dial check fails there. -/
def decides (sys : Supervision) (a : Action) : Bool := sys.opens a || (sys.failure? a).isSome

/-- The failed bind or dial check of the latest start cycle. -/
def failed? (found : Option (Supervision × Action)) : Option (Path × LifecycleReport) :=
  found.bind fun item => item.1.failure? item.2

/-! ## Files are changed under the lock only -/

theorem AccessStep.supervisor_of_idle {sec : Section} {access : Access}
    {p : Supervision × Sum Access LifecycleOutcome} (h : AccessStep sys who sec access p)
    (hplace : sys.place who = some (sec, access)) (hidle : sys.turn? who = none) :
    p.1.supervisor = sys.supervisor := by
  cases h with
  | queues hbusy => rfl
  | enters hlock hqueue => simp [turn?, hplace, hlock, hqueue] at hidle
  | admitted hlock hhead => simp [turn?, hplace, hlock, hhead] at hidle
  | advances => simp [turn?, hplace] at hidle

theorem files_of_idle (hstep : sys.act? a = some sys') (hidle : sys.turnOf? a = none)
    (closed : ∀ files, a ≠ .outside files) : sys'.supervisor.files = sys.supervisor.files := by
  cases act?_cases hstep with
  | @loop i old new mid hloop hmove =>
      have hplace : sys.place (.loop i) = old.section? := by simp [place, hloop]
      have hgoal : (mid.setLoop i new).supervisor = mid.supervisor := rfl
      rw [hgoal]
      cases hmove with
      | section_ hacc => rw [hacc.supervisor_of_idle hplace hidle]
      | tells hstopped => rw [told, Supervisor.tell_fst]
      | _ => rfl
  | @call j old new mid hcall hmove =>
      have hplace : sys.place (.call j) = old.section? := by simp [place, hcall]
      have hgoal : (mid.setCall j new).supervisor = mid.supervisor := rfl
      rw [hgoal]
      cases hmove with
      | launches => rw [launch_supervisor]
      | stop hacc => rw [hacc.supervisor_of_idle hplace hidle]
      | cycle hacc => rw [hacc.supervisor_of_idle hplace hidle]
      | tells => rw [told, Supervisor.tell_fst]
      | _ => rfl
  | @outside files => exact absurd rfl (closed files)
  | _ => rfl

/-! ## Runs -/

/-- How a run and its latest start cycle go together: where that is with its sockets, after it has
started the plugin. -/
def Founded (found : Option (Supervision × Action)) (sys : Supervision) : Prop :=
  ∀ who stage, sys.stage? who = some (.cycle .start, stage) →
    sys.supervisor.Underway (failed? found) stage ∧ sys.supervisor.Started

theorem Founded.of_same (h : Founded found sys)
    (hstage : ∀ who stage, sys'.stage? who = some (.cycle .start, stage) →
      ∃ old, sys.stage? who = some (.cycle .start, old) ∧
        ∀ failed s, Supervisor.Underway failed s old → Supervisor.Underway failed s stage)
    (hfiles : sys'.supervisor.files = sys.supervisor.files)
    (hsockets : sys'.supervisor.sockets = sys.supervisor.sockets)
    (hbinding : sys'.supervisor.servers.map Server.binding =
      sys.supervisor.servers.map Server.binding)
    (hcalls : sys'.supervisor.calls = sys.supervisor.calls) : Founded found sys' := by
  intro who stage hs
  obtain ⟨old, hold, himp⟩ := hstage who stage hs
  obtain ⟨hunderway, first, earlier, hstarted⟩ := h who old hold
  exact ⟨himp _ _ (hunderway.of_same hfiles hsockets hbinding), first, earlier,
    hcalls.trans hstarted⟩

theorem Founded.started (hs : sys.Sound) (hactor : a.actor? = some who)
    (hturn : sys.turn? who = some (.enters (.cycle .start)))
    (hstep : Turned sys who (.enters (.cycle .start)) sys') : Founded (some (sys, a)) sys' := by
  intro other stage hstage
  obtain ⟨-, hprogress⟩ := hs.orderly.stage_of_turned hturn hstep hstage
  have hnone : failed? (some (sys, a)) = none := by
    rw [failed?, Option.bind_some, failure?, turnOf?_of_actor hactor hturn]
  rw [hstep.supervisor, hnone]
  exact Supervisor.underway_of_enterStart (hs.servers_of_start hturn).2 hprogress

/-- The plugin remains started until the end of the start cycle. -/
theorem started_of_advance {s : Supervisor} {stage next : Stage} (h : s.Started)
    (hnext : (s.advance stage).2 = .inl next) : (s.advance stage).1.Started := by
  generalize hp : s.advance stage = p at hnext ⊢
  have hadv := Supervisor.advance_cases hp
  cases hadv with
  | serves => simp at hnext
  | drained hall hend => simp at hnext
  | _ => exact h

theorem Founded.advanced {stage : Stage} (hs : sys.Sound) (h : Founded found sys)
    (named : ∀ p ∈ sys.supervisor.sockets, p.chars ≠ []) (hactor : a.actor? = some who)
    (hturn : sys.turn? who = some (.advances (.cycle .start) stage))
    (hold : sys.stage? who = some (.cycle .start, stage))
    (hstep : Turned sys who (.advances (.cycle .start) stage) sys') :
    Founded (if sys.decides a then some (sys, a) else found) sys' := by
  have hof := turnOf?_of_actor hactor hturn
  have hfailure : sys.failure? a = sys.supervisor.failure? stage := by rw [failure?, hof]
  have hopens : sys.opens a = false := by simp [opens, hof]
  obtain ⟨hunderway, hstarted⟩ := h who stage hold
  intro other next hstage
  obtain ⟨-, hprogress⟩ := hs.orderly.stage_of_turned hturn hstep hstage
  rw [hstep.supervisor]
  refine ⟨?_, started_of_advance hstarted hprogress⟩
  rw [decides, hopens, hfailure, Bool.false_or]
  cases hfails : sys.supervisor.failure? stage with
  | none =>
      simp only [Option.isSome_none, Bool.false_eq_true, if_false]
      exact Supervisor.advance_of_no_failure hunderway named hfails hprogress
  | some failed =>
      obtain ⟨socket, r⟩ := failed
      have hnow : failed? (some (sys, a)) = some (socket, r) := by
        rw [failed?, Option.bind_some, hfailure, hfails]
      simp only [Option.isSome_some, if_true, hnow]
      exact Supervisor.advance_of_failure hunderway hfails hprogress

theorem Founded.turned {t : Turn} (hs : sys.Sound) (h : Founded found sys)
    (named : ∀ p ∈ sys.supervisor.sockets, p.chars ≠ []) (hactor : a.actor? = some who)
    (hturn : sys.turn? who = some t) (hstep : Turned sys who t sys') :
    Founded (if sys.decides a then some (sys, a) else found) sys' := by
  have hof := turnOf?_of_actor hactor hturn
  by_cases hcycle : t.section_ = .cycle .start
  · rcases turn?_cases hturn with ⟨sec, rfl, -, -⟩ | ⟨sec, stage, rfl, hplace⟩
    · obtain rfl : sec = .cycle .start := hcycle
      have hopens : sys.opens a = true := by simp [opens, hof]
      rw [decides, hopens, Bool.true_or, if_pos rfl]
      exact Founded.started hs hactor hturn hstep
    · obtain rfl : sec = .cycle .start := hcycle
      exact h.advanced hs named hactor hturn (stage?_of_place hplace) hstep
  · intro other stage hstage
    exact absurd (hs.orderly.stage_of_turned hturn hstep hstage).1 hcycle

theorem Founded.step (hs : sys.Sound) (h : Founded found sys)
    (named : ∀ p ∈ sys.supervisor.sockets, p.chars ≠ []) (closed : ∀ files, a ≠ .outside files)
    (hstep : sys.act? a = some sys') :
    Founded (if sys.decides a then some (sys, a) else found) sys' := by
  have hquiet : sys.turnOf? a = none → sys.decides a = false := by
    intro hidle
    simp [decides, opens, failure?, hidle]
  cases act?_kind hstep with
  | turn hactor hturn hturned => exact h.turned hs named hactor hturn hturned
  | queues hidle hqueued =>
      rw [hquiet hidle]
      have hsame := hqueued.supervisor
      refine h.of_same (fun who stage hstage => ?_) (by rw [hsame]) (by rw [hsame]) (by rw [hsame])
        (by rw [hsame])
      exact ⟨stage, (hqueued.stage? who).symm.trans hstage, fun _ _ hunderway => hunderway⟩
  | aside hidle haside =>
      rw [hquiet hidle]
      have hsup := haside.supervisor
      refine h.of_same (fun who stage hstage => ?_) (files_of_idle hstep hidle closed) hsup.sockets
        (by rw [hsup.servers]) hsup.calls
      exact ⟨stage, (haside.stage? who).symm.trans hstage, fun _ _ hunderway => hunderway⟩
  | @fades id hidle hfaded =>
      rw [hquiet hidle]
      have hsup := hfaded.supervisor
      refine h.of_same (fun who stage hstage => ?_) (by rw [hsup]) (by rw [hsup])
        (by rw [hsup]; exact map_endTask (fun _ => rfl) id _) (by rw [hsup]; rfl)
      rcases hfaded.stage?_eq who with heq | ⟨kind, old, hbefore, hafter⟩
      · exact ⟨stage, heq.symm.trans hstage, fun _ _ hunderway => hunderway⟩
      · rw [hafter] at hstage
        cases hstage
        exact ⟨old, hbefore, fun _ _ hunderway =>
          Supervisor.underway_endTaskIn hunderway id⟩

theorem founded_unstarted (s : Supervisor) : Founded none (unstarted s) := by
  intro who stage hs
  cases who <;> simp [unstarted, stage?, place, Place.stage?] at hs

theorem finished_of_advance (hs : sys.Sound) {kind : CycleKind} {stage : Stage}
    (hstep : sys.act? a = some sys')
    (hcycle : sys.turnOf? a = some (.advances (.cycle kind) stage)) (hover : sys'.lock = none) :
    ∃ i outcome, a = .loop i ∧ sys.stage? (.loop i) = some (.cycle kind, stage) ∧
      sys'.supervisor = (sys.supervisor.advance stage).1 ∧
      (sys.supervisor.advance stage).2 = .inr outcome ∧
      sys'.loops[i]? = some (.finished kind outcome) := by
  obtain ⟨who, hactor, hturn⟩ := Option.bind_eq_some_iff.mp hcycle
  rcases turn?_cases hturn with ⟨sec, heq, -, -⟩ | ⟨sec, stage', heq, hplace⟩
  · cases heq
  cases heq
  obtain ⟨i, rfl, hloop⟩ := hs.attended.loop_of_place hplace
  have haction : a = .loop i := by cases a <;> simp_all [Action.actor?]
  subst haction
  simp only [act?, loopStep?, hloop, access?, goOn_eq] at hstep
  cases hprogress : (sys.supervisor.advance stage).2 with
  | inl next =>
      simp only [hprogress, outcomeOf, Option.some.injEq] at hstep
      subst hstep
      simp [setLoop, lockAfter] at hover
  | inr outcome =>
      simp only [hprogress, outcomeOf, Option.some.injEq] at hstep
      subst hstep
      exact ⟨i, outcome, rfl, stage?_of_place hplace, rfl, rfl, setLoop_self hloop rfl⟩

section Created

variable {plugin : Plugin} {starts stops : List CallOutcome} {dirs : List Path}
  {settings : Settings} {observer : Observer} {files : FileSystem} {s : Supervisor}
  {actions : List Action}

/-- Along every run in which nobody else changes the files, a start cycle that ends after a bind or
a dial check of its own has failed has taken everything back and answers with that failure; one
that ends well has a server of its own at every socket. -/
theorem start_cycle_binds_all_or_none
    (created : Supervisor.create plugin starts stops dirs settings observer files = .ok s)
    (hrun : (unstarted s).run? actions = some sys)
    (closed : ∀ files, Action.outside files ∉ actions) {stage : Stage}
    (hcycle : sys.turnOf? a = some (.advances (.cycle .start) stage))
    (hstep : sys.act? a = some sys') (hover : sys'.lock = none) :
    ∃ i outcome, a = .loop i ∧ sys'.loops[i]? = some (.finished .start outcome) ∧
      (∀ socket r, failed? (latest? decides none (unstarted s) actions) = some (socket, r) →
        outcome = .error r ∧ sys'.supervisor.NoneBound) ∧
      (outcome = .ok () → sys'.supervisor.AllBound) := by
  obtain ⟨huntouched, hsockets⟩ := Supervisor.create_eq created
  have hnamed : ∀ p ∈ s.sockets, p.chars ≠ [] := hsockets ▸ Socket.named_of_paths dirs s.name
  have hundisturbed : ∀ a ∈ actions, ∀ files, a ≠ .outside files := by
    rintro a ha files rfl
    exact closed files ha
  have hfounded : sys.Sound ∧ (∀ p ∈ sys.supervisor.sockets, p.chars ≠ []) ∧
      Founded (latest? decides none (unstarted s) actions) sys := by
    refine run?_keeps_latest_of (P := fun found now => now.Sound ∧
        (∀ p ∈ now.supervisor.sockets, p.chars ≠ []) ∧ Founded found now)
      (fun hclosed hnow hmove => ?_) hundisturbed
      ⟨sound_unstarted huntouched, hnamed, founded_unstarted s⟩ hrun
    obtain ⟨hsound, hnames, hfound⟩ := hnow
    exact ⟨hsound.step hmove, fun p hp => hnames p ((act?_sockets hmove).1.subset hp),
      hfound.step hsound hnames hclosed hmove⟩
  obtain ⟨hsound, hnames, hfound⟩ := hfounded
  obtain ⟨i, outcome, haction, hstage, hsupervisor, hprogress, hloop⟩ :=
    finished_of_advance hsound hstep hcycle hover
  obtain ⟨hunderway, hstarted⟩ := hfound _ _ hstage
  have hoccurs := (hsound.orderly.staged hstage).2
  refine ⟨i, outcome, haction, hloop, fun socket r hfailed => ?_, fun hok => ?_⟩
  · rw [hfailed] at hunderway
    rw [hsupervisor]
    exact Supervisor.noneBound_of_advance hunderway hstarted hoccurs hprogress
  · subst hok
    obtain ⟨hserving, hlaying⟩ := Supervisor.served_of_advance hunderway hoccurs hprogress
    rw [← hsupervisor] at hserving hlaying
    have hgrounded := (grounded_of_run huntouched hrun).step hsound hstep
    obtain ⟨origin, -, hbinds⟩ := hgrounded.served hover hserving
    refine ⟨hserving, by simpa using hlaying.sockets.symm, ?_, fun server => hlaying.found⟩
    rw [hbinds.bound]
    exact List.nodup_range'

/-- A start cycle fails at the next step of its loop, and has taken everything back. -/
def TakesBack (s : Supervisor) (actions : List Action) (failure : LifecycleReport) : Prop :=
  ∃ sys sys', (unstarted s).run? actions = some sys ∧ sys.act? (.loop 0) = some sys' ∧
    sys'.loops[0]? = some (.finished .start (.error failure)) ∧ sys'.supervisor.NoneBound

def lengthyPath : Path := ⟨List.replicate 120 'd' ++ "/x.sock".toList⟩

/-- A supervisor whose second socket cannot be bound. -/
def lengthy : Supervisor :=
  { lone with sockets := [⟨"d/x.sock".toList⟩, lengthyPath] }

theorem create_lengthy :
    Supervisor.create (.dummy .reporter (some "x") none) [] [] [⟨['d']⟩, ⟨List.replicate 120 'd'⟩]
      {} {} .fresh = .ok lengthy := rfl

/-- The start cycle of a lengthy supervisor up to the last step of its rollback. -/
def lengthyStart : List Action :=
  [.start true, .call 0, .loop 0, .loop 0, .loop 0, .loop 0, .loop 0]

def lengthyFailure : LifecycleReport :=
  ⟨⟨"x", .bind lengthyPath⟩, [], ["path must be shorter than SUN_LEN"]⟩

/-- A supervisor with two sockets, either of which can be bound. -/
def paired : Supervisor :=
  { lone with sockets := [⟨"d/x.sock".toList⟩, ⟨"e/x.sock".toList⟩] }

theorem create_paired :
    Supervisor.create (.dummy .reporter (some "x") none) [] [] [⟨['d']⟩, ⟨['e']⟩] {} {} .fresh =
      .ok paired := rfl

/-- A start cycle that serves one socket and binds the other, where the dial takes too long. -/
def pairedStart : List Action :=
  [.start true, .call 0, .loop 0, .loop 0, .loop 0, .loop 0, .transport .stalls, .loop 0, .loop 0,
    .loop 0]

def pairedFailure : LifecycleReport :=
  ⟨⟨"x", .dialCheck ⟨"e/x.sock".toList⟩⟩, ["dial timed out after 5s"], []⟩

/-- The socket that was bound is taken back when the next one cannot be bound, and when the next
dial check times out. -/
theorem start_cycle_binds_all_or_none_failing :
    TakesBack lengthy lengthyStart lengthyFailure ∧ TakesBack paired pairedStart pairedFailure := by
  have hback : ∀ (socket : Path) {dirs : List Path} {s : Supervisor} {actions : List Action}
      {failure : LifecycleReport},
      Supervisor.create (.dummy .reporter (some "x") none) [] [] dirs {} {} .fresh = .ok s →
      (∀ files, Action.outside files ∉ actions) →
      ((unstarted s).run? actions).map (fun sys =>
        (sys.turnOf? (.loop 0), (sys.act? (.loop 0)).map (·.lock))) =
        some (some (.advances (.cycle .start) (.draining (.rollback failure))), some none) →
      failed? (latest? decides none (unstarted s) actions) = some (socket, failure) →
      TakesBack s actions failure := by
    intro socket dirs s actions failure hcreated hclosed hrun hfailed
    obtain ⟨sys, hsys, hboth⟩ := Option.map_eq_some_iff.mp hrun
    obtain ⟨hcycle, hmove⟩ := Prod.mk.inj hboth
    obtain ⟨sys', hstep, hover⟩ := Option.map_eq_some_iff.mp hmove
    obtain ⟨i, outcome, haction, hloop, hfails, -⟩ :=
      start_cycle_binds_all_or_none hcreated hsys hclosed hcycle hstep hover
    cases haction
    obtain ⟨rfl, hnone⟩ := hfails socket failure hfailed
    exact ⟨sys, sys', hsys, hstep, hloop, hnone⟩
  constructor
  · exact hback lengthyPath create_lengthy (by simp [lengthyStart])
      (by decide +kernel) (by decide +kernel)
  · exact hback ⟨"e/x.sock".toList⟩ create_paired (by simp [pairedStart])
      (by decide +kernel) (by decide +kernel)

end Created

end Supervision

end PluginKit
