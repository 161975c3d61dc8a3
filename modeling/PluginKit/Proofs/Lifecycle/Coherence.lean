import PluginKit.Proofs.Lifecycle.Sound
import PluginKit.Proofs.Socket

/-!
# State, sockets and servers

The servers of a plugin that is served are those that the latest start cycle has bound, one for
each socket, in order, and in different directories. The sockets themselves only ever become
fewer, and never none.
-/

namespace PluginKit

/-- The servers that a start cycle has bound by now, when it began at `origin` and has the sockets
`left` before it. -/
structure Binds (origin s : Supervisor) (left : List Path) : Prop where
  fresh : origin.servers = []
  sockets : s.servers.map Server.socket ++ left = s.sockets
  bound : s.servers.map Server.id = List.range' origin.nextServer s.servers.length
  located : ∃ kept, Socket.Located origin.files origin.sockets kept ∧ kept ≠ [] ∧
    kept.map Prod.fst = s.sockets

/-- A plugin served by the servers that the start cycle from `origin` has bound. -/
structure Served (origin s : Supervisor) : Prop where
  fresh : origin.servers = []
  some : s.servers ≠ []
  sockets : s.servers.map Server.socket = s.sockets
  bound : s.servers.map Server.id = List.range' origin.nextServer s.servers.length
  located : ∃ kept, Socket.Located origin.files origin.sockets kept ∧
    kept.map Prod.fst = s.sockets

/-- How far the binding is at a stage of the start cycle that began at `origin`. -/
def Stage.Bound (origin s : Supervisor) : Stage → Prop
  | binding left => Binds origin s left ∧ s.nextServer = origin.nextServer + s.servers.length
  | dialing server left =>
      Binds origin s (server.socket :: left) ∧
        server.id = origin.nextServer + s.servers.length ∧ s.nextServer = server.id + 1
  | _ => True

section Binding

variable {origin s t : Supervisor} {left : List Path}

theorem Binds.served (h : Binds origin s []) : Served origin s := by
  have hsockets : s.servers.map Server.socket = s.sockets := by
    rw [← h.sockets, List.append_nil]
  obtain ⟨kept, hlocated, hsome, hfst⟩ := h.located
  refine ⟨h.fresh, ?_, hsockets, h.bound, kept, hlocated, hfst⟩
  intro hnone
  rw [hnone, ← hfst] at hsockets
  exact hsome (List.map_eq_nil_iff.mp hsockets.symm)

theorem Binds.of_same (h : Binds origin s left) (hsockets : t.sockets = s.sockets)
    (hsocket : t.servers.map Server.socket = s.servers.map Server.socket)
    (hid : t.servers.map Server.id = s.servers.map Server.id) : Binds origin t left where
  fresh := h.fresh
  sockets := by rw [hsocket, hsockets, h.sockets]
  bound := by
    have hlength : t.servers.length = s.servers.length := by
      simpa using congrArg List.length hid
    rw [hid, hlength, h.bound]
  located := by rw [hsockets]; exact h.located

theorem Binds.dialed {server : Server} (h : Binds origin s (server.socket :: left))
    (hid : server.id = origin.nextServer + s.servers.length)
    (hservers : t.servers = s.servers ++ [server]) (hsockets : t.sockets = s.sockets) :
    Binds origin t left where
  fresh := h.fresh
  sockets := by
    rw [hservers, hsockets, ← h.sockets]
    simp
  bound := by
    rw [hservers, List.map_append, h.bound, List.length_append, List.length_singleton,
      List.range'_concat, List.map_singleton, hid, Nat.one_mul]
  located := by rw [hsockets]; exact h.located

theorem Stage.Bound.of_same {stage : Stage} (h : stage.Bound origin s)
    (hsockets : t.sockets = s.sockets)
    (hsocket : t.servers.map Server.socket = s.servers.map Server.socket)
    (hid : t.servers.map Server.id = s.servers.map Server.id)
    (hnext : t.nextServer = s.nextServer) : stage.Bound origin t := by
  have hlength : t.servers.length = s.servers.length := by
    simpa using congrArg List.length hid
  cases stage with
  | binding left =>
      obtain ⟨hbinds, hcount⟩ := h
      exact ⟨hbinds.of_same hsockets hsocket hid, by rw [hnext, hlength, hcount]⟩
  | dialing server left =>
      obtain ⟨hbinds, hserver, hcount⟩ := h
      exact ⟨hbinds.of_same hsockets hsocket hid, by rw [hlength, hserver], by rw [hnext, hcount]⟩
  | giveUp server cause => trivial
  | draining purpose => trivial

end Binding

namespace Supervisor

variable {origin s : Supervisor}

/-- A stage of a start cycle is followed by a stage that binds one further server, or none. -/
theorem bound_of_advance {stage next : Stage} (h : stage.Bound origin s)
    (hover : (s.advance stage).2 = .inl next) : next.Bound origin (s.advance stage).1 := by
  generalize hp : s.advance stage = p at hover ⊢
  have hadv := advance_cases hp
  cases hadv with
  | serves => simp at hover
  | @binds socket left files =>
      cases hover
      obtain ⟨hbinds, hnext⟩ := h
      exact ⟨hbinds.of_same rfl rfl rfl, hnext, rfl⟩
  | @dialed server left =>
      cases hover
      obtain ⟨hbinds, hid, hnext⟩ := h
      refine ⟨hbinds.dialed hid rfl rfl, ?_⟩
      simp only [List.length_append, List.length_singleton]
      omega
  | drained hall hend => simp at hover
  | _ => cases hover; trivial

/-- A start cycle that begins without servers has bound none yet. -/
theorem bound_of_enterStart {next : Stage} (hnone : s.servers = [])
    (hover : s.enterStart.2 = .inl next) : next.Bound s s.enterStart.1 := by
  generalize hp : s.enterStart = p at hover ⊢
  have hopens := enterStart_cases hp
  cases hopens with
  | prepared hperm hsome hstarts hworks =>
      cases hover
      have hlocated := Socket.prepare_located hworks
      refine ⟨⟨hnone, ?_, ?_, hlocated⟩, ?_⟩
      · simp [hnone]
      · simp [hnone]
      · simp [hnone]
  | unprepared hperm hsome hstarts hfails => cases hover; trivial
  | _ => simp at hover

/-- A turn only drops sockets, and never all of them. -/
theorem take_sockets (s : Supervisor) (t : Turn) :
    (t.take s).1.sockets.Sublist s.sockets ∧ (s.sockets ≠ [] → (t.take s).1.sockets ≠ []) := by
  have hsame : ∀ {u : Supervisor}, u.sockets = s.sockets →
      u.sockets.Sublist s.sockets ∧ (s.sockets ≠ [] → u.sockets ≠ []) := by
    intro u heq
    rw [heq]
    exact ⟨List.Sublist.refl _, id⟩
  cases t with
  | enters sec =>
      by_cases hsec : sec = .cycle .start
      · subst hsec
        simp only [Turn.take, enter]
        generalize hp : s.enterStart = p
        have hopens := enterStart_cases hp
        cases hopens with
        | unprepared hperm hsome hstarts hfails =>
            exact ⟨Socket.prepare_sublist _ _ _, Socket.prepare_ne_nil⟩
        | prepared hperm hsome hstarts hworks =>
            exact ⟨Socket.prepare_sublist _ _ _, Socket.prepare_ne_nil⟩
        | _ => exact hsame rfl
      · apply hsame
        by_cases hperm : s.state = .permanentlyStopped
        · rw [Turn.take, enter_of_stopped hperm]
        · obtain ⟨purpose, henter⟩ := enter_of_not_stopped hperm hsec
          rw [Turn.take, henter]
  | advances sec stage =>
      apply hsame
      simp only [Turn.take]
      generalize hp : s.advance stage = p
      have hadv := advance_cases hp
      cases hadv with
      | drained hall hend => exact hend.sockets
      | _ => rfl

end Supervisor

namespace Supervision

variable {sys sys' : Supervision} {who : Holder} {a : Action}
  {found : Option (Supervision × Action)}

def opens (sys : Supervision) (a : Action) : Bool :=
  decide (sys.turnOf? a = some (.enters (.cycle .start)))

def origin? (found : Option (Supervision × Action)) : Option Supervisor :=
  found.map fun item => item.1.supervisor

/-- How a run and its latest start cycle go together. -/
structure Grounded (found : Option (Supervision × Action)) (sys : Supervision) : Prop where
  bound : ∀ {who stage}, sys.stage? who = some (.cycle .start, stage) →
    ∃ origin, origin? found = some origin ∧ stage.Bound origin sys.supervisor
  served : sys.lock = none → sys.supervisor.state = .serving →
    ∃ origin, origin? found = some origin ∧ Binds origin sys.supervisor []

/-- The end of a task shows in nothing else of a server. -/
theorem map_endTask {α : Type} {f : Server → α}
    (h : ∀ server : Server, f { server with task := .ended } = f server) (id : Nat)
    (servers : List Server) : (endTask id servers).map f = servers.map f := by
  rw [endTask, List.map_map]
  refine List.map_congr_left fun server _ => ?_
  simp only [Function.comp_apply]
  split
  · exact h server
  · rfl

theorem bound_endTaskIn {origin s : Supervisor} {stage : Stage} (h : stage.Bound origin s)
    (id : Nat) : (endTaskIn id stage).Bound origin s := by
  cases stage with
  | dialing server left =>
      simp only [endTaskIn]
      split
      · exact h
      · exact h
  | _ => exact h

theorem Grounded.of_same (h : Grounded found sys) (hlock : sys'.lock = sys.lock)
    (hstage : ∀ who stage, sys'.stage? who = some (.cycle .start, stage) →
      ∃ old, sys.stage? who = some (.cycle .start, old) ∧
        ∀ origin s, old.Bound origin s → stage.Bound origin s)
    (hstate : sys'.supervisor.state = sys.supervisor.state)
    (hsockets : sys'.supervisor.sockets = sys.supervisor.sockets)
    (hsocket : sys'.supervisor.servers.map Server.socket =
      sys.supervisor.servers.map Server.socket)
    (hid : sys'.supervisor.servers.map Server.id = sys.supervisor.servers.map Server.id)
    (hnext : sys'.supervisor.nextServer = sys.supervisor.nextServer) :
    Grounded found sys' where
  bound {who stage} hs := by
    obtain ⟨old, hold, himp⟩ := hstage who stage hs
    obtain ⟨origin, horigin, hbound⟩ := h.bound hold
    exact ⟨origin, horigin, himp origin _ (hbound.of_same hsockets hsocket hid hnext)⟩
  served hfree hserving := by
    obtain ⟨origin, horigin, hbinds⟩ := h.served (hlock ▸ hfree) (hstate ▸ hserving)
    exact ⟨origin, horigin, hbinds.of_same hsockets hsocket hid⟩

/-- The start cycle that begins is the latest now. -/
theorem Grounded.started (hs : sys.Sound) (hturn : sys.turn? who = some (.enters (.cycle .start)))
    (hstep : Turned sys who (.enters (.cycle .start)) sys') (a : Action) :
    Grounded (some (sys, a)) sys' := by
  constructor
  · intro other stage hstage
    obtain ⟨-, hprogress⟩ := hs.orderly.stage_of_turned hturn hstep hstage
    rw [hstep.supervisor]
    exact ⟨sys.supervisor, rfl,
      Supervisor.bound_of_enterStart (hs.servers_of_start hturn).2 hprogress⟩
  · intro hfree hserving
    rw [hstep.lock] at hfree
    rw [hstep.supervisor] at hserving
    obtain ⟨outcome, hover⟩ := lockAfter_eq_none hfree
    exact absurd (Supervisor.serving_of_enter hover hserving) (hs.attended.unserved hturn)

/-- When a stop begins nothing is bound any more, and nothing served. -/
theorem Grounded.stopping {sec : Section} (hs : sys.Sound)
    (hturn : sys.turn? who = some (.enters sec)) (hsec : sec ≠ .cycle .start)
    (hstep : Turned sys who (.enters sec) sys') : Grounded found sys' := by
  constructor
  · intro other stage hstage
    obtain ⟨heq, -⟩ := hs.orderly.stage_of_turned hturn hstep hstage
    exact absurd heq hsec
  · intro hfree hserving
    rw [hstep.lock] at hfree
    rw [hstep.supervisor] at hserving
    obtain ⟨outcome, hover⟩ := lockAfter_eq_none hfree
    have hbefore := Supervisor.serving_of_enter hover hserving
    have hperm : sys.supervisor.state ≠ .permanentlyStopped := by rw [hbefore]; decide
    obtain ⟨purpose, henter⟩ := Supervisor.enter_of_not_stopped hperm hsec
    rw [Turn.take, henter] at hover
    contradiction

theorem Grounded.advanced {sec : Section} {stage : Stage} (hs : sys.Sound) (h : Grounded found sys)
    (hturn : sys.turn? who = some (.advances sec stage)) (hold : sys.stage? who = some (sec, stage))
    (hstep : Turned sys who (.advances sec stage) sys') : Grounded found sys' := by
  constructor
  · intro other next hstage
    obtain ⟨heq, hprogress⟩ := hs.orderly.stage_of_turned hturn hstep hstage
    simp only [Turn.section_] at heq
    subst heq
    obtain ⟨origin, horigin, hbound⟩ := h.bound hold
    rw [hstep.supervisor]
    exact ⟨origin, horigin, Supervisor.bound_of_advance hbound hprogress⟩
  · intro hfree hserving
    rw [hstep.lock] at hfree
    rw [hstep.supervisor] at hserving ⊢
    obtain ⟨outcome, hover⟩ := lockAfter_eq_none hfree
    obtain ⟨hstate, hoccurs⟩ := hs.orderly.staged hold
    obtain ⟨rfl, rfl⟩ := Supervisor.binding_of_advance hstate hoccurs hover hserving
    obtain ⟨origin, horigin, hbinds, -⟩ := h.bound hold
    exact ⟨origin, horigin, hbinds.of_same rfl rfl rfl⟩

theorem Grounded.turned {t : Turn} (hs : sys.Sound) (h : Grounded found sys)
    (hof : sys.turnOf? a = some t) (hturn : sys.turn? who = some t)
    (hstep : Turned sys who t sys') :
    Grounded (if sys.opens a then some (sys, a) else found) sys' := by
  have hopens : sys.opens a = decide (t = .enters (.cycle .start)) := by simp [opens, hof]
  rw [hopens]
  rcases turn?_cases hturn with ⟨sec, rfl, -, -⟩ | ⟨sec, stage, rfl, hplace⟩
  · by_cases hsec : sec = .cycle .start
    · subst hsec
      exact Grounded.started hs hturn hstep a
    · have hother : decide (Turn.enters sec = .enters (.cycle .start)) = false := by
        simp [hsec]
      rw [hother]
      exact Grounded.stopping hs hturn hsec hstep
  · exact h.advanced hs hturn (stage?_of_place hplace) hstep

theorem Grounded.step (hs : sys.Sound) (h : Grounded found sys)
    (hstep : sys.act? a = some sys') :
    Grounded (if sys.opens a then some (sys, a) else found) sys' := by
  have hquiet : sys.turnOf? a = none → sys.opens a = false := by
    intro hidle
    simp [opens, hidle]
  cases act?_kind hstep with
  | turn hactor hturn hturned =>
      exact h.turned hs (turnOf?_of_actor hactor hturn) hturn hturned
  | queues hidle hqueued =>
      rw [hquiet hidle]
      obtain hsame := hqueued.supervisor
      refine h.of_same hqueued.lock ?_ (by rw [hsame]) (by rw [hsame]) (by rw [hsame])
        (by rw [hsame]) (by rw [hsame])
      intro who stage hstage
      exact ⟨stage, (hqueued.stage? who).symm.trans hstage, fun _ _ hbound => hbound⟩
  | aside hidle haside =>
      rw [hquiet hidle]
      have hsup := haside.supervisor
      refine h.of_same haside.lock ?_ hsup.state hsup.sockets (by rw [hsup.servers])
        (by rw [hsup.servers]) hsup.nextServer
      intro who stage hstage
      exact ⟨stage, (haside.stage? who).symm.trans hstage, fun _ _ hbound => hbound⟩
  | @fades id hidle hfaded =>
      rw [hquiet hidle]
      have hsup := hfaded.supervisor
      refine h.of_same hfaded.lock ?_ (by rw [hsup]) (by rw [hsup])
        (by rw [hsup]; exact map_endTask (fun _ => rfl) id _)
        (by rw [hsup]; exact map_endTask (fun _ => rfl) id _)
        (by rw [hsup])
      intro who stage hstage
      rcases hfaded.stage?_eq who with heq | ⟨kind, old, hbefore, hafter⟩
      · exact ⟨stage, heq.symm.trans hstage, fun _ _ hbound => hbound⟩
      · rw [hafter] at hstage
        cases hstage
        exact ⟨old, hbefore, fun _ _ hbound => bound_endTaskIn hbound id⟩

theorem grounded_unstarted {s : Supervisor} (h : s.state = .idle) :
    Grounded none (unstarted s) where
  bound {who _} hs := by cases who <;> simp [unstarted, stage?, place, Place.stage?] at hs
  served _ hserving := by simp [unstarted, h] at hserving

theorem grounded_of_run {s : Supervisor} {actions : List Action} (h : s.Untouched)
    (hrun : (unstarted s).run? actions = some sys) :
    Grounded (latest? opens none (unstarted s) actions) sys := by
  have hkept : sys.Sound ∧ Grounded (latest? opens none (unstarted s) actions) sys := by
    refine run?_keeps_latest (P := fun found sys => sys.Sound ∧ Grounded found sys) ?_
      ⟨sound_unstarted h, grounded_unstarted h.state⟩ hrun
    intro found now next a hnow hstep
    exact ⟨hnow.1.step hstep, hnow.2.step hnow.1 hstep⟩
  exact hkept.2

theorem act?_sockets (hstep : sys.act? a = some sys') :
    sys'.supervisor.sockets.Sublist sys.supervisor.sockets ∧
      (sys.supervisor.sockets ≠ [] → sys'.supervisor.sockets ≠ []) := by
  cases act?_kind hstep with
  | @turn who t hactor hturn hturned =>
      rw [hturned.supervisor]
      exact sys.supervisor.take_sockets t
  | queues hidle hqueued =>
      rw [hqueued.supervisor]
      exact ⟨List.Sublist.refl _, id⟩
  | aside hidle haside =>
      rw [haside.supervisor.sockets]
      exact ⟨List.Sublist.refl _, id⟩
  | fades hidle hfaded =>
      rw [hfaded.supervisor]
      exact ⟨List.Sublist.refl _, id⟩

theorem run?_sockets {actions : List Action} (hrun : sys.run? actions = some sys') :
    sys'.supervisor.sockets.Sublist sys.supervisor.sockets ∧
      (sys.supervisor.sockets ≠ [] → sys'.supervisor.sockets ≠ []) := by
  refine run?_keeps (P := fun now => now.supervisor.sockets.Sublist sys.supervisor.sockets ∧
    (sys.supervisor.sockets ≠ [] → now.supervisor.sockets ≠ [])) ?_
    ⟨List.Sublist.refl _, id⟩ hrun
  intro mid next a ⟨hsub, hsome⟩ hstep
  obtain ⟨hsub', hsome'⟩ := act?_sockets hstep
  exact ⟨hsub'.trans hsub, fun h => hsome' (hsome h)⟩

/-- How state, servers and sockets go together while the lock is free. -/
structure Coherent (found : Option (Supervision × Action)) (s : Supervisor) : Prop where
  settled : s.state ≠ .starting
  served : s.state = .serving → ∃ origin, origin? found = some origin ∧ Served origin s
  vacant : s.state ≠ .serving → s.servers = []

section Created

variable {plugin : Plugin} {starts stops : List CallOutcome} {dirs : List Path}
  {settings : Settings} {observer : Observer} {files : FileSystem} {s : Supervisor}
  {actions : List Action}

/-- Along every run, with the lock free, a plugin is served by the servers that the latest start
cycle has bound, one for each socket, and has no servers otherwise. The sockets are some of those
at first, and every step keeps some of them. -/
theorem supervision_coherent
    (created : Supervisor.create plugin starts stops dirs settings observer files = .ok s)
    (hrun : (unstarted s).run? actions = some sys) :
    (sys.lock = none → Coherent (latest? opens none (unstarted s) actions) sys.supervisor) ∧
      sys.supervisor.sockets.Sublist (Socket.paths dirs s.name) ∧
      (Socket.paths dirs s.name ≠ [] → sys.supervisor.sockets ≠ []) ∧
      ∀ {a sys'}, sys.act? a = some sys' →
        sys'.supervisor.sockets.Sublist sys.supervisor.sockets := by
  obtain ⟨huntouched, hsockets⟩ := Supervisor.create_eq created
  have hkept : sys.Sound ∧ Grounded (latest? opens none (unstarted s) actions) sys := by
    refine run?_keeps_latest (P := fun found sys => sys.Sound ∧ Grounded found sys) ?_
      ⟨sound_unstarted huntouched, grounded_unstarted huntouched.state⟩ hrun
    intro found now next a hnow hstep
    exact ⟨hnow.1.step hstep, hnow.2.step hnow.1 hstep⟩
  obtain ⟨hsound, hgrounded⟩ := hkept
  obtain ⟨hsub, hsome⟩ := run?_sockets hrun
  rw [← hsockets]
  refine ⟨fun hfree => ⟨hsound.orderly.settled hfree, fun hserving => ?_, hsound.vacant hfree⟩,
    hsub, hsome, fun hstep => (act?_sockets hstep).1⟩
  obtain ⟨origin, horigin, hbinds⟩ := hgrounded.served hfree hserving
  exact ⟨origin, horigin, hbinds.served⟩

theorem supervision_coherent_lone :
    ∃ sys, (unstarted lone).run? [.start true, .call 0, .loop 0, .loop 0, .loop 0, .loop 0] =
        some sys ∧
      sys.lock = none ∧ sys.supervisor.state = .serving ∧
      Coherent (latest? opens none (unstarted lone)
        [.start true, .call 0, .loop 0, .loop 0, .loop 0, .loop 0]) sys.supervisor := by
  have hsys : ((unstarted lone).run? [.start true, .call 0, .loop 0, .loop 0, .loop 0,
      .loop 0]).map (fun sys => (sys.lock, sys.supervisor.state)) = some (none, .serving) := by
    decide +kernel
  obtain ⟨sys, hrun, hboth⟩ := Option.map_eq_some_iff.mp hsys
  obtain ⟨hfree, hserving⟩ := Prod.mk.inj hboth
  exact ⟨sys, hrun, hfree, hserving, (supervision_coherent create_lone hrun).1 hfree⟩

end Created

end Supervision

end PluginKit
