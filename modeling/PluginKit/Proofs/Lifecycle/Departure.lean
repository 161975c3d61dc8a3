import PluginKit.Proofs.Lifecycle.Rest
import PluginKit.Proofs.Lifecycle.Trace
import PluginKit.Proofs.Socket.Removal

/-!
# The way of the last stop

The first stop to get the lock stops the servers, removes the socket files and stops the plugin.
Then it tells of its failure, waits for its loop and answers. What it adds to the history on this
way is followed from its call to its answer, whatever the others do in the meantime.
-/

namespace PluginKit

open FileSystem (Absent)

/-- Whether a stop has worked, or has failed at nothing but the plugin's own stop. -/
def failsAtPluginAtMost : LifecycleOutcome → Bool
  | .ok () => true
  | .error r =>
      match r.cause.cause with
      | .pluginStop => true
      | .stopPanicked _ => true
      | _ => false

namespace Supervisor

variable {s : Supervisor}

theorem clears_iff (s : Supervisor) :
    s.clears = true ↔ ∃ files, Socket.Removes s.files s.sockets files := by
  unfold clears
  constructor
  · intro h
    cases hremoved : Socket.removeAll s.name s.files s.sockets with
    | mk files outcome =>
        cases outcome with
        | error r =>
            rw [hremoved] at h
            contradiction
        | ok u => exact ⟨files, Socket.removeAll_eq_ok_iff.mp hremoved⟩
  · rintro ⟨files, hremoves⟩
    rw [Socket.removeAll_eq_ok_iff.mpr hremoves]
    rfl

/-- What the end of a section without servers comes to: the plugin is stopped if and only if the
socket files could be removed, and then they are gone. -/
structure Cleared (s t : Supervisor) (outcome : LifecycleOutcome) : Prop where
  reaches : failsAtPluginAtMost outcome = s.clears
  works : outcome = .ok () ↔ s.clears = true ∧ s.nextStop = .ok
  absent : s.clears = true → ∀ p ∈ s.sockets, Absent t.files p
  torn : Torn s t
  observer : t.observer = s.observer

theorem stopPlugin_files (s : Supervisor) : s.stopPlugin.1.files = s.files := by
  rw [stopPlugin_fst]
  rfl

theorem stopPlugin_snd (s : Supervisor) :
    failsAtPluginAtMost s.stopPlugin.2 = true ∧ (s.stopPlugin.2 = .ok () ↔ s.nextStop = .ok) := by
  have h : s.callStop.2 = s.nextStop := rfl
  unfold stopPlugin
  rw [← h]
  rcases s.callStop with ⟨s', _ | _ | _⟩
  · exact ⟨rfl, by simp⟩
  · exact ⟨rfl, by simp⟩
  · exact ⟨rfl, by simp⟩

theorem cleared_of_error {files : FileSystem} {r : LifecycleReport}
    (h : Socket.removeAll s.name s.files s.sockets = (files, .error r)) :
    s.cleared = ({ s with servers := [], files := files }, .error r) := by
  have hremoved : Socket.removeAll ({ s with servers := [] } : Supervisor).name s.files s.sockets =
      (files, .error r) := h
  simp only [cleared, tearDown, hremoved]

theorem cleared_of_ok {files : FileSystem}
    (h : Socket.removeAll s.name s.files s.sockets = (files, .ok ())) :
    s.cleared = ({ s with servers := [], files := files } : Supervisor).stopPlugin := by
  have hremoved : Socket.removeAll ({ s with servers := [] } : Supervisor).name s.files s.sockets =
      (files, .ok ()) := h
  simp only [cleared, tearDown, hremoved]

theorem cleared_spec (s : Supervisor) : Cleared s s.cleared.1 s.cleared.2 := by
  have htorn := s.cleared_torn
  have hobserver := s.spared_cleared.observer
  cases hremoved : Socket.removeAll s.name s.files s.sockets with
  | mk files outcome =>
      cases outcome with
      | error r =>
          have hfails : s.clears = false := by
            rw [clears, hremoved]
            rfl
          rw [cleared_of_error hremoved] at htorn hobserver ⊢
          refine ⟨?_, by simp [hfails], by simp [hfails], htorn, hobserver⟩
          rw [hfails, failsAtPluginAtMost, Socket.cause_of_removeAll hremoved]
      | ok u =>
          have hworks : s.clears = true := by
            rw [clears, hremoved]
            rfl
          rw [cleared_of_ok hremoved] at htorn hobserver ⊢
          obtain ⟨hreaches, hok⟩ :=
            stopPlugin_snd ({ s with servers := [], files := files } : Supervisor)
          refine ⟨hreaches.trans hworks.symm, ?_, fun _ => ?_, htorn, hobserver⟩
          · rw [hok, hworks]
            simp [nextStop]
          · rw [stopPlugin_files]
            exact (Socket.absent_of_removeAll hremoved).2

theorem enter_ne_stopped {sec : Section} (h : s.state ≠ .permanentlyStopped) :
    (s.enter sec).1.state ≠ .permanentlyStopped := by
  by_cases hsec : sec = .cycle .start
  · subst hsec
    generalize hp : s.enter (.cycle .start) = p
    have hopens := enterStart_cases hp
    cases hopens with
    | refused _ => exact h
    | bare _ _ => exact h
    | _ => simp
  · obtain ⟨purpose, henter⟩ := enter_of_not_stopped h hsec
    rw [henter]
    simp

/-- The last stop is made where the last of the servers was stopped for it. -/
theorem farewell_of_advance {stage : Stage} (h : s.state ≠ .permanentlyStopped)
    (hafter : (s.advance stage).1.state = .permanentlyStopped) :
    stage = .draining .farewell ∧ allStopped s.servers = true := by
  generalize hp : s.advance stage = p at hafter
  have hadv := advance_cases hp
  cases hadv with
  | serves => simp at hafter
  | @drained purpose t outcome hall hend =>
      have hleaves : leaves s.state outcome purpose = .permanentlyStopped :=
        hend.state.symm.trans hafter
      cases purpose with
      | rollback cause => contradiction
      | cycle =>
          simp only [leaves] at hleaves
          split at hleaves
          · contradiction
          · exact absurd hleaves h
      | farewell => exact ⟨rfl, hall⟩
  | _ => exact absurd hafter h

theorem conclude_observer (outcome : LifecycleOutcome) (purpose : Purpose) :
    (s.conclude outcome purpose).1.observer = s.observer := by
  cases purpose with
  | cycle => cases outcome <;> rfl
  | _ => rfl

theorem advance_observer (stage : Stage) : (s.advance stage).1.observer = s.observer := by
  cases stage with
  | binding left =>
      cases left with
      | nil => rfl
      | cons socket left =>
          simp only [advance]
          split <;> rfl
  | dialing server left =>
      simp only [advance]
      split <;> rfl
  | giveUp server r => rfl
  | draining purpose =>
      cases hall : allStopped s.servers with
      | false =>
          simp only [advance, hall]
          rfl
      | true =>
          simp only [advance, hall, if_true]
          exact (conclude_observer _ _).trans s.cleared_spec.observer

theorem take_observer (t : Turn) : (t.take s).1.observer = s.observer := by
  cases t with
  | advances sec stage => exact advance_observer stage
  | enters sec =>
      rcases sec with kind | _
      · exact spared_enter.observer
      · simp only [Turn.take, enter, enterFarewell]
        split <;> rfl

end Supervisor

namespace Supervision

variable {sys sys' last left : Supervision} {a : Action} {i j : Nat}

theorem observer_step (hstep : sys.act? a = some sys') :
    sys'.supervisor.observer = sys.supervisor.observer := by
  cases act?_kind hstep with
  | turn hactor hturn hturned =>
      rw [hturned.supervisor]
      exact Supervisor.take_observer _
  | queues hidle hqueued => rw [hqueued.supervisor]
  | aside hidle haside => rw [haside.supervisor.rest]
  | fades hidle hfaded => rw [hfaded.supervisor]

/-! ## The step that makes the stop the last one -/

theorem call_of_farewell {who : Holder} {access : Access}
    (h : sys.place who = some (.farewell, access)) :
    ∃ j, who = .call j ∧ sys.calls[j]? = some (.stop access) := by
  cases who with
  | loop i =>
      obtain ⟨loop, -, hsection⟩ := Option.bind_eq_some_iff.mp h
      cases loop <;> simp [Loop.section?] at hsection
  | call j =>
      obtain ⟨call, hcall, hsection⟩ := Option.bind_eq_some_iff.mp h
      cases call with
      | stop access' =>
          cases hsection
          exact ⟨j, rfl, hcall⟩
      | _ => simp [Call.section?] at hsection

/-- Where the state that is named after the last stop begins. -/
theorem Sound.farewell_of_stopped (h : last.Sound)
    (hbefore : last.supervisor.state ≠ .permanentlyStopped) (hstep : last.act? a = some left)
    (hafter : left.supervisor.state = .permanentlyStopped) :
    ∃ j, a = .call j ∧ last.calls[j]? = some (.stop (.holding (.draining .farewell))) ∧
      Supervisor.allStopped last.supervisor.servers = true := by
  cases act?_kind hstep with
  | queues hidle hqueued =>
      rw [hqueued.supervisor] at hafter
      contradiction
  | aside hidle haside =>
      rw [haside.supervisor.state] at hafter
      contradiction
  | fades hidle hfaded =>
      rw [hfaded.supervisor] at hafter
      contradiction
  | @turn who t hactor hturn hturned =>
      rw [hturned.supervisor] at hafter
      rcases turn?_cases hturn with ⟨sec, rfl, -, -⟩ | ⟨sec, stage, rfl, hplace⟩
      · exact absurd hafter (Supervisor.enter_ne_stopped hbefore)
      · obtain ⟨hstate, hoccurs⟩ := h.orderly.staged (stage?_of_place hplace)
        obtain ⟨rfl, hall⟩ := Supervisor.farewell_of_advance hbefore hafter
        have hsec : sec = .farewell := by
          rcases sec with (_ | _) | _
          · contradiction
          · contradiction
          · rfl
        subst hsec
        obtain ⟨j, rfl, hcall⟩ := call_of_farewell hplace
        have haction : a = .call j := by cases a <;> simp_all [Action.actor?]
        exact ⟨j, haction, hcall, hall⟩

theorem left_of_last (hcall : last.calls[j]? = some (.stop (.holding (.draining .farewell))))
    (hall : Supervisor.allStopped last.supervisor.servers = true)
    (hstep : last.act? (.call j) = some left) :
    left.calls = last.calls.set j (.reporting last.supervisor.cleared.2) ∧
      left.calls[j]? = some (.reporting last.supervisor.cleared.2) ∧
      left.supervisor.files = last.supervisor.cleared.1.files ∧
      left.supervisor.sockets = last.supervisor.sockets ∧
      left.supervisor.history =
        (if last.supervisor.clears then [.stop last.supervisor.nextStop] else []) ++
          last.supervisor.history := by
  have htorn := last.supervisor.cleared_torn
  have hlt : j < last.calls.length := (List.getElem?_eq_some_iff.mp hcall).choose
  have hadv : last.supervisor.advance (.draining .farewell) =
      ((last.supervisor.cleared.1.conclude last.supervisor.cleared.2 .farewell).1,
        .inr last.supervisor.cleared.2) := by
    simp [Supervisor.advance, hall, Supervisor.cleared, Supervisor.conclude]
  simp only [act?, callStep?, hcall, access?, hadv, goOn, Option.some.injEq] at hstep
  subst hstep
  refine ⟨rfl, by simp [setCall, hlt], rfl, htorn.sockets, ?_⟩
  refine htorn.history.trans ?_
  split <;> rfl

theorem stays_stopped_run {actions : List Action} (h : sys.Sound)
    (hrun : sys.run? actions = some sys') (hperm : sys.supervisor.state = .permanentlyStopped) :
    sys'.supervisor.state = .permanentlyStopped := (h.rests_run hperm hrun).1.state.trans hperm

/-! ## What a call adds to the history -/

/-- What has been added to the history of a supervisor since it was another. -/
def newer (s s' : Supervisor) : List Event :=
  s'.history.take (s'.history.length - s.history.length)

theorem newer_of_append {s s' : Supervisor} {events : List Event}
    (h : s'.history = events ++ s.history) : newer s s' = events := by
  rw [newer, h, List.length_append, Nat.add_sub_cancel]
  exact List.take_left

theorem newer_of_eq {s s' : Supervisor} (h : s'.history = s.history) : newer s s' = [] :=
  newer_of_append h

/-- What the steps of a call add to the history in a run, the latest first. -/
def eventsOf (j : Nat) : Supervision → List Action → List Event
  | _, [] => []
  | sys, a :: rest =>
      match sys.act? a with
      | none => []
      | some mid =>
          eventsOf j mid rest ++ if a = .call j then newer sys.supervisor mid.supervisor else []

theorem eventsOf_append {actions : List Action} (later : List Action)
    (hrun : sys.run? actions = some sys') :
    eventsOf j sys (actions ++ later) = eventsOf j sys' later ++ eventsOf j sys actions := by
  induction actions generalizing sys with
  | nil =>
      cases hrun
      simp [eventsOf]
  | cons a rest ih =>
      rw [run?_cons] at hrun
      obtain ⟨mid, hmid, hrest⟩ := Option.bind_eq_some_iff.mp hrun
      simp only [List.cons_append, eventsOf, hmid, ih hrest, List.append_assoc]

/-- A stop adds nothing to the history while it stops the servers. -/
theorem AccessStep.silent {access : Access} {p : Supervision × Sum Access LifecycleOutcome}
    (hacc : AccessStep sys (.call j) .farewell access p) (h : sys.Sound)
    (hcall : sys.calls[j]? = some (.stop access))
    (hbefore : sys.supervisor.state ≠ .permanentlyStopped)
    (hafter : p.1.supervisor.state ≠ .permanentlyStopped) :
    p.1.supervisor.history = sys.supervisor.history := by
  have henter : sys.supervisor.enter .farewell =
      ({ sys.supervisor with state := .stopping }, .inl (.draining .farewell)) :=
    Supervisor.enterFarewell_of_not_stopped hbefore
  cases hacc with
  | queues hbusy => rfl
  | enters hlock hqueue => rw [goOn_eq, henter]
  | admitted hlock hhead => rw [goOn_eq, henter]
  | @advances stage =>
      have hplace : sys.place (.call j) = some (.farewell, .holding stage) := by
        simp [place, hcall, Call.section?]
      have hoccurs := (h.orderly.staged (stage?_of_place hplace)).2
      rw [goOn_eq] at hafter ⊢
      simp only at hafter ⊢
      generalize hp : sys.supervisor.advance stage = p at hafter ⊢
      have hadv := Supervisor.advance_cases hp
      cases hadv with
      | @drained purpose t outcome hall hend =>
          have hfarewell : purpose = .farewell := by
            cases purpose <;> first | rfl | contradiction
          subst hfarewell
          exact absurd hend.state hafter
      | _ => rfl

theorem Sound.call_silent (h : sys.Sound) (hstep : sys.act? (.call j) = some sys')
    (hstate : sys'.supervisor.state ≠ .permanentlyStopped) :
    sys'.supervisor.history = sys.supervisor.history := by
  have hbefore : sys.supervisor.state ≠ .permanentlyStopped :=
    fun hperm => hstate (h.orderly.stays_stopped hstep hperm)
  obtain ⟨old, mid, new, hcall, hmove, rfl⟩ := callStep?_cases hstep
  have hmem := List.mem_of_getElem? hcall
  have hsupervisor : (mid.setCall j new).supervisor = mid.supervisor := rfl
  rw [hsupervisor] at hstate ⊢
  cases hmove with
  | launches => rw [launch_supervisor]
  | notifies => rfl
  | stop hacc => exact hacc.silent h hcall hbefore hstate
  | cycle hacc =>
      have hcycle := h.attended.uncycled _ hmem
      contradiction
  | tells => exact absurd (h.attended.past _ hmem rfl) hbefore
  | _ => rfl

theorem Sound.eventsOf_before {actions : List Action} (h : sys.Sound)
    (hrun : sys.run? actions = some sys')
    (hstate : sys'.supervisor.state ≠ .permanentlyStopped) : eventsOf j sys actions = [] := by
  induction actions generalizing sys with
  | nil => rfl
  | cons a rest ih =>
      rw [run?_cons] at hrun
      obtain ⟨mid, hmid, hrest⟩ := Option.bind_eq_some_iff.mp hrun
      have hsound := h.step hmid
      have hbetween : mid.supervisor.state ≠ .permanentlyStopped :=
        fun hperm => hstate (stays_stopped_run hsound hrest hperm)
      simp only [eventsOf, hmid, ih hsound hrest, List.nil_append]
      split
      · rename_i haction
        subst haction
        exact newer_of_eq (h.call_silent hmid hbetween)
      · rfl

/-! ## The way from the section to the answer -/

end Supervision

/-- A stop that has left its section with an outcome is on its way to its answer, or there,
unless the observer has panicked at being told of the failure. -/
inductive Call.Departs (observer : Observer) (outcome : LifecycleOutcome) : Call → Prop
  | reporting : Departs observer outcome (.reporting outcome)
  | leaving : Departs observer outcome (.leaving outcome)
  | joining {i : Nat} : Departs observer outcome (.joining outcome i)
  | finished : Departs observer outcome (.finished outcome)
  | panicked (fails : outcome.isOk = false) (panics : observer.panics .stopFailed = true) :
      Departs observer outcome .panicked

/-- What a stop with an outcome has told of, if somebody listens: a failure, once it is past its
report. -/
def Call.notices (observer : Observer) (outcome : LifecycleOutcome) : Call → List Event
  | reporting _ => []
  | _ => if observer.listens && !outcome.isOk then [.metric .stopFailed] else []

theorem Call.Departs.not_cycle {observer : Observer} {outcome : LifecycleOutcome} {call : Call}
    (h : call.Departs observer outcome) : call.isCycle = false := by
  cases h <;> rfl

namespace Supervision

variable {sys sys' : Supervision} {a : Action} {j : Nat} {call : Call} {observer : Observer}
  {outcome : LifecycleOutcome}

/-- The step of a stop that is past its section: it tells of a failure and lets go of its loop. -/
theorem departs_own_step (hstep : sys.act? (.call j) = some sys')
    (hobserver : sys.supervisor.observer = observer) (hcall : sys.calls[j]? = some call)
    (hdeparts : call.Departs observer outcome) :
    ∃ call', sys'.calls[j]? = some call' ∧ call'.Departs observer outcome ∧
      newer sys.supervisor sys'.supervisor ++ call.notices observer outcome =
        call'.notices observer outcome := by
  have hlt : j < sys.calls.length := (List.getElem?_eq_some_iff.mp hcall).choose
  obtain ⟨old, mid, new, hold, hmove, rfl⟩ := callStep?_cases hstep
  obtain rfl : old = call := Option.some.inj (hold.symm.trans hcall)
  have hcalls : mid.calls = sys.calls := hmove.keeps_calls
  have hsupervisor : (mid.setCall j new).supervisor = mid.supervisor := rfl
  refine ⟨new, by simp [setCall, hcalls, hlt], ?_⟩
  rw [hsupervisor]
  cases hdeparts with
  | reporting =>
      cases hmove with
      | goes =>
          refine ⟨.leaving, ?_⟩
          rw [newer_of_eq rfl]
          simp [Call.notices, Except.isOk, Except.toBool]
      | @tells r =>
          have htold : (sys.told .stopFailed).supervisor.history =
              (if observer.listens then [.metric .stopFailed] else []) ++
                sys.supervisor.history := by
            rw [told, Supervisor.tell_fst, hobserver]
            cases observer.listens <;> rfl
          rw [newer_of_append htold]
          have hfails : (Except.error r : LifecycleOutcome).isOk = false := rfl
          split
          · rename_i hpanics
            exact ⟨.panicked rfl (hobserver ▸ hpanics), by simp [Call.notices, hfails]⟩
          · exact ⟨.leaving, by simp [Call.notices, hfails]⟩
  | leaving =>
      cases hmove with
      | takes hlaunched => exact ⟨.joining, by rw [newer_of_eq rfl]; rfl⟩
      | finds hlaunched => exact ⟨.finished, by rw [newer_of_eq rfl]; rfl⟩
  | joining =>
      cases hmove with
      | joins hover => exact ⟨.finished, by rw [newer_of_eq rfl]; rfl⟩
  | finished => cases hmove
  | panicked hfails hpanics => cases hmove

/-- The way of a stop from its section to its answer, with all it adds to the history. -/
theorem departs_run {actions : List Action} (hrun : sys.run? actions = some sys')
    (hobserver : sys.supervisor.observer = observer) (hcall : sys.calls[j]? = some call)
    (hdeparts : call.Departs observer outcome) :
    ∃ call', sys'.calls[j]? = some call' ∧ call'.Departs observer outcome ∧
      eventsOf j sys actions ++ call.notices observer outcome =
        call'.notices observer outcome := by
  induction actions generalizing sys call with
  | nil =>
      cases hrun
      exact ⟨call, hcall, hdeparts, rfl⟩
  | cons a rest ih =>
      rw [run?_cons] at hrun
      obtain ⟨mid, hmid, hrest⟩ := Option.bind_eq_some_iff.mp hrun
      have hnow : mid.supervisor.observer = observer := (observer_step hmid).trans hobserver
      simp only [eventsOf, hmid]
      by_cases haction : a = .call j
      · subst haction
        obtain ⟨between, hbetween, hnext, hnewer⟩ :=
          departs_own_step hmid hobserver hcall hdeparts
        obtain ⟨call', hcall', hdeparts', hevents⟩ := ih hrest hnow hbetween hnext
        refine ⟨call', hcall', hdeparts', ?_⟩
        rw [if_pos rfl, List.append_assoc, hnewer, hevents]
      · have hkept := call_kept hmid hcall hdeparts.not_cycle haction
        obtain ⟨call', hcall', hdeparts', hevents⟩ := ih hrest hnow hkept hdeparts
        refine ⟨call', hcall', hdeparts', ?_⟩
        rw [if_neg haction, List.append_nil, hevents]

end Supervision

end PluginKit
