import PluginKit.Proofs.Lifecycle.Sound

/-!
# Requests and cycles in the order in which they come

The trace of a run shows when a restart is requested, when a loop leaves its wait for one, and when
sections begin and end. As long as no stop is called for and the observer bears all metrics, there
is one loop at most, and it never ends; the trace is then what that loop goes through.
-/

namespace PluginKit

/-! ## Traces -/

/-- What a trace shows. -/
inductive Milestone where
  | requested
  | restarts
  | begins (sec : Section)
  | ends (sec : Section) (worked : Bool)
deriving DecidableEq, Repr

def Turn.milestones (t : Turn) (p : Progress) : List Milestone :=
  (match t with
    | enters sec => [.begins sec]
    | advances _ _ => []) ++
  (match p with
    | .inl _ => []
    | .inr outcome => [.ends t.section_ outcome.isOk])

namespace Supervision

variable {sys sys' : Supervision} {who : Holder} {a : Action}

def requests (sys : Supervision) : Action → Bool
  | .call j =>
      match sys.calls[j]? with
      | some .restart => true
      | _ => false
  | .escalate _ => !sys.supervisor.signals.stopped
  | _ => false

def resumes (sys : Supervision) : Action → Bool
  | .loop i =>
      match sys.loops[i]? with
      | some .waiting => decide (sys.supervisor.signals.poll.2 = some .restart)
      | _ => false
  | _ => false

def milestones (sys : Supervision) (a : Action) : List Milestone :=
  match sys.turnOf? a with
  | some t => t.milestones (t.take sys.supervisor).2
  | none =>
      if sys.requests a then [.requested]
      else if sys.resumes a then [.restarts]
      else []

def trace (sys : Supervision) : List Action → List Milestone
  | [] => []
  | a :: rest =>
      match sys.act? a with
      | none => []
      | some mid => sys.milestones a ++ mid.trace rest

/-- What every step keeps that takes only certain actions, such runs keep. -/
theorem run?_keeps_trace {allowed : Action → Prop} {P : List Milestone → Supervision → Prop}
    (step : ∀ {before : List Milestone} {sys sys' : Supervision} {a : Action}, allowed a →
      P before sys → sys.act? a = some sys' → P (before ++ sys.milestones a) sys')
    {before : List Milestone} {sys sys' : Supervision} {actions : List Action}
    (hallowed : ∀ a ∈ actions, allowed a) (hP : P before sys)
    (h : sys.run? actions = some sys') : P (before ++ sys.trace actions) sys' := by
  induction actions generalizing sys before with
  | nil =>
      simp only [run?, Option.some.injEq] at h
      subst h
      simpa [trace] using hP
  | cons a rest ih =>
      rw [run?_cons] at h
      obtain ⟨mid, hmid, hrest⟩ := Option.bind_eq_some_iff.mp h
      obtain ⟨hfirst, hothers⟩ := List.forall_mem_cons.mp hallowed
      simp only [trace, hmid, ← List.append_assoc]
      exact ih hothers (step hfirst hP hmid) hrest

end Supervision

/-! ## What a cycle leaves alone -/

namespace Supervisor

variable {s t : Supervisor}

/-- Neither the requests nor the observer have changed. -/
structure Spared (s t : Supervisor) : Prop where
  signals : t.signals = s.signals
  observer : t.observer = s.observer

theorem Spared.refl (s : Supervisor) : s.Spared s := ⟨rfl, rfl⟩

theorem spared_cleared (s : Supervisor) : s.Spared s.cleared.1 := by
  refine ⟨s.cleared_torn.signals, ?_⟩
  unfold cleared tearDown
  generalize Socket.removeAll ({ s with servers := [] } : Supervisor).name s.files s.sockets =
    removed
  obtain ⟨files, r | u⟩ := removed
  · rfl
  · rw [stopPlugin_fst]
    rfl

theorem spared_conclude {outcome : LifecycleOutcome} {purpose : Purpose}
    (h : purpose ≠ .farewell) : s.Spared (s.conclude outcome purpose).1 := by
  cases purpose with
  | rollback cause => exact ⟨rfl, rfl⟩
  | cycle => cases outcome <;> exact ⟨rfl, rfl⟩
  | farewell => contradiction

theorem spared_enter {kind : CycleKind} : s.Spared (s.enter (.cycle kind)).1 := by
  cases kind with
  | start =>
      simp only [enter]
      generalize hp : s.enterStart = p
      have hopens := enterStart_cases hp
      cases hopens <;> exact ⟨rfl, rfl⟩
  | stop =>
      simp only [enter, enterStop]
      split <;> exact ⟨rfl, rfl⟩

theorem spared_advance {kind : CycleKind} {stage : Stage}
    (h : stage.occursIn (.cycle kind) = true) : s.Spared (s.advance stage).1 := by
  cases stage with
  | binding left =>
      cases left with
      | nil => exact ⟨rfl, rfl⟩
      | cons socket left =>
          simp only [advance]
          split <;> exact ⟨rfl, rfl⟩
  | dialing server left =>
      simp only [advance]
      split <;> exact ⟨rfl, rfl⟩
  | giveUp server r => exact .refl s
  | draining purpose =>
      have hpurpose : purpose ≠ .farewell := by
        rintro rfl
        cases kind <;> simp [Stage.occursIn] at h
      cases hall : allStopped s.servers with
      | false =>
          simp only [advance, hall]
          exact ⟨rfl, rfl⟩
      | true =>
          have hcleared := s.spared_cleared
          have hend : s.cleared.1.Spared (s.cleared.1.conclude s.cleared.2 purpose).1 :=
            spared_conclude hpurpose
          simp only [advance, hall, if_true]
          exact ⟨hend.signals.trans hcleared.signals, hend.observer.trans hcleared.observer⟩

/-- A cycle that is over as soon as it begins has failed. -/
theorem enter_fails {kind : CycleKind} {outcome : LifecycleOutcome}
    (h : (s.enter (.cycle kind)).2 = .inr outcome) : ∃ r, outcome = .error r := by
  cases kind with
  | start =>
      simp only [enter] at h
      generalize hp : s.enterStart = p at h
      have hopens := enterStart_cases hp
      cases hopens with
      | unprepared _ _ _ _ => simp at h
      | prepared _ _ _ _ => simp at h
      | _ => exact ⟨_, (Sum.inr.inj h).symm⟩
  | stop =>
      simp only [enter, enterStop] at h
      split at h
      · exact ⟨_, (Sum.inr.inj h).symm⟩
      · simp at h

end Supervisor

namespace Supervision

variable {sys sys' : Supervision} {who : Holder}

theorem AccessStep.spared {kind : CycleKind} {access : Access}
    {p : Supervision × Sum Access LifecycleOutcome} (h : AccessStep sys who (.cycle kind) access p)
    (ho : sys.Orderly) (hplace : sys.place who = some (.cycle kind, access)) :
    sys.supervisor.Spared p.1.supervisor := by
  cases h with
  | queues hbusy => exact .refl _
  | enters hlock hqueue => rw [goOn_eq]; exact Supervisor.spared_enter
  | admitted hlock hhead => rw [goOn_eq]; exact Supervisor.spared_enter
  | advances =>
      rw [goOn_eq]
      exact Supervisor.spared_advance (ho.staged (stage?_of_place hplace)).2

theorem waiting_cases {i : Nat} (hloop : sys.loops[i]? = some .waiting)
    (hstopped : sys.supervisor.signals.stopped = false) (hstep : sys.loopStep? i = some sys') :
    sys.supervisor.signals.poll.2 = some .restart ∧
        sys' = (sys.withSignals sys.supervisor.signals.poll.1).setLoop i
          (.attempting .stop .asking) ∨
      sys.supervisor.signals.poll.2 = none ∧
        sys' = sys.withSignals sys.supervisor.signals.poll.1 := by
  have hstop := sys.supervisor.signals.poll_eq_stop_iff
  simp only [loopStep?, hloop] at hstep
  generalize hanswer : sys.supervisor.signals.poll = answer at hstep hstop
  obtain ⟨signals, _ | _ | _⟩ := answer
  · simp only at hstep
    split at hstep
    · contradiction
    · exact .inr ⟨rfl, (Option.some.inj hstep).symm⟩
  · simp [hstopped] at hstop
  · exact .inl ⟨rfl, (Option.some.inj hstep).symm⟩

end Supervision

end PluginKit
