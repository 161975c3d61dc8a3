import PluginKit.Proofs.Lifecycle.Order
import PluginKit.Proofs.Lifecycle.Task

/-!
# The loop of a supervision

Until the last stop at most one loop is at work, it is the launched one, and it looks after the
plugin as long as that is served. So a start cycle never finds a plugin that is served.
-/

namespace PluginKit

def Loop.tends : Loop → Bool
  | finished .start (.ok ()) => true
  | waiting => true
  | attempting .stop .asking => true
  | attempting .stop .queued => true
  | _ => false

theorem Loop.isOver_of_tends {loop : Loop} (h : loop.tends = true) : loop.isOver = false := by
  cases loop <;> simp_all [tends, isOver]

@[simp] theorem Loop.tends_faded (id : Nat) (loop : Loop) :
    (loop.faded id).tends = loop.tends := by
  cases loop with
  | attempting kind access => cases kind <;> cases access <;> rfl
  | _ => rfl

namespace Supervisor

variable {s : Supervisor}

/-- A section that is over as soon as it begins leaves the plugin served only if it was. -/
theorem serving_of_enter {sec : Section} {outcome : LifecycleOutcome}
    (hover : (s.enter sec).2 = .inr outcome) (h : (s.enter sec).1.state = .serving) :
    s.state = .serving := by
  by_cases hperm : s.state = .permanentlyStopped
  · rwa [enter_of_stopped hperm] at h
  by_cases hsec : sec = .cycle .start
  · subst hsec
    simp only [enter] at hover h
    generalize hp : s.enterStart = p at hover h
    have hopens := enterStart_cases hp
    cases hopens with
    | refused _ => exact h
    | bare _ _ => exact h
    | failed _ _ _ => simp at h
    | unprepared _ _ _ _ => simp at hover
    | prepared _ _ _ _ => simp at hover
  · obtain ⟨purpose, henter⟩ := enter_of_not_stopped hperm hsec
    rw [henter] at hover
    contradiction

theorem binding_of_advance {sec : Section} {stage : Stage} {outcome : LifecycleOutcome}
    (hstate : s.state = sec.during) (hstage : stage.occursIn sec = true)
    (hover : (s.advance stage).2 = .inr outcome) (h : (s.advance stage).1.state = .serving) :
    sec = .cycle .start ∧ stage = .binding [] := by
  generalize hp : s.advance stage = p at hover h
  have hadv := advance_cases hp
  cases hadv with
  | serves => rcases sec with (_ | _) | _ <;> simp_all [Stage.occursIn]
  | @drained purpose t _ hall hend =>
      simp only [hend.state] at h
      cases purpose with
      | rollback cause => simp [leaves] at h
      | cycle =>
          rcases sec with (_ | _) | _ <;> simp_all [Stage.occursIn, leaves, Section.during]
          split at h <;> simp at h
      | farewell => simp [leaves] at h
  | _ => simp at hover

/-- The last stop leaves the state that is named after it. -/
theorem stopped_of_enter {outcome : LifecycleOutcome}
    (hover : (s.enter .farewell).2 = .inr outcome) :
    (s.enter .farewell).1.state = .permanentlyStopped := by
  by_cases hperm : s.state = .permanentlyStopped
  · rwa [enter_of_stopped hperm]
  · simp [enter, enterFarewell_of_not_stopped hperm] at hover

theorem stopped_of_advance {stage : Stage} {outcome : LifecycleOutcome}
    (hstage : stage.occursIn .farewell = true) (hover : (s.advance stage).2 = .inr outcome) :
    (s.advance stage).1.state = .permanentlyStopped := by
  generalize hp : s.advance stage = p at hover ⊢
  have hadv := advance_cases hp
  cases hadv with
  | @drained purpose t _ hall hend =>
      cases purpose with
      | farewell => exact hend.state
      | _ => simp [Stage.occursIn] at hstage
  | serves => simp [Stage.occursIn] at hstage
  | _ => simp at hover

end Supervisor

namespace Supervision

variable {sys sys' : Supervision} {who : Holder} {a : Action}

theorem Orderly.take_of_stopped {t : Turn} (h : sys.Orderly) (hturn : sys.turn? who = some t)
    (hperm : sys.supervisor.state = .permanentlyStopped) :
    ∃ sec, t = .enters sec ∧
      t.take sys.supervisor = (sys.supervisor, .inr (sys.supervisor.refusal sec)) := by
  rcases turn?_cases hturn with ⟨sec, rfl, -, -⟩ | ⟨sec, stage, rfl, hplace⟩
  · exact ⟨sec, rfl, Supervisor.enter_of_stopped hperm sec⟩
  · have hstage := stage?_of_place hplace
    exact absurd hperm ((h.staged hstage).1 ▸ sec.during_ne_stopped)

theorem Orderly.stays_stopped (h : sys.Orderly) (hstep : sys.act? a = some sys')
    (hperm : sys.supervisor.state = .permanentlyStopped) :
    sys'.supervisor.state = .permanentlyStopped := by
  cases act?_kind hstep with
  | turn hactor hturn hturned =>
      obtain ⟨sec, -, htake⟩ := h.take_of_stopped hturn hperm
      rw [hturned.supervisor, htake]
      exact hperm
  | queues hidle hqueued => rw [hqueued.supervisor]; exact hperm
  | aside hidle haside => rw [haside.supervisor.state]; exact hperm
  | fades hidle hfaded => rw [hfaded.supervisor]; exact hperm

/-- A plugin that is served now was served before, or its start cycle just ended. -/
theorem Orderly.serving_cases (h : sys.Orderly) (hstep : sys.act? a = some sys')
    (hfree : sys'.lock = none) (hserving : sys'.supervisor.state = .serving) :
    sys.lock = none ∧ sys.supervisor.state = .serving ∨
      ∃ who, a.actor? = some who ∧
        sys.place who = some (.cycle .start, .holding (.binding [])) := by
  cases act?_kind hstep with
  | @turn who t hactor hturn hturned =>
      rw [hturned.lock] at hfree
      rw [hturned.supervisor] at hserving
      obtain ⟨outcome, hover⟩ := lockAfter_eq_none hfree
      rcases turn?_cases hturn with ⟨sec, rfl, hlock, -⟩ | ⟨sec, stage, rfl, hplace⟩
      · exact .inl ⟨hlock, Supervisor.serving_of_enter hover hserving⟩
      · have hstage := stage?_of_place hplace
        obtain ⟨hstate, hoccurs⟩ := h.staged hstage
        obtain ⟨rfl, rfl⟩ := Supervisor.binding_of_advance hstate hoccurs hover hserving
        exact .inr ⟨who, hactor, hplace⟩
  | queues hidle hqueued =>
      exact .inl ⟨hqueued.lock ▸ hfree, hqueued.supervisor ▸ hserving⟩
  | aside hidle haside =>
      exact .inl ⟨haside.lock ▸ hfree, haside.supervisor.state ▸ hserving⟩
  | fades hidle hfaded =>
      refine .inl ⟨hfaded.lock ▸ hfree, ?_⟩
      rw [hfaded.supervisor] at hserving
      exact hserving

/-! ## The one loop at work -/

/-- No single cycles are called for, a stop leaves its section only once it is the last, and the
one loop at work has the plugin in its care while that is served. -/
structure Attended (sys : Supervision) : Prop where
  uncycled : ∀ call ∈ sys.calls, call.isCycle = false
  past : ∀ call ∈ sys.calls, call.isPast = true →
    sys.supervisor.state = .permanentlyStopped
  alone : sys.supervisor.state ≠ .permanentlyStopped →
    ∀ {i loop}, sys.loops[i]? = some loop → loop.isOver = false → sys.launched = some i
  tended : sys.lock = none → sys.supervisor.state = .serving →
    ∃ i loop, sys.launched = some i ∧ sys.loops[i]? = some loop ∧ loop.tends = true

theorem attended_unstarted {s : Supervisor} (hstate : s.state = .idle) :
    (unstarted s).Attended where
  uncycled _ h := by simp [unstarted] at h
  past _ h := by simp [unstarted] at h
  alone _ _ _ h := by simp [unstarted] at h
  tended _ h := by simp [unstarted, hstate] at h

theorem Attended.uncycled_step (h : sys.Attended) (hstep : sys.act? a = some sys') :
    ∀ call ∈ sys'.calls, call.isCycle = false := by
  cases act?_calls hstep with
  | same hcalls => rw [hcalls]; exact h.uncycled
  | @made new hcalls hnew =>
      rw [hcalls]
      intro call hmem
      rcases List.mem_append.mp hmem with hold | hlast
      · exact h.uncycled call hold
      · rw [List.mem_singleton.mp hlast]
        exact hnew
  | @step j old new mid hcall hmove haction hafter =>
      subst hafter
      intro call hmem
      rcases List.mem_or_eq_of_mem_set hmem with hold | rfl
      · exact h.uncycled call (hmove.keeps_calls ▸ hold)
      · have hcycle := h.uncycled old (List.mem_of_getElem? hcall)
        cases hmove with
        | stop hacc => rename_i p; rcases p with ⟨mid, access | outcome⟩ <;> rfl
        | cycle hacc => simp [Call.isCycle] at hcycle
        | tells => split <;> rfl
        | _ => rfl
  | faded hcalls =>
      rw [hcalls]
      intro call hmem
      obtain ⟨old, hold, rfl⟩ := List.mem_map.mp hmem
      rw [Call.isCycle_faded]
      exact h.uncycled old hold

theorem outcomeOf_eq_inr {p : Progress} {outcome : LifecycleOutcome}
    (h : outcomeOf p = .inr outcome) : p = .inr outcome := by
  cases p with
  | inl stage => simp [outcomeOf] at h
  | inr o => simpa [outcomeOf] using h

/-- A stop leaves its section in the state that is named after it. -/
theorem Orderly.stopped_of_stop {j : Nat} {access : Access} {outcome : LifecycleOutcome}
    {mid : Supervision} (h : sys.Orderly) (hcall : sys.calls[j]? = some (.stop access))
    (hacc : AccessStep sys (.call j) .farewell access (mid, .inr outcome)) :
    mid.supervisor.state = .permanentlyStopped := by
  generalize hp : (mid, Sum.inr outcome) = p at hacc
  cases hacc with
  | queues hbusy => simp at hp
  | enters hlock hqueue =>
      simp only [goOn_eq, Prod.mk.injEq] at hp
      obtain ⟨rfl, hover⟩ := hp
      exact Supervisor.stopped_of_enter (outcomeOf_eq_inr hover.symm)
  | admitted hlock hhead =>
      simp only [goOn_eq, Prod.mk.injEq] at hp
      obtain ⟨rfl, hover⟩ := hp
      exact Supervisor.stopped_of_enter (outcomeOf_eq_inr hover.symm)
  | @advances stage =>
      simp only [goOn_eq, Prod.mk.injEq] at hp
      obtain ⟨rfl, hover⟩ := hp
      have hstage : sys.stage? (.call j) = some (.farewell, stage) := by
        simp [stage?, place, hcall, Call.section?, Place.stage?]
      exact Supervisor.stopped_of_advance (h.staged hstage).2 (outcomeOf_eq_inr hover.symm)

theorem Attended.past_step (ho : sys.Orderly) (h : sys.Attended)
    (hstep : sys.act? a = some sys') :
    ∀ call ∈ sys'.calls, call.isPast = true →
      sys'.supervisor.state = .permanentlyStopped := by
  have hstays := ho.stays_stopped hstep
  cases act?_calls hstep with
  | same hcalls =>
      intro call hmem hpast
      exact hstays (h.past call (hcalls ▸ hmem) hpast)
  | @made new hcalls hcycle hnew =>
      intro call hmem hpast
      rw [hcalls] at hmem
      rcases List.mem_append.mp hmem with hold | hlast
      · exact hstays (h.past call hold hpast)
      · rw [List.mem_singleton.mp hlast, hnew] at hpast
        contradiction
  | @step j old new mid hcall hmove haction hafter =>
      intro call hmem hpast
      have hold := h.past old (List.mem_of_getElem? hcall)
      subst hafter
      rcases List.mem_or_eq_of_mem_set hmem with hbefore | rfl
      · exact hstays (h.past call (hmove.keeps_calls ▸ hbefore) hpast)
      · cases hmove with
        | @stop access p hacc =>
            obtain ⟨mid, access' | outcome⟩ := p
            · simp [Call.afterStop, Call.isPast] at hpast
            · have hmid : mid.supervisor.state = .permanentlyStopped :=
                ho.stopped_of_stop hcall hacc
              exact hmid
        | @cycle kind access p hacc =>
            obtain ⟨mid, access' | outcome⟩ := p <;> simp [Call.afterCycle, Call.isPast] at hpast
        | launches => simp [Call.isPast] at hpast
        | notifies => simp [Call.isPast] at hpast
        | _ => exact hstays (hold rfl)
  | faded hcalls =>
      intro call hmem hpast
      rw [hcalls] at hmem
      obtain ⟨old, hold, rfl⟩ := List.mem_map.mp hmem
      rw [Call.isPast_faded] at hpast
      exact hstays (h.past old hold hpast)

theorem LoopStep.isOver_eq_false {i : Nat} {old new : Loop} {mid : Supervision}
    (h : LoopStep sys i old mid new) : old.isOver = false := by
  cases h <;> rfl

theorem isRunning_of_launched {i : Nat} {loop : Loop} (hlaunched : sys.launched = some i)
    (hloop : sys.loops[i]? = some loop) (hlive : loop.isOver = false) : sys.isRunning = true := by
  simp [isRunning, hlaunched, hloop, hlive]

theorem setLoop_of_ne {i k : Nat} {loop : Loop} {mid : Supervision} (h : k ≠ i)
    (hloops : mid.loops = sys.loops) : (mid.setLoop i loop).loops[k]? = sys.loops[k]? := by
  simp [setLoop, hloops, Ne.symm h]

/-- Where a running loop has moved, the running loops are the same. -/
theorem runs_before_setLoop {i k : Nat} {old new loop : Loop} {mid : Supervision}
    (hloops : mid.loops = sys.loops) (hloop : sys.loops[i]? = some old)
    (hold : old.isOver = false) (hk : (mid.setLoop i new).loops[k]? = some loop)
    (hlive : loop.isOver = false) :
    ∃ before, sys.loops[k]? = some before ∧ before.isOver = false := by
  by_cases hik : k = i
  · subst hik
    exact ⟨old, hloop, hold⟩
  · rw [setLoop_of_ne hik hloops] at hk
    exact ⟨loop, hk, hlive⟩

/-- A loop at work was at work before, or was launched just now. -/
theorem working_step {k : Nat} {loop : Loop} (hstep : sys.act? a = some sys')
    (hk : sys'.loops[k]? = some loop) (hlive : loop.isOver = false) :
    (∃ before, sys.loops[k]? = some before ∧ before.isOver = false) ∨ sys'.launched = some k := by
  cases act?_loops hstep with
  | same hloops _ => exact .inl ⟨loop, hloops ▸ hk, hlive⟩
  | step hloop hmove haction hafter =>
      subst hafter
      exact .inl (runs_before_setLoop hmove.keeps_tasks.1 hloop hmove.isOver_eq_false hk hlive)
  | wakes hloop hafter =>
      subst hafter
      exact .inl (runs_before_setLoop rfl hloop rfl hk hlive)
  | launches hidle hloops hlaunched =>
      rw [hloops] at hk
      rcases Nat.lt_or_ge k sys.loops.length with hlt | hge
      · rw [List.getElem?_append_left hlt] at hk
        exact .inl ⟨loop, hk, hlive⟩
      · obtain ⟨hlen, -⟩ := List.getElem?_eq_some_iff.mp hk
        simp at hlen
        exact .inr (by rw [hlaunched, show k = sys.loops.length by omega])
  | taken hcall hloops hlaunched => exact .inl ⟨loop, hloops ▸ hk, hlive⟩
  | faded hloops hlaunched =>
      rw [hloops, List.getElem?_map] at hk
      obtain ⟨old, hold, rfl⟩ := Option.map_eq_some_iff.mp hk
      exact .inl ⟨old, hold, by simpa using hlive⟩

theorem Attended.alone_step (ho : sys.Orderly) (h : sys.Attended)
    (hstep : sys.act? a = some sys')
    (hperm : sys'.supervisor.state ≠ .permanentlyStopped) {k : Nat} {loop : Loop}
    (hk : sys'.loops[k]? = some loop) (hlive : loop.isOver = false) :
    sys'.launched = some k := by
  have hbefore : sys.supervisor.state ≠ .permanentlyStopped :=
    fun heq => hperm (ho.stays_stopped hstep heq)
  rcases working_step hstep hk hlive with ⟨before, hthere, hran⟩ | hlaunched
  · have halone : sys.launched = some k := h.alone hbefore hthere hran
    cases act?_loops hstep with
    | same hloops hsame => rw [hsame, halone]
    | step hloop hmove haction hafter =>
        subst hafter
        exact hmove.keeps_tasks.2.2.trans halone
    | wakes hloop hafter =>
        subst hafter
        exact halone
    | launches hidle hloops hlaunched =>
        -- nothing is launched beside a loop at work
        rw [isRunning_of_launched halone hthere hran] at hidle
        contradiction
    | taken hcall hloops hlaunched =>
        exact absurd (h.past _ (List.mem_of_getElem? hcall) rfl) hbefore
    | faded hloops hsame => rw [hsame, halone]
  · exact hlaunched

theorem setLoop_self {i : Nat} {old new : Loop} {mid : Supervision}
    (h : sys.loops[i]? = some old) (hloops : mid.loops = sys.loops) :
    (mid.setLoop i new).loops[i]? = some new := by
  have hlt : i < sys.loops.length := (List.getElem?_eq_some_iff.mp h).choose
  simp [setLoop, hloops, hlt]

/-- A loop lets go of a served plugin only by taking the lock. -/
theorem LoopStep.tends {i : Nat} {old new : Loop} {mid : Supervision}
    (h : LoopStep sys i old mid new) (ho : sys.Orderly) (htends : old.tends = true)
    (hserving : sys.supervisor.state = .serving) (hfree : mid.lock = none) :
    new.tends = true := by
  have hperm : sys.supervisor.state ≠ .permanentlyStopped := by rw [hserving]; decide
  have hquiet : sys.supervisor.signals.stopped = false := by
    simpa using fun hs => hperm (ho.tokened.mp hs)
  have hstop : (sys.supervisor.enter (.cycle .stop)).2 = .inl (.draining .cycle) := by
    rw [Supervisor.enter, Supervisor.enterStop_of_not_stopped hperm]
  cases h with
  | @section_ kind access p hacc =>
      cases kind with
      | start => simp [Loop.tends] at htends
      | stop =>
          cases hacc with
          | queues hbusy => rfl
          | enters hlock hqueue => simp [goOn_eq, hstop, lockAfter] at hfree
          | admitted hlock hhead => simp [goOn_eq, hstop, lockAfter] at hfree
          | advances => simp [Loop.tends] at htends
  | serves => rfl
  | restarts _ => rfl
  | parks _ => rfl
  | stops hs => rw [hquiet] at hs; contradiction
  | _ => simp [Loop.tends] at htends

/-- The loop that has the plugin in its care keeps it there. -/
theorem Attended.tended_kept (ho : sys.Orderly) (h : sys.Attended)
    (hstep : sys.act? a = some sys') (hbefore : sys.lock = none)
    (hserved : sys.supervisor.state = .serving) (hfree : sys'.lock = none) :
    ∃ i loop, sys'.launched = some i ∧ sys'.loops[i]? = some loop ∧ loop.tends = true := by
  obtain ⟨i, loop, hlaunched, hloop, htends⟩ := h.tended hbefore hserved
  have hlive := Loop.isOver_of_tends htends
  cases act?_loops hstep with
  | same hloops hsame => exact ⟨i, loop, hsame.trans hlaunched, hloops ▸ hloop, htends⟩
  | @step k old new mid hold hmove haction hafter =>
      subst hafter
      obtain ⟨hloops, -, hsame⟩ := hmove.keeps_tasks
      by_cases hik : i = k
      · subst hik
        obtain rfl : old = loop := Option.some.inj (hold.symm.trans hloop)
        exact ⟨i, new, hsame.trans hlaunched, setLoop_self hold hloops,
          hmove.tends ho htends hserved hfree⟩
      · exact ⟨i, loop, hsame.trans hlaunched, (setLoop_of_ne hik hloops).trans hloop, htends⟩
  | @wakes k kind hold hafter =>
      subst hafter
      have hik : i ≠ k := by
        rintro rfl
        rw [hloop] at hold
        cases hold
        simp [Loop.tends] at htends
      exact ⟨i, loop, hlaunched, (setLoop_of_ne hik rfl).trans hloop, htends⟩
  | launches hidle hloops hnow =>
      rw [isRunning_of_launched hlaunched hloop hlive] at hidle
      contradiction
  | taken hcall hloops hnow =>
      have hperm := h.past _ (List.mem_of_getElem? hcall) rfl
      rw [hserved] at hperm
      contradiction
  | @faded id hloops hsame =>
      refine ⟨i, loop.faded id, hsame.trans hlaunched, ?_, by simpa using htends⟩
      rw [hloops, List.getElem?_map, hloop]
      rfl

theorem Attended.loop_of_place (h : sys.Attended) {kind : CycleKind} {access : Access}
    (hplace : sys.place who = some (.cycle kind, access)) :
    ∃ i, who = .loop i ∧ sys.loops[i]? = some (.attempting kind access) := by
  cases who with
  | call j =>
      obtain ⟨call, hcall, hsection⟩ := Option.bind_eq_some_iff.mp hplace
      have hcycle := h.uncycled call (List.mem_of_getElem? hcall)
      cases call <;> simp_all [Call.section?, Call.isCycle]
  | loop i =>
      obtain ⟨loop, hloop, hsection⟩ := Option.bind_eq_some_iff.mp hplace
      cases loop with
      | attempting kind' access' =>
          cases hsection
          exact ⟨i, rfl, hloop⟩
      | _ => simp [Loop.section?] at hsection

/-- A start cycle leaves the plugin in the care of the loop that has made it. -/
theorem Attended.tended_gained (ho : sys.Orderly) (h : sys.Attended)
    (hstep : sys.act? a = some sys') (hactor : a.actor? = some who)
    (hplace : sys.place who = some (.cycle .start, .holding (.binding []))) :
    ∃ i loop, sys'.launched = some i ∧ sys'.loops[i]? = some loop ∧ loop.tends = true := by
  have hstage := stage?_of_place hplace
  have hperm : sys.supervisor.state ≠ .permanentlyStopped :=
    (ho.staged hstage).1 ▸ Section.during_ne_stopped _
  obtain ⟨i, rfl, hloop⟩ := h.loop_of_place hplace
  have hlaunched := h.alone hperm hloop rfl
  have haction : a = .loop i := by cases a <;> simp_all [Action.actor?]
  subst haction
  simp only [act?, loopStep?, hloop, access?, goOn, Supervisor.advance, Option.some.injEq] at hstep
  subst hstep
  exact ⟨i, _, hlaunched, setLoop_self hloop rfl, rfl⟩

theorem Attended.tended_step (ho : sys.Orderly) (h : sys.Attended)
    (hstep : sys.act? a = some sys') (hfree : sys'.lock = none)
    (hserving : sys'.supervisor.state = .serving) :
    ∃ i loop, sys'.launched = some i ∧ sys'.loops[i]? = some loop ∧ loop.tends = true := by
  rcases ho.serving_cases hstep hfree hserving with ⟨hbefore, hserved⟩ | ⟨who, hactor, hplace⟩
  · exact h.tended_kept ho hstep hbefore hserved hfree
  · exact h.tended_gained ho hstep hactor hplace

theorem Attended.step (ho : sys.Orderly) (h : sys.Attended) (hstep : sys.act? a = some sys') :
    sys'.Attended where
  uncycled := h.uncycled_step hstep
  past := h.past_step ho hstep
  alone := fun hperm {_ _} => h.alone_step ho hstep hperm
  tended := h.tended_step ho hstep

end Supervision

end PluginKit
