import PluginKit.Proofs.Lifecycle.Departure

/-!
# What is left besides the last stop

A loop at work is the launched one, or a stop waits for it. So when nothing else is under way, a
stop that has waited for its loop leaves none. Who has called for what is told by the calls made
so far.
-/

namespace PluginKit

namespace Supervision

variable {sys sys' : Supervision} {a : Action} {j : Nat} {call : Call} {observer : Observer}
  {outcome : LifecycleOutcome}

/-! ## The loops that are left -/

/-- Every loop at work is the launched one, or a stop waits for it. -/
def Handled (sys : Supervision) : Prop :=
  ∀ (i : Nat) (loop : Loop), sys.loops[i]? = some loop → loop.isOver = false →
    sys.launched = some i ∨
      ∃ (k : Nat) (outcome : LifecycleOutcome), sys.calls[k]? = some (.joining outcome i)

/-- What an action makes of the loop that is known to be launched. -/
inductive LaunchedMove (sys : Supervision) (a : Action) (sys' : Supervision) : Prop
  | same (launched : sys'.launched = sys.launched)
  | taken {k i : Nat} {outcome : LifecycleOutcome} (before : sys.launched = some i)
      (after : sys'.calls[k]? = some (.joining outcome i)) (launched : sys'.launched = none)
  | launches {k : Nat} (call : sys.calls[k]? = some .start) (idle : sys.isRunning = false)

theorem act?_launched (hstep : sys.act? a = some sys') : LaunchedMove sys a sys' := by
  cases act?_cases hstep with
  | loop hloop hmove => exact .same hmove.keeps_tasks.2.2
  | @call j old new mid hcall hmove =>
      have hlt : j < sys.calls.length := (List.getElem?_eq_some_iff.mp hcall).choose
      cases hmove with
      | launches =>
          cases hrun : sys.isRunning with
          | true =>
              rw [launch_of_running hrun]
              exact .same rfl
          | false => exact .launches hcall hrun
      | @takes outcome i hlaunched =>
          have hafter : (({ sys with launched := none } : Supervision).setCall j
              (.joining outcome i)).calls[j]? = some (.joining outcome i) := by
            simp [setCall, hlt]
          exact .taken hlaunched hafter rfl
      | stop hacc => exact .same hacc.keeps_tasks.2.2
      | cycle hacc => exact .same hacc.keeps_tasks.2.2
      | _ => exact .same rfl
  | _ => exact .same rfl

/-- A stop that waits for a loop goes on only when that is over. -/
theorem joining_step {i k : Nat} {loop : Loop} (hstep : sys.act? a = some sys')
    (hcall : sys.calls[k]? = some (.joining outcome i)) (hloop : sys.loops[i]? = some loop)
    (hlive : loop.isOver = false) : sys'.calls[k]? = some (.joining outcome i) := by
  by_cases haction : a = .call k
  · subst haction
    obtain ⟨old, mid, new, hold, hmove, rfl⟩ := callStep?_cases hstep
    obtain rfl : old = .joining outcome i := Option.some.inj (hold.symm.trans hcall)
    cases hmove with
    | joins hover => simp [hloop, hlive] at hover
  · exact call_kept hstep hcall rfl haction

theorem Handled.step (h : sys.Handled) (hstep : sys.act? a = some sys') : sys'.Handled := by
  intro i loop hloop hlive
  rcases working_step hstep hloop hlive with ⟨old, hold, hlived⟩ | hlaunched
  · rcases h i old hold hlived with hlaunched | ⟨k, outcome, hcall⟩
    · cases act?_launched hstep with
      | same hsame => exact .inl (hsame.trans hlaunched)
      | @taken k i' outcome hbefore hafter hnone =>
          obtain rfl : i' = i := Option.some.inj (hbefore.symm.trans hlaunched)
          exact .inr ⟨k, outcome, hafter⟩
      | launches hcall hidle =>
          rw [isRunning_of_launched hlaunched hold hlived] at hidle
          contradiction
    · exact .inr ⟨k, outcome, joining_step hstep hcall hold hlived⟩
  · exact .inl hlaunched

theorem Handled.of_finished (h : sys.Handled) (hcall : sys.calls[j]? = some (.finished outcome))
    (i : Nat) (loop : Loop) (hloop : sys.loops[i]? = some loop) (hlive : loop.isOver = false) :
    sys.launched = some i ∨
      ∃ (k : Nat) (other : LifecycleOutcome),
        k ≠ j ∧ sys.calls[k]? = some (.joining other i) := by
  rcases h i loop hloop hlive with hlaunched | ⟨k, other, hjoining⟩
  · exact .inl hlaunched
  · refine .inr ⟨k, other, ?_, hjoining⟩
    rintro rfl
    rw [hcall] at hjoining
    cases hjoining

end Supervision

def Call.hasLetGo : Call → Bool
  | joining _ _ => true
  | finished _ => true
  | _ => false

/-- Whether a call launches no loop and waits for none. -/
def Call.isIdle : Call → Bool
  | restart => true
  | finished _ => true
  | panicked => true
  | _ => false

/-- A stop that has come to rest has answered, if the observer bears being told of its failure. -/
theorem Call.Departs.eq_finished {observer : Observer} {outcome : LifecycleOutcome} {call : Call}
    (h : call.Departs observer outcome) (hcalm : observer.panics .stopFailed = false)
    (hidle : call.isIdle = true) : call = .finished outcome := by
  cases h with
  | finished => rfl
  | panicked fails panics =>
      rw [hcalm] at panics
      contradiction
  | _ => contradiction

def Supervision.Action.isCall : Supervision.Action → Bool
  | start _ => true
  | restart => true
  | stop => true
  | _ => false

namespace Supervision

variable {sys sys' : Supervision} {a : Action} {j : Nat} {call : Call} {observer : Observer}
  {outcome : LifecycleOutcome}

/-- A call that is made comes last, and only the last stop is called for as one. -/
theorem act?_made (hmade : a.isCall = true) (hstep : sys.act? a = some sys') :
    ∃ new : Call, sys'.calls = sys.calls ++ [new] ∧
      ∀ access, new = .stop access → a = .stop := by
  cases act?_cases hstep with
  | asks hasks =>
      refine ⟨_, rfl, ?_⟩
      rintro access rfl
      cases hasks
      rfl
  | _ => contradiction

theorem calls_length_step (hstep : sys.act? a = some sys') :
    sys'.calls.length = sys.calls.length + if a.isCall then 1 else 0 := by
  cases act?_cases hstep with
  | asks hasks =>
      have hmade : a.isCall = true := by cases hasks <;> rfl
      simp [addCall, hmade]
  | loop hloop hmove => simp [setLoop, hmove.keeps_tasks.2.1, Action.isCall]
  | call hcall hmove => simp [setCall, hmove.keeps_calls, Action.isCall]
  | escalates => simp [escalate, Action.isCall]
  | _ => rfl

/-- Besides one call none launches a loop or waits for one, and once that call has let go of its
loop none is known to be launched. -/
structure Lonely (j : Nat) (sys : Supervision) : Prop where
  others : ∀ (k : Nat) (call : Call), sys.calls[k]? = some call → k ≠ j → call.isIdle = true
  launched : ∀ call : Call, sys.calls[j]? = some call → call.hasLetGo = true →
    sys.launched = none

theorem Lonely.others_step (h : sys.Lonely j) (hsound : sys.Sound)
    (hperm : sys.supervisor.state = .permanentlyStopped) (hstep : sys.act? a = some sys')
    (hstop : a ≠ .stop) {k : Nat} {call : Call} (hcall : sys'.calls[k]? = some call)
    (hne : k ≠ j) : call.isIdle = true := by
  rcases Nat.lt_or_ge k sys.calls.length with hlt | hge
  · have hold : sys.calls[k]? = some sys.calls[k] := List.getElem?_eq_getElem hlt
    have hidle := h.others k _ hold hne
    by_cases haction : a = .call k
    · subst haction
      obtain ⟨old, mid, new, hat, hmove, rfl⟩ := callStep?_cases hstep
      rw [← Option.some.inj (hat.symm.trans hold)] at hidle
      cases hmove with
      | notifies =>
          obtain rfl : .finished (.ok ()) = call := by
            simpa [setCall, withSignals, hlt] using hcall
          rfl
      | _ => contradiction
    · have hcycle := hsound.attended.uncycled _ (List.mem_of_getElem? hold)
      have hkept := call_kept hstep hold hcycle haction
      rw [← Option.some.inj (hkept.symm.trans hcall)]
      exact hidle
  · -- a new call is refused at once
    have hlen := calls_length_step hstep
    have hbound : k < sys'.calls.length := (List.getElem?_eq_some_iff.mp hcall).choose
    have hrests := hsound.rests hperm hstep
    have hnew : ∃ r, sys'.calls = sys.calls ++ [.finished (.error r)] := by
      cases a with
      | start runtime => exact ⟨_, hrests.start runtime rfl⟩
      | restart => exact ⟨_, hrests.restart rfl⟩
      | stop => contradiction
      | _ => simp [Action.isCall] at hlen; omega
    obtain ⟨r, hcalls⟩ := hnew
    rw [hcalls, List.getElem?_append_right hge] at hcall
    have hmem := List.mem_of_getElem? hcall
    rw [List.mem_singleton.mp hmem]
    rfl

/-- A stop that lets go of its loop leaves none that is known to be launched. -/
theorem launched_own_step (hstep : sys.act? (.call j) = some sys')
    (hcall : sys.calls[j]? = some call) (hdeparts : call.Departs observer outcome)
    (hbefore : call.hasLetGo = true → sys.launched = none) {call' : Call}
    (hcall' : sys'.calls[j]? = some call') (hgone : call'.hasLetGo = true) :
    sys'.launched = none := by
  obtain ⟨old, mid, new, hold, hmove, rfl⟩ := callStep?_cases hstep
  obtain rfl : old = call := Option.some.inj (hold.symm.trans hcall)
  have hlt : j < sys.calls.length := (List.getElem?_eq_some_iff.mp hcall).choose
  have hnew : new = call' := by
    simpa [setCall, hmove.keeps_calls, hlt] using hcall'
  subst hnew
  show mid.launched = none
  cases hdeparts with
  | reporting =>
      cases hmove with
      | goes => contradiction
      | tells =>
          revert hgone
          split <;> exact fun hgone => absurd hgone Bool.false_ne_true
  | leaving =>
      cases hmove with
      | takes hlaunched => rfl
      | finds hnone => exact hnone
  | joining =>
      cases hmove with
      | joins hover => exact hbefore rfl
  | finished => cases hmove
  | panicked hfails hpanics => cases hmove

theorem Lonely.launched_step (h : sys.Lonely j) (hstep : sys.act? a = some sys')
    (hcall : sys.calls[j]? = some call) (hdeparts : call.Departs observer outcome)
    {call' : Call} (hcall' : sys'.calls[j]? = some call') (hgone : call'.hasLetGo = true) :
    sys'.launched = none := by
  have hbefore := h.launched call hcall
  by_cases haction : a = .call j
  · subst haction
    exact launched_own_step hstep hcall hdeparts hbefore hcall' hgone
  · have hkept := call_kept hstep hcall hdeparts.not_cycle haction
    obtain rfl : call = call' := Option.some.inj (hkept.symm.trans hcall')
    cases act?_launched hstep with
    | same hsame => exact hsame.trans (hbefore hgone)
    | taken _ _ hnone => exact hnone
    | @launches k hstart hidle =>
        by_cases hkj : k = j
        · subst hkj
          rw [hcall] at hstart
          cases hstart
          cases hdeparts
        · have hquiet := h.others k _ hstart hkj
          contradiction

theorem Lonely.run {actions : List Action} (h : sys.Lonely j) (hsound : sys.Sound)
    (hperm : sys.supervisor.state = .permanentlyStopped)
    (hobserver : sys.supervisor.observer = observer) (hcall : sys.calls[j]? = some call)
    (hdeparts : call.Departs observer outcome) (hstop : .stop ∉ actions)
    (hrun : sys.run? actions = some sys') : sys'.Lonely j := by
  induction actions generalizing sys call with
  | nil =>
      cases hrun
      exact h
  | cons a rest ih =>
      rw [run?_cons] at hrun
      obtain ⟨mid, hmid, hrest⟩ := Option.bind_eq_some_iff.mp hrun
      have hfirst : a ≠ .stop := fun heq => hstop (heq ▸ List.mem_cons_self)
      have hothers : .stop ∉ rest := fun hmem => hstop (List.mem_cons_of_mem a hmem)
      have hone : sys.run? [a] = some mid := by rw [run?_cons, hmid]; rfl
      obtain ⟨between, hbetween, hnext, -⟩ := departs_run hone hobserver hcall hdeparts
      have hlonely : mid.Lonely j :=
        ⟨fun k call => h.others_step hsound hperm hmid hfirst,
          fun call => h.launched_step hmid hcall hdeparts⟩
      exact ih hlonely (hsound.step hmid) (hsound.orderly.stays_stopped hmid hperm)
        ((observer_step hmid).trans hobserver) hbetween hnext hothers hrest

/-- A stop that is alone leaves no loop. -/
theorem Lonely.loops_over (h : sys.Lonely j) (hhandled : sys.Handled)
    (hcall : sys.calls[j]? = some (.finished outcome)) : ∀ loop ∈ sys.loops, loop.isOver = true := by
  intro loop hmem
  obtain ⟨i, hloop⟩ := List.getElem?_of_mem hmem
  cases hlive : loop.isOver with
  | true => rfl
  | false =>
      rcases hhandled.of_finished hcall i loop hloop hlive with
        hlaunched | ⟨k, other, hne, hjoining⟩
      · rw [h.launched _ hcall rfl] at hlaunched
        contradiction
      · have hidle := h.others k _ hjoining hne
        contradiction

theorem lonely_left {last left : Supervision}
    (hcalls : left.calls = last.calls.set j (.reporting outcome))
    (hcall : left.calls[j]? = some (.reporting outcome))
    (hidle : ∀ (k : Nat) (call : Call), last.calls[k]? = some call → k ≠ j →
      call.isIdle = true) : left.Lonely j where
  others k call hk hne := by
    rw [hcalls, List.getElem?_set_ne (Ne.symm hne)] at hk
    exact hidle k call hk hne
  launched call hj hgone := by
    obtain rfl : .reporting outcome = call := Option.some.inj (hcall.symm.trans hj)
    contradiction

/-! ## The calls that were made -/

/-- The calls made in a run, in order: the index of a call is its place among them. -/
def callsMade (actions : List Action) : List Action := actions.filter Action.isCall

/-- A call is a stop that has not been given the lock back, or the last stop was made. -/
def StopsAt (sys : Supervision) (j : Nat) : Prop :=
  (∃ access, sys.calls[j]? = some (.stop access)) ∨
    sys.supervisor.state = .permanentlyStopped

theorem StopsAt.step (h : sys.StopsAt j) (hsound : sys.Sound) (hstep : sys.act? a = some sys') :
    sys'.StopsAt j := by
  rcases h with ⟨access, hcall⟩ | hperm
  · by_cases haction : a = .call j
    · subst haction
      obtain ⟨old, mid, new, hold, hmove, rfl⟩ := callStep?_cases hstep
      obtain rfl : old = .stop access := Option.some.inj (hold.symm.trans hcall)
      have hlt : j < sys.calls.length := (List.getElem?_eq_some_iff.mp hcall).choose
      cases hmove with
      | @stop access p hacc =>
          obtain ⟨mid, access' | outcome⟩ := p
          · have hcalls : mid.calls = sys.calls := hacc.keeps_tasks.2.1
            exact .inl ⟨access', by simp [setCall, hcalls, hlt, Call.afterStop]⟩
          · have hnow : mid.supervisor.state = .permanentlyStopped :=
              hsound.orderly.stopped_of_stop hcall hacc
            exact .inr hnow
    · exact .inl ⟨access, call_kept hstep hcall rfl haction⟩
  · exact .inr (hsound.orderly.stays_stopped hstep hperm)

/-- The calls made so far are those of a list of actions. -/
structure Made (made : List Action) (sys : Supervision) : Prop where
  length : sys.calls.length = made.length
  stops : ∀ j, made[j]? = some .stop → sys.StopsAt j
  stop : ∀ (j : Nat) (access : Access), sys.calls[j]? = some (.stop access) →
    made[j]? = some .stop

theorem Made.stops_step {made : List Action} (h : Made made sys) (hsound : sys.Sound)
    (hstep : sys.act? a = some sys') {j : Nat} (hj : (made ++ callsMade [a])[j]? = some .stop) :
    sys'.StopsAt j := by
  rcases Nat.lt_or_ge j made.length with hlt | hge
  · rw [List.getElem?_append_left hlt] at hj
    exact (h.stops j hj).step hsound hstep
  · rw [List.getElem?_append_right hge] at hj
    have hmem := List.mem_filter.mp (List.mem_of_getElem? hj)
    obtain rfl : .stop = a := List.mem_singleton.mp hmem.1
    have hone : callsMade [.stop] = [.stop] := rfl
    obtain ⟨hzero, -⟩ := List.getElem?_eq_some_iff.mp hj
    have hlast : j = sys.calls.length := by
      rw [hone, List.length_singleton] at hzero
      rw [h.length]
      omega
    cases hstep
    exact .inl ⟨.asking, by simp [Supervision.stop, addCall, hlast]⟩

theorem stop_of_stop_step (hsound : sys.Sound) (hstep : sys.act? a = some sys')
    (hlt : j < sys.calls.length) {access : Access} (hcall : sys'.calls[j]? = some (.stop access)) :
    ∃ access', sys.calls[j]? = some (.stop access') := by
  by_cases haction : a = .call j
  · subst haction
    obtain ⟨old, mid, new, hat, hmove, rfl⟩ := callStep?_cases hstep
    have hnew : new = .stop access := by
      simpa [setCall, hmove.keeps_calls, hlt] using hcall
    cases hmove with
    | @stop access' p hacc => exact ⟨access', hat⟩
    | @cycle kind access' p hacc => obtain ⟨mid, after | outcome⟩ := p <;> contradiction
    | tells =>
        revert hnew
        split <;> exact fun hnew => Call.noConfusion hnew
    | _ => contradiction
  · have hold : sys.calls[j]? = some sys.calls[j] := List.getElem?_eq_getElem hlt
    have hcycle := hsound.attended.uncycled _ (List.mem_of_getElem? hold)
    have hkept := call_kept hstep hold hcycle haction
    exact ⟨access, hold.trans (hkept.symm.trans hcall)⟩

theorem Made.stop_step {made : List Action} (h : Made made sys) (hsound : sys.Sound)
    (hstep : sys.act? a = some sys') {j : Nat} {access : Access}
    (hcall : sys'.calls[j]? = some (.stop access)) :
    (made ++ callsMade [a])[j]? = some .stop := by
  rcases Nat.lt_or_ge j sys.calls.length with hlt | hge
  · obtain ⟨access', hbefore⟩ := stop_of_stop_step hsound hstep hlt hcall
    rw [List.getElem?_append_left (h.length ▸ hlt)]
    exact h.stop j access' hbefore
  · have hlen := calls_length_step hstep
    have hbound : j < sys'.calls.length := (List.getElem?_eq_some_iff.mp hcall).choose
    cases hmade : a.isCall with
    | false =>
        rw [hmade] at hlen
        simp at hlen
        omega
    | true =>
        obtain ⟨new, hcalls, hstop⟩ := act?_made hmade hstep
        rw [hcalls, List.getElem?_append_right hge] at hcall
        obtain rfl := hstop access (List.mem_singleton.mp (List.mem_of_getElem? hcall)).symm
        have hlast : j = made.length := by
          rw [hmade] at hlen
          simp at hlen
          have hlength := h.length
          omega
        rw [List.getElem?_append_right (by omega), hlast, Nat.sub_self]
        rfl

theorem Made.step {made : List Action} (h : Made made sys) (hsound : sys.Sound)
    (hstep : sys.act? a = some sys') : Made (made ++ callsMade [a]) sys' where
  length := by
    rw [calls_length_step hstep, List.length_append, h.length]
    cases hcall : a.isCall <;> simp [callsMade, hcall]
  stops _ hj := h.stops_step hsound hstep hj
  stop _ _ hcall := h.stop_step hsound hstep hcall

theorem Made.run {made actions : List Action} (h : Made made sys) (hsound : sys.Sound)
    (hrun : sys.run? actions = some sys') : Made (made ++ callsMade actions) sys' := by
  induction actions generalizing sys made with
  | nil =>
      cases hrun
      simpa [callsMade] using h
  | cons a rest ih =>
      rw [run?_cons] at hrun
      obtain ⟨mid, hmid, hrest⟩ := Option.bind_eq_some_iff.mp hrun
      have hsplit : callsMade (a :: rest) = callsMade [a] ++ callsMade rest :=
        List.filter_append [a] rest
      rw [hsplit, ← List.append_assoc]
      exact ih (h.step hsound hmid) (hsound.step hmid) hrest

end Supervision

end PluginKit
