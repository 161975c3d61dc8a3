import PluginKit.Proofs.Lifecycle.Halting
import PluginKit.Proofs.Lifecycle.Leftover
import PluginKit.Proofs.Lifecycle.Progress

/-!
# What the last stop comes to

A stop that is called for comes to its end wherever the supervision stands, and the first one that
does so is the last stop. What it has done and what it leaves behind holds in every order of the
steps before it, beside it and after it. Only its loop may outlive it: another stop may have taken
the loop to wait for, and an observer that panics keeps the stop from waiting at all.
-/

namespace PluginKit

open FileSystem (Absent)

namespace Supervision

variable {sys sys' : Supervision} {j : Nat} {observer : Observer} {outcome : LifecycleOutcome}

/-- What the call `j` has done as the last stop. At `entry` it got the lock; at `last` it has
stopped all servers that were bound there; by its next step, which leaves `left` behind, it removes
the socket files and stops the plugin; and the actions `after` have led from there to `sys`. -/
structure LastStop (entry last : Supervision) (j : Nat) (left : Supervision)
    (after : List Action) (sys : Supervision) (outcome : LifecycleOutcome) : Prop where
  enters : entry.turn? (.call j) = some (.enters .farewell)
  running : last.supervisor.state ≠ .permanentlyStopped
  call : last.calls[j]? = some (.stop (.holding (.draining .farewell)))
  drained : last.supervisor.servers = entry.supervisor.servers.map Server.halted
  works : outcome = .ok () ↔
    (∃ files, Socket.Removes last.supervisor.files last.supervisor.sockets files) ∧
      last.supervisor.nextStop = .ok
  called : left.supervisor.history =
    (if failsAtPluginAtMost outcome then [.stop last.supervisor.nextStop] else []) ++
      last.supervisor.history
  absent : failsAtPluginAtMost outcome = true →
    ∀ p ∈ sys.supervisor.sockets, Absent left.supervisor.files p
  files : (∀ files, .outside files ∉ after) → sys.supervisor.files = left.supervisor.files
  sockets : sys.supervisor.sockets = last.supervisor.sockets
  servers : sys.supervisor.servers = []
  stopped : sys.supervisor.signals.stopped = true
  handled : sys.calls[j]? = some (.finished outcome) →
    ∀ (i : Nat) (loop : Loop), sys.loops[i]? = some loop → loop.isOver = false →
      sys.launched = some i ∨
        ∃ (k : Nat) (other : LifecycleOutcome), k ≠ j ∧ sys.calls[k]? = some (.joining other i)
  alone : (∀ (k : Nat) (call : Call), last.calls[k]? = some call → k ≠ j →
      call.isIdle = true) → .stop ∉ after → sys.calls[j]? = some (.finished outcome) →
    ∀ loop ∈ sys.loops, loop.isOver = true

theorem files_run {actions : List Action} (h : sys.Sound)
    (hperm : sys.supervisor.state = .permanentlyStopped)
    (hinside : ∀ files, .outside files ∉ actions) (hrun : sys.run? actions = some sys') :
    sys'.supervisor.files = sys.supervisor.files := by
  induction actions generalizing sys with
  | nil =>
      cases hrun
      rfl
  | cons a rest ih =>
      rw [run?_cons] at hrun
      obtain ⟨mid, hmid, hrest⟩ := Option.bind_eq_some_iff.mp hrun
      have hkept := ih (h.step hmid) (h.orderly.stays_stopped hmid hperm)
        (fun files hmem => hinside files (List.mem_cons_of_mem a hmem)) hrest
      rw [hkept]
      exact (h.rests hperm hmid).files fun files heq =>
        hinside files (heq ▸ List.mem_cons_self)

/-- The stop that ends its section in `left` is the last one, whatever comes then. -/
theorem Sound.lastStop {entry last left : Supervision} {after : List Action} (h : last.Sound)
    (hhandled : last.Handled) (henters : entry.turn? (.call j) = some (.enters .farewell))
    (hfound : last.supervisor.servers.map Server.halted =
      entry.supervisor.servers.map Server.halted)
    (hrunning : last.supervisor.state ≠ .permanentlyStopped)
    (hcall : last.calls[j]? = some (.stop (.holding (.draining .farewell))))
    (hdrained : Supervisor.allStopped last.supervisor.servers = true)
    (hstep : last.act? (.call j) = some left)
    (hstopped : left.supervisor.state = .permanentlyStopped)
    (hafter : left.run? after = some sys) :
    LastStop entry last j left after sys last.supervisor.cleared.2 := by
  have hcleared := last.supervisor.cleared_spec
  obtain ⟨hcalls, hreporting, hfiles, hsockets, hhistory⟩ := left_of_last hcall hdrained hstep
  have hleft : left.Sound := h.step hstep
  have hsound : sys.Sound := run?_keeps (fun hsound hstep => hsound.step hstep) hleft hafter
  have hsockets' : sys.supervisor.sockets = last.supervisor.sockets :=
    (hleft.rests_run hstopped hafter).1.sockets.trans hsockets
  have hrest := hsound.stoppedForGood (stays_stopped_run hleft hafter hstopped)
  have hhandled' : sys.Handled :=
    run?_keeps (P := Handled) (fun hnow hstep => hnow.step hstep) (hhandled.step hstep) hafter
  exact {
    enters := henters
    running := hrunning
    call := hcall
    drained := (Supervisor.map_halted_of_allStopped hdrained).symm.trans hfound
    works := by rw [hcleared.works, Supervisor.clears_iff]
    called := by rw [hhistory, hcleared.reaches]
    absent := by
      rw [hcleared.reaches, hsockets', hfiles]
      exact hcleared.absent
    files := fun hinside => files_run hleft hstopped hinside hafter
    sockets := hsockets'
    servers := hrest.servers
    stopped := hrest.stopped
    handled := hhandled'.of_finished
    alone := fun hidle hstop =>
      ((lonely_left hcalls hreporting hidle).run hleft hstopped rfl hreporting .reporting hstop
        hafter).loops_over hhandled' }

/-- A stop comes to its end, and with it everything else. -/
theorem Sound.stop_concludes (h : sys.Sound) (hstops : sys.StopsAt j) :
    ∃ sys', sys.Leads sys' ∧ sys'.Concluded := by
  rcases hstops with ⟨access, hcall⟩ | hperm
  · obtain ⟨mid, hleads, hperm⟩ := h.stops hcall
    obtain ⟨sys', hleads', hconcluded⟩ := (h.leads hleads).concludes hperm
    exact ⟨sys', hleads.trans hleads', hconcluded⟩
  · exact h.concludes hperm

section Created

variable {plugin : Plugin} {starts stops : List CallOutcome} {dirs : List Path}
  {settings : Settings} {files : FileSystem} {s : Supervisor} {actions : List Action}

/-- Wherever a supervision stands, the steps of loops and calls alone bring each stop that was
called for to its end, and that leaves the state that is named after it. Then the first stop that
was let through has done all there is to do: with the servers stopped that it has found, it has
removed the socket files and stopped the plugin as far as that works, and it has told of its failure
and of nothing else. -/
theorem first_stop_end_to_end
    (created : Supervisor.create plugin starts stops dirs settings observer files = .ok s)
    (hrun : (unstarted s).run? actions = some sys) :
    (∀ j : Nat, (callsMade actions)[j]? = some .stop →
      (∃ sys', sys.Leads sys' ∧ sys'.Concluded) ∧
        ∀ call : Call, sys.calls[j]? = some call → call.isDone = true →
          sys.supervisor.state = .permanentlyStopped) ∧
    (sys.supervisor.state = .permanentlyStopped →
      ∃ before j after entry last left outcome call,
        actions = before ++ .call j :: after ∧ (unstarted s).run? before = some last ∧
        latest? begins none (unstarted s) before = some (entry, .call j) ∧
        last.act? (.call j) = some left ∧ left.run? after = some sys ∧
        (callsMade before)[j]? = some .stop ∧ LastStop entry last j left after sys outcome ∧
        sys.calls[j]? = some call ∧ call.Departs observer outcome ∧
        eventsOf j (unstarted s) actions =
          call.notices observer outcome ++
            if failsAtPluginAtMost outcome then [.stop last.supervisor.nextStop] else []) := by
  have huntouched := (Supervisor.create_eq created).1
  have hobserver : s.observer = observer := (Supervisor.create_given created).2.2
  have hbegin : (unstarted s).Sound := sound_unstarted huntouched
  have hsound : sys.Sound := sound_of_run huntouched hrun
  have hmade : Made [] (unstarted s) := ⟨rfl, by simp, by simp [unstarted]⟩
  constructor
  · intro j hj
    have hstops := (hmade.run hbegin hrun).stops j hj
    constructor
    · exact hsound.stop_concludes hstops
    · intro call hcall hdone
      rcases hstops with ⟨access, hstop⟩ | hperm
      · rw [hcall] at hstop
        cases hstop
        contradiction
      · exact hperm
  · intro hperm
    have hidle : (unstarted s).supervisor.state ≠ .permanentlyStopped := by
      have hstate : (unstarted s).supervisor.state = .idle := huntouched.state
      rw [hstate]
      decide
    obtain ⟨before, a, after, last, left, rfl, hbefore, hrunning, hstep, hstopped, hafter⟩ :=
      run?_turns (P := fun sys => sys.supervisor.state = .permanentlyStopped) hidle hrun hperm
    have hlast : last.Sound := sound_of_run huntouched hbefore
    obtain ⟨j, rfl, hcall, hdrained⟩ := hlast.farewell_of_stopped hrunning hstep hstopped
    have hhandled : last.Handled :=
      run?_keeps (P := Handled) (fun hnow hstep => hnow.step hstep) (by simp [Handled, unstarted])
        hbefore
    have hobserver' : last.supervisor.observer = observer :=
      run?_keeps (P := fun sys => sys.supervisor.observer = observer)
        (fun hnow hstep => (observer_step hstep).trans hnow) hobserver hbefore
    have hstop := (hmade.run hbegin hbefore).stop j _ hcall
    have hstage : last.stage? (.call j) = some (.farewell, .draining .farewell) :=
      stage?_of_place (by simp [place, hcall, Call.section?])
    obtain ⟨entry, a, hlatest, hactor, henters, hfound⟩ :=
      halting_of_run huntouched hbefore _ _ _ hstage (by simp)
    have haction : a = .call j := by cases a <;> simp_all [Action.actor?]
    subst haction
    have hthis :=
      hlast.lastStop hhandled henters hfound hrunning hcall hdrained hstep hstopped hafter
    obtain ⟨-, hreporting, -⟩ := left_of_last hcall hdrained hstep
    obtain ⟨call, hcall', hdeparts, hevents⟩ := departs_run hafter
      ((observer_step hstep).trans hobserver') hreporting .reporting
    refine ⟨before, j, after, entry, last, left, _, call, rfl, hbefore, hlatest, hstep, hafter,
      hstop, hthis, hcall', hdeparts, ?_⟩
    have hnone : eventsOf j (unstarted s) before = [] := hbegin.eventsOf_before hbefore hrunning
    have hone : newer last.supervisor left.supervisor =
        if failsAtPluginAtMost last.supervisor.cleared.2 then [.stop last.supervisor.nextStop]
        else [] := newer_of_append hthis.called
    rw [eventsOf_append _ hbefore, hnone, List.append_nil]
    simp only [eventsOf, hstep, if_true]
    rw [hone, ← hevents]
    simp [Call.notices]

/-- A supervisor whose plugin refuses to be stopped once it was started. -/
def busy : Supervisor := { lone with stopScript := [.ok, .failed "busy"] }

theorem create_busy :
    Supervisor.create (.dummy .reporter (some "x") none) [] [.ok, .failed "busy"] [⟨['d']⟩] {} {}
      .fresh = .ok busy := rfl

def busyRun : List Action :=
  [.start true, .call 0, .loop 0, .loop 0, .loop 0, .loop 0, .loop 0, .loop 0, .stop, .call 1,
    .call 1, .call 1, .call 1, .call 1, .loop 0, .call 1]

theorem isIdle_of_calls {calls : List Call} {idle : List Bool} {k : Nat} {call : Call}
    (h : calls.map Call.isIdle = idle) (hcall : calls[k]? = some call) :
    idle[k]? = some call.isIdle := by
  rw [← h, List.getElem?_map, hcall]
  rfl

/-- A stop that is alone has stopped the server of a busy plugin, and leaves no loop. -/
theorem first_stop_end_to_end_busy :
    ∃ sys, (unstarted busy).run? busyRun = some sys ∧
      sys.supervisor.state = .permanentlyStopped ∧
      (∃ sys', sys.Leads sys' ∧ sys'.Concluded) ∧
      (∃ before j after entry last left outcome call,
        busyRun = before ++ .call j :: after ∧ (unstarted busy).run? before = some last ∧
        last.act? (.call j) = some left ∧ left.run? after = some sys ∧
        LastStop entry last j left after sys outcome ∧
        sys.calls[j]? = some call ∧ call.Departs {} outcome) ∧
      ∀ loop ∈ sys.loops, loop.isOver = true := by
  have hend : ((unstarted busy).run? busyRun).map (fun sys =>
      (sys.supervisor.state, sys.calls.map Call.isIdle)) =
      some (.permanentlyStopped, [true, true]) := by decide +kernel
  have hsecond : ∀ n < busyRun.length, ∀ j < 2,
      (callsMade (busyRun.take n))[j]? = some .stop → j = 1 := by decide +kernel
  have hlone : ∀ n < busyRun.length, (callsMade (busyRun.take n))[1]? = some .stop →
      .stop ∉ busyRun.drop (n + 1) := by decide +kernel
  have hstarted : ∀ n < busyRun.length, (callsMade (busyRun.take n))[1]? = some .stop →
      ((unstarted busy).run? (busyRun.take n)).map (·.calls.map Call.isIdle) =
        some [true, false] := by decide +kernel
  obtain ⟨sys, hrun, hboth⟩ := Option.map_eq_some_iff.mp hend
  obtain ⟨hperm, hidle⟩ := Prod.mk.inj hboth
  obtain ⟨hends, hthen⟩ := first_stop_end_to_end create_busy hrun
  obtain ⟨before, j, after, entry, last, left, outcome, call, hsplit, hbefore, -, hstep, hafter,
    hmade, hlast, hcall, hdeparts, -⟩ := hthen hperm
  refine ⟨sys, hrun, hperm, (hends 1 rfl).1, ⟨before, j, after, entry, last, left, outcome, call,
    hsplit, hbefore, hstep, hafter, hlast, hcall, hdeparts⟩, ?_⟩
  have htake : busyRun.take before.length = before := by rw [hsplit, List.take_left]
  have hdrop : busyRun.drop (before.length + 1) = after := by
    rw [hsplit, List.drop_append]
    simp
  have hshorter : before.length < busyRun.length := by
    rw [hsplit, List.length_append, List.length_cons]
    omega
  -- the start is over wherever the stop has been called for, and no stop is called for again
  have hcalled : j < (callsMade before).length := (List.getElem?_eq_some_iff.mp hmade).choose
  have hmany : (callsMade before).length ≤ 2 := by
    have hsub : (callsMade before).Sublist (callsMade busyRun) :=
      (htake ▸ List.take_sublist before.length busyRun).filter _
    exact hsub.length_le
  obtain rfl : j = 1 := hsecond _ hshorter j (by omega) (by rw [htake]; exact hmade)
  have hcalls := hstarted _ hshorter (by rw [htake]; exact hmade)
  have hstop := hlone _ hshorter (by rw [htake]; exact hmade)
  rw [htake, hbefore, Option.map_some] at hcalls
  rw [hdrop] at hstop
  have hothers : ∀ (k : Nat) (other : Call), last.calls[k]? = some other → k ≠ 1 →
      other.isIdle = true := by
    intro k other hother hne
    have hat := isIdle_of_calls (Option.some.inj hcalls) hother
    rcases k with _ | _ | k
    · exact (Option.some.inj hat).symm
    · exact absurd rfl hne
    · cases hat
  have hanswers := Option.some.inj (isIdle_of_calls hidle hcall)
  have hfinished := hdeparts.eq_finished rfl hanswers.symm
  exact hlast.alone hothers hstop (hfinished ▸ hcall)

/-- A lone supervisor serves when it is stopped twice at once. The second stop gets the lock as soon
as the first gives it back, and takes the loop before the first looks for it. -/
def doubleRun : List Action :=
  [.start true, .call 0, .loop 0, .loop 0, .loop 0, .loop 0, .loop 0, .loop 0, .stop, .stop,
    .call 1, .call 1, .call 1, .call 2, .call 2, .call 2, .call 1, .call 1]

/-- A busy supervisor whose observer panics when it is told that a stop has failed. -/
def frail : Supervisor :=
  { busy with observer := { panicsAt := [.stopFailed] } }

/-- A frail supervisor serves when it is stopped. -/
def frailRun : List Action :=
  [.start true, .call 0, .loop 0, .loop 0, .loop 0, .loop 0, .loop 0, .loop 0, .stop, .call 1,
    .call 1, .call 1, .call 1]

/-- The first stop need not end its loop. When a second stop has taken the loop, the first answers
while the loop still waits; and when the observer panics at being told of the failure, the stop
panics too, and returns no error to anybody. -/
theorem first_stop_leaves_loop :
    (∃ sys, (unstarted lone).run? doubleRun = some sys ∧
      sys.calls[1]? = some (.finished (.ok ())) ∧ sys.loops = [.waiting] ∧
      eventsOf 1 (unstarted lone) doubleRun = [.stop .ok]) ∧
    ∃ sys, (unstarted frail).run? frailRun = some sys ∧ sys.calls[1]? = some .panicked ∧
      sys.loops = [.waiting] ∧
      eventsOf 1 (unstarted frail) frailRun = [.metric .stopFailed, .stop (.failed "busy")] := by
  have hdouble : ((unstarted lone).run? doubleRun).map (fun sys => (sys.calls[1]?, sys.loops)) =
      some (some (.finished (.ok ())), [.waiting]) := by decide +kernel
  have hfrail : ((unstarted frail).run? frailRun).map (fun sys => (sys.calls[1]?, sys.loops)) =
      some (some .panicked, [.waiting]) := by decide +kernel
  obtain ⟨sys, hrun, hboth⟩ := Option.map_eq_some_iff.mp hdouble
  obtain ⟨hcall, hloops⟩ := Prod.mk.inj hboth
  obtain ⟨sys', hrun', hboth'⟩ := Option.map_eq_some_iff.mp hfrail
  obtain ⟨hcall', hloops'⟩ := Prod.mk.inj hboth'
  exact ⟨⟨sys, hrun, hcall, hloops, by decide +kernel⟩,
    sys', hrun', hcall', hloops', by decide +kernel⟩

end Created

end Supervision

end PluginKit
