import PluginKit.Proofs.Lifecycle.Sound

/-!
# After the last stop

Once the last stop has given the lock back, nothing is done to the plugin any more. Calls to start
and to restart are refused, further stops have nothing to do, and what is left of the loops ends
after a bounded number of steps.
-/

namespace PluginKit

/-- How many steps a loop has left, at most, after the last stop. -/
def Loop.remaining : Loop → Nat
  | sleeping _ => 4
  | finished .stop (.ok ()) => 4
  | attempting _ .asking => 3
  | attempting _ _ => 2
  | finished .start (.ok ()) => 2
  | finished _ (.error _) => 1
  | waiting => 1
  | ended => 0
  | panicked => 0

namespace Call

/-- How many steps a call has left, at most, after the last stop. A start may launch a loop. -/
def remaining : Call → Nat
  | start => 4
  | restart => 1
  | stop .asking => 5
  | stop _ => 4
  | reporting _ => 3
  | leaving _ => 2
  | joining _ _ => 1
  | _ => 0

/-- Whether a call is a stop that finds all well, or is about to. -/
def agrees : Call → Bool
  | stop .asking => true
  | stop .queued => true
  | reporting outcome => outcome.isOk
  | leaving outcome => outcome.isOk
  | joining outcome _ => outcome.isOk
  | finished outcome => outcome.isOk
  | _ => false

def isDone : Call → Bool
  | finished _ => true
  | panicked => true
  | _ => false

end Call

theorem Loop.remaining_faded (id : Nat) (loop : Loop) :
    (loop.faded id).remaining = loop.remaining := by
  cases loop with
  | attempting kind access => cases access <;> rfl
  | _ => rfl

theorem Call.faded_eq_self {call : Call} (h : call.isCycle = false) (id : Nat) :
    call.faded id = call := by
  cases call with
  | cycle kind access => simp [Call.isCycle] at h
  | _ => rfl

def total {α : Type} (f : α → Nat) : List α → Nat
  | [] => 0
  | x :: rest => f x + total f rest

section Total

variable {α : Type} (f : α → Nat)

theorem total_append (l l' : List α) : total f (l ++ l') = total f l + total f l' := by
  induction l with
  | nil => simp [total]
  | cons x rest ih =>
      simp only [List.cons_append, total, ih]
      omega

theorem total_set {old : α} (new : α) {l : List α} {i : Nat} (h : l[i]? = some old) :
    total f (l.set i new) + f old = total f l + f new := by
  induction l generalizing i with
  | nil => simp at h
  | cons head rest ih =>
      cases i with
      | zero =>
          obtain rfl : head = old := by simpa using h
          simp only [List.set_cons_zero, total]
          omega
      | succ i =>
          have hrest := ih (by simpa using h)
          simp only [List.set_cons_succ, total]
          omega

theorem total_map {g : α → α} (h : ∀ x, f (g x) = f x) (l : List α) :
    total f (l.map g) = total f l := by
  induction l with
  | nil => rfl
  | cons x rest ih => rw [List.map_cons, total, h, ih, total]

end Total

namespace Supervision

variable {sys sys' mid : Supervision} {who : Holder} {a : Action}

/-- How many steps of loops and calls are left, at most, after the last stop. -/
def pending (sys : Supervision) : Nat :=
  total Loop.remaining sys.loops + total Call.remaining sys.calls

/-- How many steps an action takes off those that are left. -/
def Action.takes : Action → Nat
  | loop _ => 1
  | call _ => 1
  | _ => 0

def Action.adds : Action → Nat
  | stop => 5
  | _ => 0

/-- What an action does after the last stop. The plugin is not called, no server is bound, and
state, sockets and servers stay; only others touch the files. Nothing is told but the failure of
the last stop itself. Starts and restarts are refused, stops agree, and the steps of loops and
calls run out. -/
structure Rests (sys : Supervision) (a : Action) (sys' : Supervision) : Prop where
  supervisor : sys.supervisor.Disturbed sys'.supervisor
  files : (∀ files, a ≠ .outside files) → sys'.supervisor.files = sys.supervisor.files
  silent : sys'.supervisor.history = sys.supervisor.history ∨
    ∃ j r, a = .call j ∧ sys.calls[j]? = some (.reporting (.error r))
  start : ∀ runtime, a = .start runtime →
    sys'.calls = sys.calls ++ [.finished (.error (sys.supervisor.report .alreadyStopped))]
  restart : a = .restart →
    sys'.calls = sys.calls ++ [.finished (.error (sys.supervisor.report .alreadyStopped))]
  stop : a = .stop → sys'.calls = sys.calls ++ [.stop .asking]
  agrees : ∀ {j : Nat} {call : Call}, sys.calls[j]? = some call → call.agrees = true →
    ∃ call', sys'.calls[j]? = some call' ∧ call'.agrees = true
  answered : ∀ {j : Nat} {outcome : LifecycleOutcome}, sys.calls[j]? = some (.finished outcome) →
    sys'.calls[j]? = some (.finished outcome)
  fewer : sys'.pending + a.takes ≤ sys.pending + a.adds

/-- What holds after the last stop. -/
structure StoppedForGood (sys : Supervision) : Prop where
  lock : sys.lock = none
  stopped : sys.supervisor.signals.stopped = true
  state : sys.supervisor.state = .permanentlyStopped
  servers : sys.supervisor.servers = []
  rests : ∀ {a : Action} {sys' : Supervision}, sys.act? a = some sys' → Rests sys a sys'
  ends : (∀ a, a.actor?.isSome = true → sys.act? a = none) →
    (∀ loop ∈ sys.loops, loop.isOver = true) ∧ ∀ call ∈ sys.calls, call.isDone = true

/-! ## Steps after the last stop -/

theorem Orderly.lock_of_stopped (h : sys.Orderly)
    (hperm : sys.supervisor.state = .permanentlyStopped) : sys.lock = none := by
  cases hlock : sys.lock with
  | none => rfl
  | some who =>
      have hsome := (h.held who).mpr hlock
      obtain ⟨⟨sec, stage⟩, hstage⟩ := Option.isSome_iff_exists.mp hsome
      exact absurd hperm ((h.staged hstage).1 ▸ sec.during_ne_stopped)

theorem Orderly.not_holding (h : sys.Orderly)
    (hperm : sys.supervisor.state = .permanentlyStopped) {sec : Section} {stage : Stage} :
    sys.place who ≠ some (sec, .holding stage) := by
  intro hplace
  have hstage := stage?_of_place hplace
  exact (h.staged hstage).1 ▸ sec.during_ne_stopped <| hperm

/-- A task at a section is put into the queue or refused. -/
theorem AccessStep.of_stopped {sec : Section} {access : Access}
    {p : Supervision × Sum Access LifecycleOutcome} (h : AccessStep sys who sec access p)
    (ho : sys.Orderly) (hperm : sys.supervisor.state = .permanentlyStopped)
    (hplace : sys.place who = some (sec, access)) :
    p.1.supervisor = sys.supervisor ∧
      (access = .asking ∧ p.2 = .inl .queued ∨ p.2 = .inr (sys.supervisor.refusal sec)) := by
  cases h with
  | queues hbusy => exact ⟨rfl, .inl ⟨rfl, rfl⟩⟩
  | enters hlock hqueue =>
      rw [goOn_eq, Supervisor.enter_of_stopped hperm]
      exact ⟨rfl, .inr rfl⟩
  | admitted hlock hhead =>
      rw [goOn_eq, Supervisor.enter_of_stopped hperm]
      exact ⟨rfl, .inr rfl⟩
  | advances => exact absurd hplace (ho.not_holding hperm)

theorem LoopStep.of_stopped {i : Nat} {old new : Loop} (h : LoopStep sys i old mid new)
    (ho : sys.Orderly) (hperm : sys.supervisor.state = .permanentlyStopped)
    (hloop : sys.loops[i]? = some old) :
    mid.supervisor.files = sys.supervisor.files ∧
      mid.supervisor.history = sys.supervisor.history ∧ new.remaining < old.remaining := by
  have hstopped := ho.tokened.mpr hperm
  cases h with
  | @section_ kind access p hacc =>
      have hplace : sys.place (.loop i) = some (.cycle kind, access) := by
        simp [place, hloop, Loop.section?]
      obtain ⟨hsame, ⟨rfl, hqueued⟩ | hrefused⟩ := hacc.of_stopped ho hperm hplace
      · rw [hqueued, hsame]
        exact ⟨rfl, rfl, by simp [Loop.after, Loop.remaining]⟩
      · rw [hrefused, hsame]
        refine ⟨rfl, rfl, ?_⟩
        cases access <;> simp [Loop.after, Loop.remaining, Supervisor.refusal]
  | tells hquiet => rw [hstopped] at hquiet; contradiction
  | restarts hquiet => rw [hstopped] at hquiet; contradiction
  | parks hquiet => rw [hstopped] at hquiet; contradiction
  | leaves _ => exact ⟨rfl, rfl, by simp [Loop.remaining]⟩
  | _ => exact ⟨rfl, rfl, by simp [Loop.remaining]⟩

theorem CallStep.of_stopped {j : Nat} {old new : Call} (h : CallStep sys j old mid new)
    (ho : sys.Orderly) (hperm : sys.supervisor.state = .permanentlyStopped)
    (hcall : sys.calls[j]? = some old) (hcycle : old.isCycle = false) :
    mid.supervisor.files = sys.supervisor.files ∧
      (mid.supervisor.history = sys.supervisor.history ∨ ∃ r, old = .reporting (.error r)) ∧
      (old.agrees = true → new.agrees = true) ∧
      total Loop.remaining mid.loops + new.remaining <
        total Loop.remaining sys.loops + old.remaining := by
  cases h with
  | launches =>
      cases hrun : sys.isRunning with
      | true => simp [launch_of_running hrun, Call.agrees, Call.remaining]
      | false =>
          simp [launch_of_idle hrun, Call.agrees, Call.remaining, Loop.remaining, total_append,
            total]
  | @stop access p hacc =>
      have hplace : sys.place (.call j) = some (.farewell, access) := by
        simp [place, hcall, Call.section?]
      obtain ⟨hsame, ⟨rfl, hqueued⟩ | hrefused⟩ := hacc.of_stopped ho hperm hplace
      · rw [hqueued, hsame, hacc.keeps_tasks.1]
        exact ⟨rfl, .inl rfl, fun _ => rfl, by simp [Call.afterStop, Call.remaining]⟩
      · rw [hrefused, hsame, hacc.keeps_tasks.1]
        refine ⟨rfl, .inl rfl, fun _ => rfl, ?_⟩
        cases access <;> simp [Call.afterStop, Call.remaining]
  | cycle hacc => simp [Call.isCycle] at hcycle
  | @tells r =>
      refine ⟨?_, .inr ⟨r, rfl⟩, by simp [Call.agrees, Except.isOk, Except.toBool], ?_⟩
      · rw [told, Supervisor.tell_fst]
      · rw [told]
        split <;> simp [Call.remaining]
  | notifies => exact ⟨rfl, .inl rfl, by simp [Call.agrees], by simp [withSignals, Call.remaining]⟩
  | _ => exact ⟨rfl, .inl rfl, by simp [Call.agrees], by simp [Call.remaining]⟩

/-- No step after the last stop does more to the supervisor than a step without the lock. -/
theorem Sound.disturbed (h : sys.Sound) (hperm : sys.supervisor.state = .permanentlyStopped)
    (hstep : sys.act? a = some sys') : sys.supervisor.Disturbed sys'.supervisor := by
  have hfree := h.orderly.lock_of_stopped hperm
  have hnone : sys.supervisor.servers = [] := h.vacant hfree (by rw [hperm]; decide)
  have hstopped := h.orderly.tokened.mpr hperm
  cases act?_kind hstep with
  | turn hactor hturn hturned =>
      obtain ⟨sec, -, htake⟩ := h.orderly.take_of_stopped hturn hperm
      rw [hturned.supervisor, htake]
      exact .refl _
  | queues hidle hqueued =>
      rw [hqueued.supervisor]
      exact .refl _
  | aside hidle haside => exact haside.supervisor
  | @fades id hidle hfaded =>
      have hsame : sys'.supervisor = sys.supervisor := by
        rw [hfaded.supervisor, hnone]
        simp only [Signals.requestRestart, hstopped, if_true, endTask, List.map_nil]
        rw [← hnone]
      rw [hsame]
      exact .refl _

theorem Attended.faded_calls (h : sys.Attended) (id : Nat) :
    sys.calls.map (Call.faded id) = sys.calls :=
  calc sys.calls.map (Call.faded id)
      = sys.calls.map (fun call => call) := List.map_congr_left fun call hmem =>
          Call.faded_eq_self (h.uncycled call hmem) id
    _ = sys.calls := List.map_id' sys.calls

/-- A call that is no single cycle changes by its own steps alone. -/
theorem call_kept {j : Nat} {call : Call} (hstep : sys.act? a = some sys')
    (hcall : sys.calls[j]? = some call) (hcycle : call.isCycle = false) (hother : a ≠ .call j) :
    sys'.calls[j]? = some call := by
  have hlt : j < sys.calls.length := (List.getElem?_eq_some_iff.mp hcall).choose
  cases act?_calls hstep with
  | same hcalls => exact hcalls ▸ hcall
  | made hcalls _ _ => rw [hcalls, List.getElem?_append_left hlt, hcall]
  | @step k old new mid hold hmove haction hafter =>
      subst hafter
      have hcalls : mid.calls = sys.calls := hmove.keeps_calls
      have hne : k ≠ j := fun heq => hother (heq ▸ haction)
      simp [setCall, hcalls, hne, hcall]
  | faded hcalls =>
      rw [hcalls, List.getElem?_map, hcall, Option.map_some, Call.faded_eq_self hcycle]

theorem Sound.agrees_step (h : sys.Sound) (hperm : sys.supervisor.state = .permanentlyStopped)
    (hstep : sys.act? a = some sys') {j : Nat} {call : Call} (hcall : sys.calls[j]? = some call)
    (hagrees : call.agrees = true) :
    ∃ call', sys'.calls[j]? = some call' ∧ call'.agrees = true := by
  have hcycle := h.attended.uncycled call (List.mem_of_getElem? hcall)
  by_cases haction : a = .call j
  · subst haction
    obtain ⟨old, mid, new, hold, hmove, rfl⟩ := callStep?_cases hstep
    obtain rfl : old = call := Option.some.inj (hold.symm.trans hcall)
    have hlt : j < sys.calls.length := (List.getElem?_eq_some_iff.mp hcall).choose
    have hcalls : mid.calls = sys.calls := hmove.keeps_calls
    have hkeeps := (hmove.of_stopped h.orderly hperm hold hcycle).2.2.1
    exact ⟨new, by simp [setCall, hcalls, hlt], hkeeps hagrees⟩
  · exact ⟨call, call_kept hstep hcall hcycle haction, hagrees⟩

/-- A call that has been answered has been answered for good. -/
theorem answered_step (hstep : sys.act? a = some sys') {j : Nat} {outcome : LifecycleOutcome}
    (hcall : sys.calls[j]? = some (.finished outcome)) :
    sys'.calls[j]? = some (.finished outcome) := by
  by_cases haction : a = .call j
  · subst haction
    obtain ⟨old, mid, new, hold, hmove, rfl⟩ := callStep?_cases hstep
    obtain rfl : old = .finished outcome := Option.some.inj (hold.symm.trans hcall)
    cases hmove
  · exact call_kept hstep hcall rfl haction

theorem pending_addCall (sys : Supervision) (call : Call) :
    (sys.addCall call).pending = sys.pending + call.remaining := by
  simp only [pending, addCall, total_append, total]
  omega

theorem Sound.fewer_step (h : sys.Sound) (hperm : sys.supervisor.state = .permanentlyStopped)
    (hstep : sys.act? a = some sys') : sys'.pending + a.takes ≤ sys.pending + a.adds := by
  have hstopped := h.orderly.tokened.mpr hperm
  cases act?_cases hstep with
  | asks hasks =>
      rw [pending_addCall]
      cases hasks with
      | start hopen => simp [hstopped] at hopen
      | restart hopen => simp [hstopped] at hopen
      | _ => exact Nat.le_refl _
  | @loop i old new mid hloop hmove =>
      have hless := (hmove.of_stopped h.orderly hperm hloop).2.2
      obtain ⟨hloops, hcalls, -⟩ := hmove.keeps_tasks
      have hsum := total_set Loop.remaining new hloop
      simp only [pending, setLoop, hloops, hcalls, Action.takes, Action.adds]
      omega
  | @call j old new mid hcall hmove =>
      have hcycle := h.attended.uncycled old (List.mem_of_getElem? hcall)
      have hless := (hmove.of_stopped h.orderly hperm hcall hcycle).2.2.2
      have hcalls : mid.calls = sys.calls := hmove.keeps_calls
      have hsum := total_set Call.remaining new hcall
      simp only [pending, setCall, hcalls, Action.takes, Action.adds]
      omega
  | @wakes i kind hloop =>
      have hsum := total_set Loop.remaining (.attempting kind .asking) hloop
      simp only [Loop.remaining] at hsum
      simp only [pending, setLoop, Action.takes, Action.adds]
      omega
  | idles => exact Nat.le_refl _
  | @escalates id =>
      have hloops : total Loop.remaining (sys.escalate id).loops =
          total Loop.remaining sys.loops :=
        total_map Loop.remaining (Loop.remaining_faded id) sys.loops
      have hcalls : (sys.escalate id).calls = sys.calls := h.attended.faded_calls id
      simp only [pending, hloops, hcalls]
      exact Nat.le_refl _
  | outside => exact Nat.le_refl _
  | transport => exact Nat.le_refl _

theorem Sound.quiet_step (h : sys.Sound) (hperm : sys.supervisor.state = .permanentlyStopped)
    (hstep : sys.act? a = some sys') :
    ((∀ files, a ≠ .outside files) → sys'.supervisor.files = sys.supervisor.files) ∧
      (sys'.supervisor.history = sys.supervisor.history ∨
        ∃ j r, a = .call j ∧ sys.calls[j]? = some (.reporting (.error r))) := by
  cases act?_cases hstep with
  | loop hloop hmove =>
      obtain ⟨hfiles, hhistory, -⟩ := hmove.of_stopped h.orderly hperm hloop
      exact ⟨fun _ => hfiles, .inl hhistory⟩
  | @call j old new mid hcall hmove =>
      have hcycle := h.attended.uncycled old (List.mem_of_getElem? hcall)
      obtain ⟨hfiles, hhistory, -, -⟩ := hmove.of_stopped h.orderly hperm hcall hcycle
      refine ⟨fun _ => hfiles, ?_⟩
      rcases hhistory with hsame | ⟨r, rfl⟩
      · exact .inl hsame
      · exact .inr ⟨j, r, rfl, hcall⟩
  | @outside files => exact ⟨fun hne => absurd rfl (hne files), .inl rfl⟩
  | _ => exact ⟨fun _ => rfl, .inl rfl⟩

theorem Sound.rests (h : sys.Sound) (hperm : sys.supervisor.state = .permanentlyStopped)
    (hstep : sys.act? a = some sys') : Rests sys a sys' where
  supervisor := h.disturbed hperm hstep
  files := (h.quiet_step hperm hstep).1
  silent := (h.quiet_step hperm hstep).2
  start runtime haction := by
    subst haction
    cases hstep
    rw [Supervision.start, if_pos (h.orderly.tokened.mpr hperm)]
    rfl
  restart haction := by
    subst haction
    cases hstep
    rw [Supervision.restart, if_pos (h.orderly.tokened.mpr hperm)]
    rfl
  stop haction := by
    subst haction
    cases hstep
    rfl
  agrees := h.agrees_step hperm hstep
  answered := answered_step hstep
  fewer := h.fewer_step hperm hstep

/-! ## The end of the loops -/

theorem act?_of_turn {t : Turn} (hturn : sys.turn? who = some t) :
    ∃ a, a.actor? = some who ∧ sys.act? a ≠ none := by
  have hsome : ∃ sec access, sys.place who = some (sec, access) ∧
      sys.access? who sec access ≠ none := by
    rcases turn?_cases hturn with
      ⟨sec, -, hlock, ⟨hplace, hqueue⟩ | ⟨hplace, hhead⟩⟩ | ⟨sec, stage, -, hplace⟩
    · exact ⟨sec, _, hplace, by simp [access?, hlock, hqueue]⟩
    · exact ⟨sec, _, hplace, by simp [access?, hlock, hhead]⟩
    · exact ⟨sec, _, hplace, by simp [access?]⟩
  obtain ⟨sec, access, hplace, haccess⟩ := hsome
  obtain ⟨⟨mid, after⟩, hmid⟩ := Option.ne_none_iff_exists'.mp haccess
  cases who with
  | loop i =>
      refine ⟨.loop i, rfl, ?_⟩
      obtain ⟨loop, hloop, hsection⟩ := Option.bind_eq_some_iff.mp hplace
      cases loop with
      | attempting kind access' =>
          cases hsection
          cases after <;> simp [act?, loopStep?, hloop, hmid]
      | _ => simp [Loop.section?] at hsection
  | call j =>
      refine ⟨.call j, rfl, ?_⟩
      obtain ⟨call, hcall, hsection⟩ := Option.bind_eq_some_iff.mp hplace
      cases call with
      | stop access' =>
          cases hsection
          cases after <;> simp [act?, callStep?, hcall, hmid]
      | cycle kind access' =>
          cases hsection
          cases after <;> simp [act?, callStep?, hcall, hmid]
      | _ => simp [Call.section?] at hsection

/-- After the last stop nobody waits for the lock forever: someone can make a step. -/
theorem Sound.act?_of_place (h : sys.Sound)
    (hperm : sys.supervisor.state = .permanentlyStopped) {sec : Section} {access : Access}
    (hplace : sys.place who = some (sec, access)) :
    ∃ a, a.actor?.isSome = true ∧ sys.act? a ≠ none := by
  have hfree := h.orderly.lock_of_stopped hperm
  have hturn : ∃ other t, sys.turn? other = some t := by
    cases hqueue : sys.queue with
    | cons first rest =>
        obtain ⟨sec', hturn⟩ := h.lined.turn_of_head hfree (by rw [hqueue]; rfl)
        exact ⟨first, _, hturn⟩
    | nil =>
        refine ⟨who, .enters sec, ?_⟩
        cases access with
        | asking => simp [turn?, hplace, hfree, hqueue]
        | queued =>
            have hmem := (h.lined.mem_iff who).mpr (by rw [hplace]; rfl)
            rw [hqueue] at hmem
            contradiction
        | holding stage => exact absurd hplace (h.orderly.not_holding hperm)
  obtain ⟨other, t, hturn⟩ := hturn
  obtain ⟨a, hactor, hstep⟩ := act?_of_turn hturn
  exact ⟨a, by rw [hactor]; rfl, hstep⟩

theorem Sound.loops_end (h : sys.Sound) (hperm : sys.supervisor.state = .permanentlyStopped)
    (hquiet : ∀ a, a.actor?.isSome = true → sys.act? a = none) {i : Nat} {loop : Loop}
    (hloop : sys.loops[i]? = some loop) : loop.isOver = true := by
  have hstopped := h.orderly.tokened.mpr hperm
  have hstuck : sys.loopStep? i = none := hquiet (.loop i) rfl
  simp only [loopStep?, hloop] at hstuck
  cases loop with
  | attempting kind access =>
      have hplace : sys.place (.loop i) = some (.cycle kind, access) := by
        simp [place, hloop, Loop.section?]
      obtain ⟨a, hactor, hstep⟩ := h.act?_of_place hperm hplace
      exact absurd (hquiet a hactor) hstep
  | finished kind outcome =>
      rcases outcome with r | u
      · simp [hstopped] at hstuck
      · cases kind <;> simp at hstuck
  | sleeping kind => simp [hstopped] at hstuck
  | waiting => simp [Signals.poll_of_stopped hstopped] at hstuck
  | ended => rfl
  | panicked => rfl

theorem Sound.calls_end (h : sys.Sound) (hperm : sys.supervisor.state = .permanentlyStopped)
    (hquiet : ∀ a, a.actor?.isSome = true → sys.act? a = none) {j : Nat} {call : Call}
    (hcall : sys.calls[j]? = some call) : call.isDone = true := by
  have hstuck : sys.callStep? j = none := hquiet (.call j) rfl
  simp only [callStep?, hcall] at hstuck
  cases call with
  | start => simp at hstuck
  | restart => simp at hstuck
  | stop access =>
      have hplace : sys.place (.call j) = some (.farewell, access) := by
        simp [place, hcall, Call.section?]
      obtain ⟨a, hactor, hstep⟩ := h.act?_of_place hperm hplace
      exact absurd (hquiet a hactor) hstep
  | cycle kind access =>
      have hcycle := h.attended.uncycled _ (List.mem_of_getElem? hcall)
      simp [Call.isCycle] at hcycle
  | reporting outcome => rcases outcome with r | u <;> simp at hstuck
  | leaving outcome => cases hlaunched : sys.launched <;> simp [hlaunched] at hstuck
  | joining outcome i =>
      have hover : (sys.loops[i]?).all Loop.isOver = true := by
        cases hloop : sys.loops[i]? with
        | none => rfl
        | some loop => exact h.loops_end hperm hquiet hloop
      simp [hover] at hstuck
  | finished outcome => rfl
  | panicked => rfl

theorem Sound.stoppedForGood (h : sys.Sound)
    (hperm : sys.supervisor.state = .permanentlyStopped) : sys.StoppedForGood where
  lock := h.orderly.lock_of_stopped hperm
  stopped := h.orderly.tokened.mpr hperm
  state := hperm
  servers := h.vacant (h.orderly.lock_of_stopped hperm) (by rw [hperm]; decide)
  rests := h.rests hperm
  ends hquiet := by
    constructor
    · intro loop hmem
      obtain ⟨i, hloop⟩ := List.getElem?_of_mem hmem
      exact h.loops_end hperm hquiet hloop
    · intro call hmem
      obtain ⟨j, hcall⟩ := List.getElem?_of_mem hmem
      exact h.calls_end hperm hquiet hcall

/-! ## Runs after the last stop -/

theorem Disturbed.trans {s t u : Supervisor} (h : s.Disturbed t) (h' : t.Disturbed u) :
    s.Disturbed u where
  rest := by rw [h'.rest, h.rest]
  stopped := h'.stopped.trans h.stopped
  calls := h'.calls.trans h.calls

theorem Sound.rests_run (h : sys.Sound) (hperm : sys.supervisor.state = .permanentlyStopped)
    {actions : List Action} (hrun : sys.run? actions = some sys') :
    sys.supervisor.Disturbed sys'.supervisor ∧
      sys'.pending + total Action.takes actions ≤ sys.pending + total Action.adds actions := by
  induction actions generalizing sys with
  | nil =>
      cases hrun
      exact ⟨.refl _, Nat.le_refl _⟩
  | cons a rest ih =>
      rw [run?_cons] at hrun
      obtain ⟨mid, hmid, hrest⟩ := Option.bind_eq_some_iff.mp hrun
      have hrests := h.rests hperm hmid
      have hkept : mid.supervisor.state = .permanentlyStopped :=
        h.orderly.stays_stopped hmid hperm
      obtain ⟨hdisturbed, hpending⟩ := ih (h.step hmid) hkept hrest
      refine ⟨Disturbed.trans hrests.supervisor hdisturbed, ?_⟩
      have hfewer := hrests.fewer
      simp only [total]
      omega

section Created

variable {plugin : Plugin} {starts stops : List CallOutcome} {dirs : List Path}
  {settings : Settings} {observer : Observer} {files : FileSystem} {s : Supervisor}
  {before after : List Action}

/-- Nothing is done to the plugin after the last stop, in whatever order the steps of loops and
calls, further calls, requests and the ends of sleeps come, and what is left of loops and calls
runs out. -/
theorem nothing_after_stop
    (created : Supervisor.create plugin starts stops dirs settings observer files = .ok s)
    (hbefore : (unstarted s).run? before = some sys)
    (hperm : sys.supervisor.state = .permanentlyStopped)
    (hafter : sys.run? after = some sys') :
    sys.supervisor.Disturbed sys'.supervisor ∧ sys'.StoppedForGood ∧
      total Action.takes after ≤ sys.pending + total Action.adds after := by
  have hsound := sound_of_run (Supervisor.create_eq created).1 hbefore
  obtain ⟨hdisturbed, hpending⟩ := hsound.rests_run hperm hafter
  have hsound' : sys'.Sound := run?_keeps (fun h hstep => h.step hstep) hsound hafter
  have hperm' : sys'.supervisor.state = .permanentlyStopped := hdisturbed.state.trans hperm
  exact ⟨hdisturbed, hsound'.stoppedForGood hperm', by omega⟩

/-- A plugin is started and stopped; while the stop waits for the loop, further calls come. -/
theorem nothing_after_stop_lone :
    ∃ sys sys', (unstarted lone).run? [.start true, .call 0, .loop 0, .loop 0, .loop 0, .loop 0,
        .loop 0, .loop 0, .stop, .call 1, .call 1, .call 1] = some sys ∧
      sys.supervisor.state = .permanentlyStopped ∧
      sys.run? [.start true, .call 1, .call 1, .loop 0, .call 1, .stop, .restart, .call 3] =
        some sys' ∧
      sys.supervisor.Disturbed sys'.supervisor ∧ sys'.StoppedForGood := by
  let before : List Action := [.start true, .call 0, .loop 0, .loop 0, .loop 0, .loop 0,
    .loop 0, .loop 0, .stop, .call 1, .call 1, .call 1]
  let after : List Action :=
    [.start true, .call 1, .call 1, .loop 0, .call 1, .stop, .restart, .call 3]
  have hstate : ((unstarted lone).run? before).map (·.supervisor.state) =
      some .permanentlyStopped := by decide +kernel
  obtain ⟨sys, hbefore, hperm⟩ := Option.map_eq_some_iff.mp hstate
  have hsome : (((unstarted lone).run? before).bind fun sys => sys.run? after).isSome = true := by
    decide +kernel
  rw [hbefore] at hsome
  obtain ⟨sys', hafter⟩ := Option.isSome_iff_exists.mp hsome
  obtain ⟨hdisturbed, hstopped, -⟩ := nothing_after_stop create_lone hbefore hperm hafter
  exact ⟨sys, sys', hbefore, hperm, hafter, hdisturbed, hstopped⟩

end Created

end Supervision

end PluginKit
