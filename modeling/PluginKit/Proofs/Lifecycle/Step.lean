import PluginKit.Proofs.Lifecycle.Interleaving
import PluginKit.Proofs.Lifecycle.Section
import PluginKit.Proofs.Lifecycle.Signals

/-!
# What a step can be

A case for each thing that a loop, a call or a task at a section can do next. The cases are read
off the steps once; what is kept by steps is shown by going through them.
-/

namespace PluginKit

def CycleKind.failure : CycleKind → Metric
  | start => .startFailed
  | stop => .stopFailed

namespace Loop

def after (kind : CycleKind) : Sum Access LifecycleOutcome → Loop
  | .inl access => .attempting kind access
  | .inr outcome => .finished kind outcome

/-- The section a loop is at, with how far it is with it. -/
def section? : Loop → Option (Section × Access)
  | attempting kind access => some (.cycle kind, access)
  | _ => none

end Loop

namespace Call

def afterStop : Sum Access LifecycleOutcome → Call
  | .inl access => .stop access
  | .inr outcome => .reporting outcome

def afterCycle (kind : CycleKind) : Sum Access LifecycleOutcome → Call
  | .inl access => .cycle kind access
  | .inr outcome => .finished outcome

/-- The section a call is at, with how far it is with it. -/
def section? : Call → Option (Section × Access)
  | stop access => some (.farewell, access)
  | cycle kind access => some (.cycle kind, access)
  | _ => none

end Call

namespace Supervision

variable {sys sys' : Supervision} {who : Holder} {sec : Section} {access : Access}

/-! ## Sections -/

/-- What a task makes of its progress under the lock. -/
def outcomeOf : Progress → Sum Access LifecycleOutcome
  | .inl stage => .inl (.holding stage)
  | .inr outcome => .inr outcome

def lockAfter (who : Holder) : Progress → Option Holder
  | .inl _ => some who
  | .inr _ => none

theorem lockAfter_eq_none {p : Progress} (h : lockAfter who p = none) :
    ∃ outcome, p = .inr outcome := by
  cases p with
  | inl stage => simp [lockAfter] at h
  | inr outcome => exact ⟨outcome, rfl⟩

theorem goOn_eq (sys : Supervision) (who : Holder) (p : Supervisor × Progress) :
    sys.goOn who p =
      ({ sys with supervisor := p.1, lock := lockAfter who p.2 }, outcomeOf p.2) := by
  rcases p with ⟨s, stage | outcome⟩ <;> rfl

/-- What a task at a section may do: ask for the lock in vain, get it, or make a further step
under it. -/
inductive AccessStep (sys : Supervision) (who : Holder) (sec : Section) :
    Access → Supervision × Sum Access LifecycleOutcome → Prop
  | queues (h : ¬ (sys.lock = none ∧ sys.queue = [])) :
      AccessStep sys who sec .asking ({ sys with queue := sys.queue ++ [who] }, .inl .queued)
  | enters (lock : sys.lock = none) (queue : sys.queue = []) :
      AccessStep sys who sec .asking (sys.goOn who (sys.supervisor.enter sec))
  | admitted (lock : sys.lock = none) (head : sys.queue.head? = some who) :
      AccessStep sys who sec .queued
        ({ sys with queue := sys.queue.tail }.goOn who (sys.supervisor.enter sec))
  | advances {stage : Stage} :
      AccessStep sys who sec (.holding stage) (sys.goOn who (sys.supervisor.advance stage))

theorem access?_cases {p : Supervision × Sum Access LifecycleOutcome}
    (h : sys.access? who sec access = some p) : AccessStep sys who sec access p := by
  cases access with
  | asking =>
      simp only [access?] at h
      split at h
      · rename_i hfree
        cases h
        exact .enters hfree.1 hfree.2
      · rename_i hfree
        cases h
        exact .queues hfree
  | queued =>
      simp only [access?] at h
      split at h
      · rename_i hfree
        cases h
        exact .admitted hfree.1 hfree.2
      · contradiction
  | holding stage =>
      simp only [access?] at h
      cases h
      exact .advances

/-! ## Loops -/

def withSignals (sys : Supervision) (signals : Signals) : Supervision :=
  { sys with supervisor := { sys.supervisor with signals := signals } }

def told (sys : Supervision) (m : Metric) : Supervision :=
  { sys with supervisor := (sys.supervisor.tell m).1 }

/-- What a loop may do: it leaves the supervision `mid` behind and goes on as another loop. -/
inductive LoopStep (sys : Supervision) (i : Nat) : Loop → Supervision → Loop → Prop
  | section_ {kind : CycleKind} {access : Access}
      {p : Supervision × Sum Access LifecycleOutcome}
      (h : AccessStep sys (.loop i) (.cycle kind) access p) :
      LoopStep sys i (.attempting kind access) p.1 (Loop.after kind p.2)
  | serves : LoopStep sys i (.finished .start (.ok ())) sys .waiting
  | clears : LoopStep sys i (.finished .stop (.ok ())) sys (.attempting .start .asking)
  | leaves {kind : CycleKind} {r : LifecycleReport}
      (h : sys.supervisor.signals.stopped = true) :
      LoopStep sys i (.finished kind (.error r)) sys .ended
  | tells {kind : CycleKind} {r : LifecycleReport}
      (h : sys.supervisor.signals.stopped = false) :
      LoopStep sys i (.finished kind (.error r)) (sys.told kind.failure)
        (if (sys.supervisor.tell kind.failure).2 then .panicked else .sleeping kind)
  | rouses {kind : CycleKind} (h : sys.supervisor.signals.stopped = true) :
      LoopStep sys i (.sleeping kind) sys .ended
  | stops (h : sys.supervisor.signals.stopped = true) :
      LoopStep sys i .waiting (sys.withSignals sys.supervisor.signals.poll.1) .ended
  | restarts (h : sys.supervisor.signals.stopped = false) :
      LoopStep sys i .waiting (sys.withSignals sys.supervisor.signals.poll.1)
        (.attempting .stop .asking)
  | parks (h : sys.supervisor.signals.stopped = false) :
      LoopStep sys i .waiting (sys.withSignals sys.supervisor.signals.poll.1) .waiting

theorem setLoop_same {i : Nat} {loop : Loop} (h : sys.loops[i]? = some loop) :
    sys.setLoop i loop = sys := by
  obtain ⟨hlt, rfl⟩ := List.getElem?_eq_some_iff.mp h
  simp [setLoop]

theorem loopStep?_cases {i : Nat} (h : sys.loopStep? i = some sys') :
    ∃ old mid new, sys.loops[i]? = some old ∧ LoopStep sys i old mid new ∧
      sys' = mid.setLoop i new := by
  unfold loopStep? at h
  cases hloop : sys.loops[i]? with
  | none => simp [hloop] at h
  | some loop =>
      refine ⟨loop, ?_⟩
      simp only [hloop] at h
      cases loop with
      | attempting kind access =>
          simp only at h
          cases hacc : sys.access? (.loop i) (.cycle kind) access with
          | none => simp [hacc] at h
          | some p =>
              obtain ⟨mid, access' | outcome⟩ := p
              all_goals
                simp only [hacc, Option.some.injEq] at h
                exact ⟨_, _, rfl, .section_ (access?_cases hacc), h.symm⟩
      | finished kind outcome =>
          cases outcome with
          | ok u =>
              cases kind with
              | start => exact ⟨_, _, rfl, .serves, (Option.some.inj h).symm⟩
              | stop => exact ⟨_, _, rfl, .clears, (Option.some.inj h).symm⟩
          | error r =>
              cases hstop : sys.supervisor.signals.stopped with
              | true =>
                  have heq : sys' = sys.setLoop i .ended := by
                    cases kind <;> simpa [hstop, eq_comm] using h
                  exact ⟨_, _, rfl, .leaves hstop, heq⟩
              | false =>
                  cases kind with
                  | start =>
                      simp only [hstop] at h
                      exact ⟨_, _, rfl, .tells hstop, (Option.some.inj h).symm⟩
                  | stop =>
                      simp only [hstop] at h
                      exact ⟨_, _, rfl, .tells hstop, (Option.some.inj h).symm⟩
      | sleeping kind =>
          cases hstop : sys.supervisor.signals.stopped with
          | true =>
              simp only [hstop, if_true] at h
              exact ⟨_, _, rfl, .rouses hstop, (Option.some.inj h).symm⟩
          | false => simp [hstop] at h
      | waiting =>
          have hstop := sys.supervisor.signals.poll_eq_stop_iff
          generalize hanswer : sys.supervisor.signals.poll = answer at h hstop
          obtain ⟨signals, answer⟩ := answer
          have hfst : signals = sys.supervisor.signals.poll.1 := by rw [hanswer]
          subst hfst
          cases answer with
          | none =>
              simp only at h
              split at h
              · contradiction
              · refine ⟨_, _, rfl, .parks (by simpa using hstop), ?_⟩
                have hmid : (sys.withSignals sys.supervisor.signals.poll.1).loops[i]? =
                    some .waiting := hloop
                rw [setLoop_same hmid]
                exact (Option.some.inj h).symm
          | some signal =>
              cases signal with
              | stop => exact ⟨_, _, rfl, .stops (hstop.mp rfl), (Option.some.inj h).symm⟩
              | restart =>
                  exact ⟨_, _, rfl, .restarts (by simpa using hstop), (Option.some.inj h).symm⟩
      | ended => cases h
      | panicked => cases h

/-! ## Calls -/

theorem launch_of_running (h : sys.isRunning = true) : sys.launch = sys := by
  rw [launch, if_pos h]

theorem launch_of_idle (h : sys.isRunning = false) :
    sys.launch =
      { sys with
        loops := sys.loops ++ [.attempting .start .asking]
        launched := some sys.loops.length } := by
  rw [launch, h]
  rfl

@[simp] theorem launch_supervisor (sys : Supervision) :
    sys.launch.supervisor = sys.supervisor := by
  unfold launch
  split <;> rfl

@[simp] theorem launch_calls (sys : Supervision) : sys.launch.calls = sys.calls := by
  unfold launch
  split <;> rfl

/-- What a call may do: it leaves the supervision `mid` behind and goes on as another call. -/
inductive CallStep (sys : Supervision) (j : Nat) : Call → Supervision → Call → Prop
  | launches : CallStep sys j .start sys.launch (.finished (.ok ()))
  | notifies :
      CallStep sys j .restart (sys.withSignals sys.supervisor.signals.notify) (.finished (.ok ()))
  | stop {access : Access} {p : Supervision × Sum Access LifecycleOutcome}
      (h : AccessStep sys (.call j) .farewell access p) :
      CallStep sys j (.stop access) p.1 (Call.afterStop p.2)
  | cycle {kind : CycleKind} {access : Access} {p : Supervision × Sum Access LifecycleOutcome}
      (h : AccessStep sys (.call j) (.cycle kind) access p) :
      CallStep sys j (.cycle kind access) p.1 (Call.afterCycle kind p.2)
  | goes : CallStep sys j (.reporting (.ok ())) sys (.leaving (.ok ()))
  | tells {r : LifecycleReport} :
      CallStep sys j (.reporting (.error r)) (sys.told .stopFailed)
        (if (sys.supervisor.tell .stopFailed).2 then .panicked else .leaving (.error r))
  | takes {outcome : LifecycleOutcome} {i : Nat} (h : sys.launched = some i) :
      CallStep sys j (.leaving outcome) { sys with launched := none } (.joining outcome i)
  | finds {outcome : LifecycleOutcome} (h : sys.launched = none) :
      CallStep sys j (.leaving outcome) sys (.finished outcome)
  | joins {outcome : LifecycleOutcome} {i : Nat}
      (h : (sys.loops[i]?).all Loop.isOver = true) :
      CallStep sys j (.joining outcome i) sys (.finished outcome)

theorem callStep?_cases {j : Nat} (h : sys.callStep? j = some sys') :
    ∃ old mid new, sys.calls[j]? = some old ∧ CallStep sys j old mid new ∧
      sys' = mid.setCall j new := by
  unfold callStep? at h
  cases hcall : sys.calls[j]? with
  | none => simp [hcall] at h
  | some call =>
      refine ⟨call, ?_⟩
      simp only [hcall] at h
      cases call with
      | start => exact ⟨_, _, rfl, .launches, (Option.some.inj h).symm⟩
      | restart => exact ⟨_, _, rfl, .notifies, (Option.some.inj h).symm⟩
      | stop access =>
          simp only at h
          cases hacc : sys.access? (.call j) .farewell access with
          | none => simp [hacc] at h
          | some p =>
              obtain ⟨mid, access' | outcome⟩ := p
              all_goals
                simp only [hacc, Option.some.injEq] at h
                exact ⟨_, _, rfl, .stop (access?_cases hacc), h.symm⟩
      | cycle kind access =>
          simp only at h
          cases hacc : sys.access? (.call j) (.cycle kind) access with
          | none => simp [hacc] at h
          | some p =>
              obtain ⟨mid, access' | outcome⟩ := p
              all_goals
                simp only [hacc, Option.some.injEq] at h
                exact ⟨_, _, rfl, .cycle (access?_cases hacc), h.symm⟩
      | reporting outcome =>
          cases outcome with
          | ok u => exact ⟨_, _, rfl, .goes, (Option.some.inj h).symm⟩
          | error r => exact ⟨_, _, rfl, .tells, (Option.some.inj h).symm⟩
      | leaving outcome =>
          simp only at h
          cases hlaunched : sys.launched with
          | none =>
              have hsame : { sys with launched := none } = sys := by rw [← hlaunched]
              simp only [hlaunched, hsame, Option.some.injEq] at h
              exact ⟨_, _, rfl, .finds hlaunched, h.symm⟩
          | some i =>
              simp only [hlaunched, Option.some.injEq] at h
              exact ⟨_, _, rfl, .takes hlaunched, h.symm⟩
      | joining outcome i =>
          simp only at h
          split at h
          · rename_i hover
            exact ⟨_, _, rfl, .joins hover, (Option.some.inj h).symm⟩
          · contradiction
      | finished outcome => cases h
      | panicked => cases h

/-! ## Actions -/

/-- The calls that actions make. A start or a restart may be refused at once. -/
inductive Asks (sys : Supervision) : Action → Call → Prop
  | refusedStart {runtime : Bool} {r : LifecycleReport} :
      Asks sys (.start runtime) (.finished (.error r))
  | refusedRestart {r : LifecycleReport} : Asks sys .restart (.finished (.error r))
  | start (h : sys.supervisor.signals.stopped = false) : Asks sys (.start true) .start
  | restart (h : sys.supervisor.signals.stopped = false) : Asks sys .restart .restart
  | stop : Asks sys .stop (.stop .asking)

/-- What an action may do. -/
inductive Acts (sys : Supervision) : Action → Supervision → Prop
  | asks {a : Action} {call : Call} (h : Asks sys a call) : Acts sys a (sys.addCall call)
  | loop {i : Nat} {old new : Loop} {mid : Supervision} (at_ : sys.loops[i]? = some old)
      (h : LoopStep sys i old mid new) : Acts sys (.loop i) (mid.setLoop i new)
  | call {j : Nat} {old new : Call} {mid : Supervision} (at_ : sys.calls[j]? = some old)
      (h : CallStep sys j old mid new) : Acts sys (.call j) (mid.setCall j new)
  | wakes {i : Nat} {kind : CycleKind} (at_ : sys.loops[i]? = some (.sleeping kind)) :
      Acts sys (.wake i) (sys.setLoop i (.attempting kind .asking))
  | idles {i : Nat} : Acts sys (.wake i) sys
  | escalates {id : Nat} : Acts sys (.escalate id) (sys.escalate id)
  | outside {files : FileSystem} :
      Acts sys (.outside files) { sys with supervisor := { sys.supervisor with files := files } }
  | transport {t : Transport} :
      Acts sys (.transport t) { sys with supervisor := { sys.supervisor with transport := t } }

theorem act?_cases {a : Action} (h : sys.act? a = some sys') : Acts sys a sys' := by
  cases a with
  | start runtime =>
      cases h
      unfold start
      split
      · exact .asks .refusedStart
      rename_i hopen
      cases runtime with
      | false => exact .asks .refusedStart
      | true => exact .asks (.start (by simpa using hopen))
  | restart =>
      cases h
      unfold restart
      split
      · exact .asks .refusedRestart
      · rename_i hopen
        exact .asks (.restart (by simpa using hopen))
  | stop =>
      cases h
      exact .asks .stop
  | loop i =>
      obtain ⟨old, mid, new, hloop, hmove, rfl⟩ := loopStep?_cases h
      exact .loop hloop hmove
  | call j =>
      obtain ⟨old, mid, new, hcall, hmove, rfl⟩ := callStep?_cases h
      exact .call hcall hmove
  | wake i =>
      cases h
      unfold wake
      split
      · rename_i kind hloop
        exact .wakes hloop
      · exact .idles
  | escalate id =>
      cases h
      exact .escalates
  | outside files =>
      cases h
      exact .outside
  | transport t =>
      cases h
      exact .transport

end Supervision

end PluginKit
