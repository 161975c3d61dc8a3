import PluginKit.Proofs.Lifecycle.Step

/-!
# Turns under the lock

Seen from the lock there are four kinds of steps. A task begins a section or goes on with a
stage, which is a turn; a task joins the queue; a serving task ends; or the step leaves
everything alone that the lock protects.
-/

namespace PluginKit

/-- What a task does under the lock at once. -/
inductive Turn where
  | enters (sec : Section)
  | advances (sec : Section) (stage : Stage)
deriving DecidableEq, Repr

namespace Turn

def section_ : Turn → Section
  | enters sec => sec
  | advances sec _ => sec

def take (s : Supervisor) : Turn → Supervisor × Progress
  | enters sec => s.enter sec
  | advances _ stage => s.advance stage

end Turn

/-! ## Where a task is -/

/-- Where a task is: at no section, or at one, and how far with it. -/
abbrev Place := Option (Section × Access)

namespace Place

def stage? : Place → Option (Section × Stage)
  | some (sec, .holding stage) => some (sec, stage)
  | _ => none

def queued : Place → Bool
  | some (_, .queued) => true
  | _ => false

/-- Whether a task neither has the lock nor waits in the queue. -/
def outside : Place → Bool
  | none => true
  | some (_, .asking) => true
  | _ => false

theorem stage?_of_outside {p : Place} (h : p.outside = true) : p.stage? = none := by
  unfold outside at h
  split at h
  · rfl
  · rfl
  · contradiction

def after (sec : Section) : Progress → Place
  | .inl stage => some (sec, .holding stage)
  | .inr _ => none

/-- The place with the task of a server ended; the last stop binds nothing. -/
def faded (id : Nat) : Place → Place
  | some (.cycle kind, access) => some (.cycle kind, Supervision.endTaskOf id access)
  | p => p

end Place

/-! ## What a step may do to the supervisor without the lock -/

namespace Supervisor

variable {s s' : Supervisor}

/-- What a step outside of all sections may do: requests come in, metrics are told, and the files
and the transport change. -/
structure Disturbed (s s' : Supervisor) : Prop where
  rest : s' = { s with
    signals := s'.signals
    files := s'.files
    transport := s'.transport
    history := s'.history }
  stopped : s'.signals.stopped = s.signals.stopped
  calls : s'.calls = s.calls

theorem Disturbed.refl (s : Supervisor) : s.Disturbed s := ⟨rfl, rfl, rfl⟩

theorem Disturbed.of_signals {signals : Signals} (h : signals.stopped = s.signals.stopped) :
    s.Disturbed { s with signals := signals } := ⟨rfl, h, rfl⟩

theorem Disturbed.of_files (files : FileSystem) : s.Disturbed { s with files := files } :=
  ⟨rfl, rfl, rfl⟩

theorem Disturbed.of_transport (t : Transport) : s.Disturbed { s with transport := t } :=
  ⟨rfl, rfl, rfl⟩

theorem tell_fst (s : Supervisor) (m : Metric) :
    (s.tell m).1 =
      { s with history := if s.observer.listens then .metric m :: s.history else s.history } := by
  unfold tell
  cases s.observer.listens <;> rfl

theorem Disturbed.of_tell (s : Supervisor) (m : Metric) : s.Disturbed (s.tell m).1 := by
  rw [tell_fst]
  refine ⟨rfl, rfl, ?_⟩
  cases s.observer.listens <;> rfl

theorem Disturbed.state (h : s.Disturbed s') : s'.state = s.state := by rw [h.rest]

theorem Disturbed.sockets (h : s.Disturbed s') : s'.sockets = s.sockets := by rw [h.rest]

theorem Disturbed.servers (h : s.Disturbed s') : s'.servers = s.servers := by rw [h.rest]

theorem Disturbed.nextServer (h : s.Disturbed s') : s'.nextServer = s.nextServer := by
  rw [h.rest]

end Supervisor

namespace Supervision

variable {sys sys' : Supervision} {who : Holder} {a : Action}

def place (sys : Supervision) : Holder → Place
  | .loop i => (sys.loops[i]?).bind Loop.section?
  | .call j => (sys.calls[j]?).bind Call.section?

def stage? (sys : Supervision) (who : Holder) : Option (Section × Stage) := (sys.place who).stage?

/-- What the next step of a task does under the lock. -/
def turn? (sys : Supervision) (who : Holder) : Option Turn :=
  match sys.place who with
  | none => none
  | some (sec, .holding stage) => some (.advances sec stage)
  | some (sec, .asking) => if sys.lock = none ∧ sys.queue = [] then some (.enters sec) else none
  | some (sec, .queued) =>
      if sys.lock = none ∧ sys.queue.head? = some who then some (.enters sec) else none

def Action.actor? : Action → Option Holder
  | loop i => some (.loop i)
  | call j => some (.call j)
  | _ => none

def turnOf? (sys : Supervision) (a : Action) : Option Turn := a.actor?.bind sys.turn?

theorem place_setLoop_self {i : Nat} {old : Loop} (h : sys.loops[i]? = some old) (new : Loop) :
    (sys.setLoop i new).place (.loop i) = new.section? := by
  have hlt : i < sys.loops.length := (List.getElem?_eq_some_iff.mp h).choose
  simp [place, setLoop, hlt]

theorem place_setLoop_of_ne {i : Nat} (h : who ≠ .loop i) (new : Loop) :
    (sys.setLoop i new).place who = sys.place who := by
  cases who with
  | loop k =>
      have hne : i ≠ k := fun heq => h (heq ▸ rfl)
      simp [place, setLoop, hne]
  | call j => rfl

theorem place_setCall_self {j : Nat} {old : Call} (h : sys.calls[j]? = some old) (new : Call) :
    (sys.setCall j new).place (.call j) = new.section? := by
  have hlt : j < sys.calls.length := (List.getElem?_eq_some_iff.mp h).choose
  simp [place, setCall, hlt]

theorem place_setCall_of_ne {j : Nat} (h : who ≠ .call j) (new : Call) :
    (sys.setCall j new).place who = sys.place who := by
  cases who with
  | loop i => rfl
  | call k =>
      have hne : j ≠ k := fun heq => h (heq ▸ rfl)
      simp [place, setCall, hne]

theorem place_congr (hloops : sys'.loops = sys.loops) (hcalls : sys'.calls = sys.calls)
    (who : Holder) : sys'.place who = sys.place who := by
  cases who <;> simp only [place, hloops, hcalls]

theorem stage?_of_place {sec : Section} {stage : Stage}
    (h : sys.place who = some (sec, .holding stage)) : sys.stage? who = some (sec, stage) := by
  rw [stage?, h]
  rfl

theorem place_of_stage? {sec : Section} {stage : Stage}
    (h : sys.stage? who = some (sec, stage)) : sys.place who = some (sec, .holding stage) := by
  unfold stage? Place.stage? at h
  split at h
  · rename_i hplace
    cases h
    exact hplace
  · contradiction

theorem turnOf?_of_actor {t : Turn} (hactor : a.actor? = some who)
    (hturn : sys.turn? who = some t) : sys.turnOf? a = some t := by
  rw [turnOf?, hactor, Option.bind_some, hturn]

theorem turn?_of_no_section (h : sys.place who = none) : sys.turn? who = none := by
  simp [turn?, h]

/-! ## The four kinds of steps -/

/-- A turn of a task. It leaves the queue if it has waited there. -/
structure Turned (sys : Supervision) (who : Holder) (t : Turn) (sys' : Supervision) : Prop where
  supervisor : sys'.supervisor = (t.take sys.supervisor).1
  lock : sys'.lock = lockAfter who (t.take sys.supervisor).2
  queue : sys'.queue = if (sys.place who).queued then sys.queue.tail else sys.queue
  place : sys'.place who = .after t.section_ (t.take sys.supervisor).2
  others : ∀ other, other ≠ who → sys'.place other = sys.place other

/-- A task asks for the lock in vain. -/
structure Queued (sys : Supervision) (who : Holder) (sys' : Supervision) : Prop where
  supervisor : sys'.supervisor = sys.supervisor
  lock : sys'.lock = sys.lock
  queue : sys'.queue = sys.queue ++ [who]
  place : ∃ sec, sys.place who = some (sec, .asking) ∧ sys'.place who = some (sec, .queued)
  others : ∀ other, other ≠ who → sys'.place other = sys.place other

/-- A step that leaves alone what the lock protects. -/
structure Aside (sys sys' : Supervision) : Prop where
  supervisor : sys.supervisor.Disturbed sys'.supervisor
  lock : sys'.lock = sys.lock
  queue : sys'.queue = sys.queue
  places : ∀ who, sys'.place who = sys.place who ∨
    (sys.place who).outside = true ∧ (sys'.place who).outside = true

structure Faded (sys : Supervision) (id : Nat) (sys' : Supervision) : Prop where
  supervisor : sys'.supervisor =
    { sys.supervisor with
      signals := sys.supervisor.signals.requestRestart.1
      servers := endTask id sys.supervisor.servers }
  lock : sys'.lock = sys.lock
  queue : sys'.queue = sys.queue
  places : ∀ who, sys'.place who = (sys.place who).faded id

inductive Kind (sys : Supervision) (a : Action) (sys' : Supervision) : Prop
  | turn {who : Holder} {t : Turn} (actor : a.actor? = some who) (turn : sys.turn? who = some t)
      (h : Turned sys who t sys')
  | queues {who : Holder} (idle : sys.turnOf? a = none) (h : Queued sys who sys')
  | aside (idle : sys.turnOf? a = none) (h : Aside sys sys')
  | fades {id : Nat} (idle : sys.turnOf? a = none) (h : Faded sys id sys')

theorem AccessStep.keeps_tasks {sec : Section} {access : Access}
    {p : Supervision × Sum Access LifecycleOutcome} (h : AccessStep sys who sec access p) :
    p.1.loops = sys.loops ∧ p.1.calls = sys.calls ∧ p.1.launched = sys.launched := by
  cases h with
  | queues hbusy => exact ⟨rfl, rfl, rfl⟩
  | enters hlock hqueue => rw [goOn_eq]; exact ⟨rfl, rfl, rfl⟩
  | admitted hlock hhead => rw [goOn_eq]; exact ⟨rfl, rfl, rfl⟩
  | advances => rw [goOn_eq]; exact ⟨rfl, rfl, rfl⟩

def placeOf (sec : Section) : Sum Access LifecycleOutcome → Place
  | .inl access => some (sec, access)
  | .inr _ => none

theorem placeOf_outcomeOf (sec : Section) (p : Progress) :
    placeOf sec (outcomeOf p) = .after sec p := by
  cases p <;> rfl

/-- A step at a section is a turn, or puts the task into the queue. -/
theorem Kind.of_accessStep {sec : Section} {access : Access}
    {p : Supervision × Sum Access LifecycleOutcome} (h : AccessStep sys who sec access p)
    (hplace : sys.place who = some (sec, access)) (actor : a.actor? = some who)
    (hsup : sys'.supervisor = p.1.supervisor) (hlock : sys'.lock = p.1.lock)
    (hqueue : sys'.queue = p.1.queue) (hafter : sys'.place who = placeOf sec p.2)
    (hothers : ∀ other, other ≠ who → sys'.place other = sys.place other) :
    Kind sys a sys' := by
  cases h with
  | queues hbusy =>
      have hidle : sys.turn? who = none := by
        simp only [turn?, hplace]
        exact if_neg hbusy
      refine .queues ?_ ⟨hsup, hlock, hqueue, ⟨sec, hplace, hafter⟩, hothers⟩
      simp [turnOf?, actor, hidle]
  | enters hfree hnobody =>
      have hturn : sys.turn? who = some (.enters sec) := by simp [turn?, hplace, hfree, hnobody]
      rw [goOn_eq] at hsup hlock hqueue hafter
      refine .turn actor hturn
        ⟨hsup, hlock, ?_, hafter.trans (placeOf_outcomeOf sec _), hothers⟩
      simpa [hplace, Place.queued] using hqueue
  | admitted hfree hhead =>
      have hturn : sys.turn? who = some (.enters sec) := by simp [turn?, hplace, hfree, hhead]
      rw [goOn_eq] at hsup hlock hqueue hafter
      refine .turn actor hturn
        ⟨hsup, hlock, ?_, hafter.trans (placeOf_outcomeOf sec _), hothers⟩
      simpa [hplace, Place.queued] using hqueue
  | @advances stage =>
      have hturn : sys.turn? who = some (.advances sec stage) := by simp [turn?, hplace]
      rw [goOn_eq] at hsup hlock hqueue hafter
      refine .turn actor hturn
        ⟨hsup, hlock, ?_, hafter.trans (placeOf_outcomeOf sec _), hothers⟩
      simpa [hplace, Place.queued] using hqueue

theorem Aside.of_setLoop {mid : Supervision} {i : Nat} {old new : Loop}
    (h : sys.loops[i]? = some old) (hold : Place.outside old.section? = true)
    (hnew : Place.outside new.section? = true) (haside : Aside sys mid)
    (hloops : mid.loops = sys.loops) : Aside sys (mid.setLoop i new) := by
  refine ⟨haside.supervisor, haside.lock, haside.queue, fun who => ?_⟩
  by_cases hwho : who = .loop i
  · subst hwho
    refine .inr ⟨?_, ?_⟩
    · simpa [place, h] using hold
    · rw [place_setLoop_self (hloops ▸ h)]
      exact hnew
  · rw [place_setLoop_of_ne hwho]
    exact haside.places who

theorem Aside.of_setCall {mid : Supervision} {j : Nat} {old new : Call}
    (h : sys.calls[j]? = some old) (hold : Place.outside old.section? = true)
    (hnew : Place.outside new.section? = true) (haside : Aside sys mid)
    (hcalls : mid.calls = sys.calls) : Aside sys (mid.setCall j new) := by
  refine ⟨haside.supervisor, haside.lock, haside.queue, fun who => ?_⟩
  by_cases hwho : who = .call j
  · subst hwho
    refine .inr ⟨?_, ?_⟩
    · simpa [place, h] using hold
    · rw [place_setCall_self (hcalls ▸ h)]
      exact hnew
  · rw [place_setCall_of_ne hwho]
    exact haside.places who

theorem Aside.of_supervisor {s : Supervisor} (h : sys.supervisor.Disturbed s) :
    Aside sys { sys with supervisor := s } := ⟨h, rfl, rfl, fun _ => .inl rfl⟩

theorem aside_addCall {call : Call} (h : Place.outside call.section? = true) :
    Aside sys (sys.addCall call) := by
  refine ⟨.refl _, rfl, rfl, fun who => ?_⟩
  cases who with
  | loop i => exact .inl rfl
  | call j =>
      simp only [place, addCall]
      rcases Nat.lt_trichotomy j sys.calls.length with hlt | heq | hgt
      · rw [List.getElem?_append_left hlt]
        exact .inl rfl
      · exact .inr ⟨by simp [heq, Place.outside], by simpa [heq] using h⟩
      · have hnone : sys.calls[j]? = none := List.getElem?_eq_none (by omega)
        have hnone' : (sys.calls ++ [call])[j]? = none :=
          List.getElem?_eq_none (by simp; omega)
        exact .inl (by rw [hnone, hnone'])

theorem aside_launch (sys : Supervision) : Aside sys sys.launch := by
  unfold launch
  split
  · exact ⟨.refl _, rfl, rfl, fun _ => .inl rfl⟩
  · refine ⟨.refl _, rfl, rfl, fun who => ?_⟩
    cases who with
    | call j => exact .inl rfl
    | loop i =>
        simp only [place]
        rcases Nat.lt_trichotomy i sys.loops.length with hlt | heq | hgt
        · rw [List.getElem?_append_left hlt]
          exact .inl rfl
        · exact .inr (by simp [heq, Place.outside, Loop.section?])
        · have hnone : sys.loops[i]? = none := List.getElem?_eq_none (by omega)
          have hnone' : (sys.loops ++ [Loop.attempting .start .asking])[i]? = none :=
            List.getElem?_eq_none (by simp; omega)
          exact .inl (by rw [hnone, hnone'])

theorem LoopStep.keeps_tasks {i : Nat} {old new : Loop} {mid : Supervision}
    (h : LoopStep sys i old mid new) :
    mid.loops = sys.loops ∧ mid.calls = sys.calls ∧ mid.launched = sys.launched := by
  cases h with
  | section_ hacc => exact hacc.keeps_tasks
  | _ => exact ⟨rfl, rfl, rfl⟩

theorem CallStep.keeps_calls {j : Nat} {old new : Call} {mid : Supervision}
    (h : CallStep sys j old mid new) : mid.calls = sys.calls := by
  cases h with
  | launches => exact launch_calls sys
  | stop hacc => exact hacc.keeps_tasks.2.1
  | cycle hacc => exact hacc.keeps_tasks.2.1
  | _ => rfl

theorem loopStep?_kind {i : Nat} (h : sys.loopStep? i = some sys') : Kind sys (.loop i) sys' := by
  obtain ⟨old, mid, new, hloop, hstep, rfl⟩ := loopStep?_cases h
  have hplace : sys.place (.loop i) = old.section? := by simp [place, hloop]
  obtain ⟨hloops, hcalls, -⟩ := hstep.keeps_tasks
  have hmid : mid.loops[i]? = some old := hloops ▸ hloop
  cases hstep with
  | @section_ kind access p hacc =>
      refine .of_accessStep hacc hplace rfl rfl rfl rfl ?_ fun other hother => ?_
      · rw [place_setLoop_self hmid]
        rcases p with ⟨mid, access' | outcome⟩ <;> rfl
      · rw [place_setLoop_of_ne hother, place_congr hloops hcalls]
  | tells hstop =>
      refine .aside (turn?_of_no_section hplace)
        (.of_setLoop hloop rfl ?_ (.of_supervisor (.of_tell _ _)) rfl)
      split <;> rfl
  | stops hstop =>
      exact .aside (turn?_of_no_section hplace)
        (.of_setLoop hloop rfl rfl (.of_supervisor (.of_signals (Signals.poll_stopped _))) rfl)
  | restarts hstop =>
      exact .aside (turn?_of_no_section hplace)
        (.of_setLoop hloop rfl rfl (.of_supervisor (.of_signals (Signals.poll_stopped _))) rfl)
  | parks hstop =>
      exact .aside (turn?_of_no_section hplace)
        (.of_setLoop hloop rfl rfl (.of_supervisor (.of_signals (Signals.poll_stopped _))) rfl)
  | _ =>
      exact .aside (turn?_of_no_section hplace)
        (.of_setLoop hloop rfl rfl (.of_supervisor (.refl _)) rfl)

theorem callStep?_kind {j : Nat} (h : sys.callStep? j = some sys') : Kind sys (.call j) sys' := by
  obtain ⟨old, mid, new, hcall, hstep, rfl⟩ := callStep?_cases h
  have hplace : sys.place (.call j) = old.section? := by simp [place, hcall]
  have hcalls := hstep.keeps_calls
  have hmid : mid.calls[j]? = some old := hcalls ▸ hcall
  cases hstep with
  | launches =>
      exact .aside (turn?_of_no_section hplace)
        (.of_setCall hcall rfl rfl sys.aside_launch hcalls)
  | notifies =>
      exact .aside (turn?_of_no_section hplace)
        (.of_setCall hcall rfl rfl
          (.of_supervisor (.of_signals (Signals.notify_stopped _))) rfl)
  | @stop access p hacc =>
      refine .of_accessStep hacc hplace rfl rfl rfl rfl ?_ fun other hother => ?_
      · rw [place_setCall_self hmid]
        rcases p with ⟨mid, access' | outcome⟩ <;> rfl
      · rw [place_setCall_of_ne hother, place_congr hacc.keeps_tasks.1 hcalls]
  | @cycle kind access p hacc =>
      refine .of_accessStep hacc hplace rfl rfl rfl rfl ?_ fun other hother => ?_
      · rw [place_setCall_self hmid]
        rcases p with ⟨mid, access' | outcome⟩ <;> rfl
      · rw [place_setCall_of_ne hother, place_congr hacc.keeps_tasks.1 hcalls]
  | tells =>
      refine .aside (turn?_of_no_section hplace)
        (.of_setCall hcall rfl ?_ (.of_supervisor (.of_tell _ _)) rfl)
      split <;> rfl
  | takes hlaunched =>
      exact .aside (turn?_of_no_section hplace)
        (.of_setCall hcall rfl rfl ⟨.refl _, rfl, rfl, fun _ => .inl rfl⟩ rfl)
  | _ =>
      exact .aside (turn?_of_no_section hplace)
        (.of_setCall hcall rfl rfl (.of_supervisor (.refl _)) rfl)

theorem place_escalate (id : Nat) (who : Holder) :
    (sys.escalate id).place who = (sys.place who).faded id := by
  cases who with
  | loop i =>
      simp only [escalate, place, List.getElem?_map]
      cases sys.loops[i]? with
      | none => rfl
      | some loop => cases loop <;> rfl
  | call j =>
      simp only [escalate, place, List.getElem?_map]
      cases sys.calls[j]? with
      | none => rfl
      | some call => cases call <;> rfl

/-- Every step is of one of the four kinds. -/
theorem act?_kind (h : sys.act? a = some sys') : Kind sys a sys' := by
  cases act?_cases h with
  | asks hasks => exact .aside (by cases hasks <;> rfl) (aside_addCall (by cases hasks <;> rfl))
  | loop => exact loopStep?_kind h
  | call => exact callStep?_kind h
  | wakes hloop => exact .aside rfl (.of_setLoop hloop rfl rfl (.of_supervisor (.refl _)) rfl)
  | idles => exact .aside rfl (.of_supervisor (.refl _))
  | @escalates id => exact .fades rfl ⟨rfl, rfl, rfl, fun who => place_escalate id who⟩
  | @outside files => exact .aside rfl (.of_supervisor (.of_files files))
  | @transport t => exact .aside rfl (.of_supervisor (.of_transport t))

end Supervision

end PluginKit
