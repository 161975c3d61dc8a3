import PluginKit.Proofs.Lifecycle.Trace

/-!
# Restarts

Requests are merged, handed over and stored, and yet none is lost: a request that has not been
answered by a stop cycle and a start cycle is either pending or has sent the loop to its stop cycle.
And none is invented: each restart uses up one that was pending.
-/

namespace PluginKit

/-! ## Responses -/

/-- How far the response to a request is: a stop cycle is to begin, lasts or has succeeded, the
start cycle after it lasts, or it has succeeded as well. -/
inductive Response where
  | unanswered
  | stopping
  | stopped
  | starting
  | answered
deriving DecidableEq, Repr

namespace Response

def before : CycleKind → Response
  | .stop => unanswered
  | .start => stopped

def during : CycleKind → Response
  | .stop => stopping
  | .start => starting

def past : CycleKind → Response
  | .stop => stopped
  | .start => answered

def next : Response → Milestone → Response
  | unanswered, .begins (.cycle .stop) => stopping
  | unanswered, _ => unanswered
  | stopping, .requested => stopping
  | stopping, .ends (.cycle .stop) true => stopped
  | stopping, _ => unanswered
  | stopped, .begins (.cycle .start) => starting
  | stopped, _ => stopped
  | starting, .requested => starting
  | starting, .ends (.cycle .start) true => answered
  | starting, _ => stopped
  | answered, _ => answered

def after (later : List Milestone) : Response := later.foldl next unanswered

end Response

namespace Milestone

/-- A cycle that succeeds, with the requests that come in meanwhile. -/
def Cycle (kind : CycleKind) (part : List Milestone) : Prop :=
  ∃ meanwhile, part = .begins (.cycle kind) :: meanwhile ++ [.ends (.cycle kind) true] ∧
    ∀ m ∈ meanwhile, m = .requested

def Cleared (later : List Milestone) : Prop :=
  ∃ u stop v, later = u ++ stop ++ v ∧ Cycle .stop stop

/-- Somewhere a stop cycle succeeds, and somewhere after it a start cycle. -/
def Answered (later : List Milestone) : Prop :=
  ∃ cleared start v, later = cleared ++ start ++ v ∧ Cleared cleared ∧ Cycle .start start

def Lasts (kind : CycleKind) (P : List Milestone → Prop) (later : List Milestone) : Prop :=
  ∃ u meanwhile, later = u ++ .begins (.cycle kind) :: meanwhile ∧ P u ∧
    ∀ m ∈ meanwhile, m = .requested

theorem Cleared.append {later : List Milestone} (h : Cleared later) (m : Milestone) :
    Cleared (later ++ [m]) := by
  obtain ⟨u, stop, v, rfl, hstop⟩ := h
  exact ⟨u, stop, v ++ [m], by simp, hstop⟩

theorem Answered.append {later : List Milestone} (h : Answered later) (m : Milestone) :
    Answered (later ++ [m]) := by
  obtain ⟨cleared, start, v, rfl, hcleared, hstart⟩ := h
  exact ⟨cleared, start, v ++ [m], by simp, hcleared, hstart⟩

variable {kind : CycleKind} {P : List Milestone → Prop} {later : List Milestone}

theorem Lasts.begun (h : P later) : Lasts kind P (later ++ [.begins (.cycle kind)]) :=
  ⟨later, [], rfl, h, nofun⟩

theorem Lasts.requested (h : Lasts kind P later) : Lasts kind P (later ++ [.requested]) := by
  obtain ⟨u, meanwhile, rfl, hu, hquiet⟩ := h
  refine ⟨u, meanwhile ++ [.requested], by simp, hu, fun m hm => ?_⟩
  rcases List.mem_append.mp hm with hold | hlast
  · exact hquiet m hold
  · exact List.mem_singleton.mp hlast

theorem Lasts.ended (h : Lasts kind P later) :
    ∃ u part, later ++ [.ends (.cycle kind) true] = u ++ part ∧ P u ∧ Cycle kind part := by
  obtain ⟨u, meanwhile, rfl, hu, hquiet⟩ := h
  exact ⟨u, _, by simp, hu, meanwhile, rfl, hquiet⟩

theorem Lasts.cleared (h : Lasts .start Cleared later) : Cleared later := by
  obtain ⟨u, meanwhile, rfl, ⟨v, stop, w, rfl, hstop⟩, -⟩ := h
  exact ⟨v, stop, w ++ .begins (.cycle .start) :: meanwhile, by simp, hstop⟩

/-- What a response says about the trace after the request. -/
def Shows (later : List Milestone) : Response → Prop
  | .unanswered => True
  | .stopping => Lasts .stop (fun _ => True) later
  | .stopped => Cleared later
  | .starting => Lasts .start Cleared later
  | .answered => Answered later

theorem Shows.next {r : Response} (h : Shows later r) (m : Milestone) :
    Shows (later ++ [m]) (r.next m) := by
  fun_cases Response.next r m with
  | case1 => exact Lasts.begun trivial
  | case2 => trivial
  | case3 => exact Lasts.requested h
  | case4 =>
      obtain ⟨u, part, heq, -, hpart⟩ := Lasts.ended h
      exact ⟨u, part, [], by simpa using heq, hpart⟩
  | case5 => trivial
  | case6 => exact Lasts.begun h
  | case7 => exact Cleared.append h _
  | case8 => exact Lasts.requested h
  | case9 =>
      obtain ⟨u, part, heq, hcleared, hpart⟩ := Lasts.ended h
      exact ⟨u, part, [], by simpa using heq, hcleared, hpart⟩
  | case10 => exact Cleared.append (Lasts.cleared h) _
  | case11 => exact Answered.append h _

theorem Shows.foldl {before : List Milestone} {r : Response} (h : Shows before r) :
    Shows (before ++ later) (later.foldl Response.next r) := by
  induction later generalizing before r with
  | nil => simpa using h
  | cons m rest ih => simpa using ih (h.next m)

/-- A response that is complete consists of a stop cycle and, after it, a start cycle. -/
theorem answered_of_after (h : Response.after later = .answered) : Answered later := by
  have hshows : Shows ([] ++ later) (Response.after later) := Shows.foldl (r := .unanswered) trivial
  rw [h] at hshows
  exact hshows

end Milestone

/-! ## The one loop of a supervision without a stop -/

def Loop.response : Loop → Response
  | attempting kind (.holding _) => .during kind
  | attempting kind _ => .before kind
  | finished kind (.ok ()) => .past kind
  | finished kind (.error _) => .before kind
  | sleeping kind => .before kind
  | _ => .answered

@[simp] theorem Loop.response_faded (id : Nat) (loop : Loop) :
    (loop.faded id).response = loop.response := by
  cases loop with
  | attempting kind access => cases access <;> rfl
  | _ => rfl

def Loop.waits : Loop → Bool
  | waiting => true
  | _ => false

/-- Whether a call is neither a stop nor a single cycle. -/
def Call.isBrief : Call → Bool
  | start => true
  | restart => true
  | finished _ => true
  | _ => false

namespace Supervision

variable {sys sys' : Supervision} {who : Holder} {a : Action}

/-- No stop was called for, the observer bears all metrics, and there is no loop but one that goes
on. -/
structure Solitary (sys : Supervision) : Prop where
  calls : ∀ call ∈ sys.calls, call.isBrief = true
  stopped : sys.supervisor.signals.stopped = false
  calm : ∀ m, sys.supervisor.observer.panics m = false
  alone : sys.loops = [] ∧ sys.launched = none ∨
    ∃ loop, sys.loops = [loop] ∧ loop.isOver = false ∧ sys.launched = some 0

/-- The response that the loop is at. Nothing was asked of a loop that is not there yet. -/
def response (sys : Supervision) : Response :=
  match sys.loops with
  | [] => .answered
  | loop :: _ => loop.response

/-- What a step makes of the response that the loop is at and of the pending requests. -/
inductive Course (sys : Supervision) : List Milestone → Supervision → Prop
  | still {sys' : Supervision} (response : sys'.response = sys.response)
      (held : sys'.supervisor.signals.held = sys.supervisor.signals.held) : Course sys [] sys'
  | requested {sys' : Supervision} (response : sys'.response = sys.response)
      (some : 0 < sys'.supervisor.signals.held)
      (held : sys'.supervisor.signals.held ≤ sys.supervisor.signals.held + 1) :
      Course sys [.requested] sys'
  | launched {sys' : Supervision} (before : sys.response = .answered)
      (after : sys'.response = .stopped)
      (held : sys'.supervisor.signals.held = sys.supervisor.signals.held) : Course sys [] sys'
  | begins {sys' : Supervision} {kind : CycleKind} (before : sys.response = .before kind)
      (after : sys'.response = .during kind)
      (held : sys'.supervisor.signals.held = sys.supervisor.signals.held) :
      Course sys [.begins (.cycle kind)] sys'
  | fails {sys' : Supervision} {kind : CycleKind} (before : sys.response = .before kind)
      (after : sys'.response = .before kind)
      (held : sys'.supervisor.signals.held = sys.supervisor.signals.held) :
      Course sys [.begins (.cycle kind), .ends (.cycle kind) false] sys'
  | ends {sys' : Supervision} {kind : CycleKind} {worked : Bool}
      (before : sys.response = .during kind)
      (after : sys'.response = if worked then .past kind else .before kind)
      (held : sys'.supervisor.signals.held = sys.supervisor.signals.held) :
      Course sys [.ends (.cycle kind) worked] sys'
  | restarts {sys' : Supervision} (before : sys.response = .answered)
      (after : sys'.response = .unanswered)
      (held : sys'.supervisor.signals.held + 1 = sys.supervisor.signals.held) :
      Course sys [.restarts] sys'

theorem Solitary.only_loop (h : sys.Solitary) {i : Nat} {loop : Loop}
    (hloop : sys.loops[i]? = some loop) : sys.loops = [loop] ∧ i = 0 := by
  rcases h.alone with ⟨hnone, -⟩ | ⟨only, honly, -, -⟩
  · simp [hnone] at hloop
  · cases i with
    | zero => simp_all
    | succ i => simp [honly] at hloop

theorem Solitary.addCall (h : sys.Solitary) {call : Call} (hcall : call.isBrief = true) :
    (sys.addCall call).Solitary := by
  refine ⟨fun c hc => ?_, h.stopped, h.calm, h.alone⟩
  rcases List.mem_append.mp hc with hold | hnew
  · exact h.calls c hold
  · rw [List.mem_singleton.mp hnew]
    exact hcall

theorem Solitary.setCall {mid : Supervision} (h : mid.Solitary) {j : Nat} {call : Call}
    (hcall : call.isBrief = true) : (mid.setCall j call).Solitary := by
  refine ⟨fun c hc => ?_, h.stopped, h.calm, h.alone⟩
  rcases List.mem_or_eq_of_mem_set hc with hold | rfl
  · exact h.calls c hold
  · exact hcall

theorem Solitary.withSignals (h : sys.Solitary) {signals : Signals}
    (hstopped : signals.stopped = false) : (sys.withSignals signals).Solitary :=
  ⟨h.calls, hstopped, h.calm, h.alone⟩

theorem Solitary.launch (h : sys.Solitary) : sys.launch.Solitary := by
  unfold Supervision.launch
  split
  · exact h
  · rename_i hidle
    refine ⟨h.calls, h.stopped, h.calm, .inr ?_⟩
    rcases h.alone with ⟨hnone, -⟩ | ⟨loop, hloop, hlive, hlaunched⟩
    · exact ⟨_, by rw [hnone]; rfl, rfl, by rw [hnone]; rfl⟩
    · exact absurd (isRunning_of_launched hlaunched (by rw [hloop]; rfl) hlive) hidle

theorem Solitary.setLoop (h : sys.Solitary) {old new : Loop} {mid : Supervision}
    (hloop : sys.loops = [old]) (htasks : mid.loops = sys.loops ∧ mid.calls = sys.calls ∧
      mid.launched = sys.launched) (hstopped : mid.supervisor.signals.stopped = false)
    (hcalm : mid.supervisor.observer = sys.supervisor.observer) (hlive : new.isOver = false) :
    (mid.setLoop 0 new).Solitary := by
  obtain ⟨hloops, hcalls, hlaunched⟩ := htasks
  refine ⟨?_, hstopped, ?_, .inr ⟨new, ?_, hlive, ?_⟩⟩
  · intro call hcall
    exact h.calls call (hcalls ▸ hcall)
  · intro m
    have hsame : (mid.setLoop 0 new).supervisor.observer = sys.supervisor.observer := hcalm
    rw [hsame]
    exact h.calm m
  · simp [Supervision.setLoop, hloops, hloop]
  · rcases h.alone with ⟨hnone, -⟩ | ⟨loop, -, -, hzero⟩
    · rw [hnone] at hloop
      contradiction
    · exact hlaunched.trans hzero

theorem response_of_loops {loop : Loop} (h : sys.loops = [loop]) :
    sys.response = loop.response := by
  rw [response, h]

/-- A loop that begins a cycle gets to it, or fails at once. -/
theorem Course.of_enters {kind : CycleKind} {old : Loop}
    (hturn : sys.turnOf? a = some (.enters (.cycle kind))) (hloop : sys.loops = [old])
    (hbefore : old.response = .before kind)
    (hafter : sys'.loops = [Loop.after kind (outcomeOf (sys.supervisor.enter (.cycle kind)).2)])
    (hheld : sys'.supervisor.signals.held = sys.supervisor.signals.held) :
    Course sys (sys.milestones a) sys' := by
  have hnow := response_of_loops hafter
  rw [← response_of_loops hloop] at hbefore
  simp only [milestones, hturn, Turn.milestones, Turn.take, Turn.section_]
  cases hprogress : (sys.supervisor.enter (.cycle kind)).2 with
  | inl stage =>
      rw [hprogress] at hnow
      exact .begins hbefore hnow hheld
  | inr outcome =>
      rw [hprogress] at hnow
      obtain ⟨r, rfl⟩ := Supervisor.enter_fails hprogress
      exact .fails hbefore hnow hheld

theorem Course.of_advances {kind : CycleKind} {stage : Stage} {old : Loop}
    (hturn : sys.turnOf? a = some (.advances (.cycle kind) stage)) (hloop : sys.loops = [old])
    (hbefore : old.response = .during kind)
    (hafter : sys'.loops = [Loop.after kind (outcomeOf (sys.supervisor.advance stage).2)])
    (hheld : sys'.supervisor.signals.held = sys.supervisor.signals.held) :
    Course sys (sys.milestones a) sys' := by
  have hnow := response_of_loops hafter
  rw [← response_of_loops hloop] at hbefore
  simp only [milestones, hturn, Turn.milestones, Turn.take, Turn.section_]
  cases hprogress : (sys.supervisor.advance stage).2 with
  | inl stage' =>
      rw [hprogress] at hnow
      exact .still (hnow.trans hbefore.symm) hheld
  | inr outcome =>
      rw [hprogress] at hnow
      refine .ends hbefore ?_ hheld
      cases outcome with
      | ok u => exact hnow
      | error r => exact hnow

theorem milestones_of_quiet (hturn : sys.turnOf? a = none) (hrequests : sys.requests a = false)
    (hresumes : sys.resumes a = false) : sys.milestones a = [] := by
  simp [milestones, hturn, hrequests, hresumes]

/-- A loop at a cycle queues for it, begins it, goes on with it or ends it. -/
theorem Solitary.section_step (ho : sys.Orderly) (h : sys.Solitary) {kind : CycleKind}
    {access : Access} {p : Supervision × Sum Access LifecycleOutcome}
    (hloop : sys.loops = [.attempting kind access])
    (hacc : AccessStep sys (.loop 0) (.cycle kind) access p) :
    (p.1.setLoop 0 (Loop.after kind p.2)).Solitary ∧
      Course sys (sys.milestones (.loop 0)) (p.1.setLoop 0 (Loop.after kind p.2)) := by
  have htasks := hacc.keeps_tasks
  have hplace : sys.place (.loop 0) = some (.cycle kind, access) := by
    simp [place, hloop, Loop.section?]
  have hspared := hacc.spared ho hplace
  have hheld := congrArg Signals.held hspared.signals
  have hafter : (p.1.setLoop 0 (Loop.after kind p.2)).loops = [Loop.after kind p.2] := by
    simp [Supervision.setLoop, htasks.1, hloop]
  constructor
  · have hopen : p.1.supervisor.signals.stopped = false := hspared.signals ▸ h.stopped
    refine h.setLoop hloop htasks hopen hspared.observer ?_
    rcases p with ⟨mid, access' | outcome⟩ <;> rfl
  · cases hacc with
    | queues hbusy =>
        have hidle : sys.turnOf? (.loop 0) = none := by
          simp [turnOf?, Action.actor?, turn?, hplace, if_neg hbusy]
        rw [milestones_of_quiet hidle rfl (by simp [resumes, hloop])]
        exact .still (by rw [response_of_loops hafter, response_of_loops hloop]; rfl) rfl
    | enters hfree hnobody =>
        have hturn : sys.turnOf? (.loop 0) = some (.enters (.cycle kind)) := by
          simp [turnOf?, Action.actor?, turn?, hplace, hfree, hnobody]
        rw [goOn_eq] at hafter hheld ⊢
        exact .of_enters hturn hloop rfl hafter hheld
    | admitted hfree hhead =>
        have hturn : sys.turnOf? (.loop 0) = some (.enters (.cycle kind)) := by
          simp [turnOf?, Action.actor?, turn?, hplace, hfree, hhead]
        rw [goOn_eq] at hafter hheld ⊢
        exact .of_enters hturn hloop rfl hafter hheld
    | @advances stage =>
        have hturn : sys.turnOf? (.loop 0) = some (.advances (.cycle kind) stage) := by
          simp [turnOf?, Action.actor?, turn?, hplace]
        rw [goOn_eq] at hafter hheld ⊢
        exact .of_advances hturn hloop rfl hafter hheld

/-- A loop that waits is sent to its stop cycle by a request that is pending. -/
theorem Solitary.waiting_step (h : sys.Solitary) (hloop : sys.loops = [.waiting])
    (hstep : sys.loopStep? 0 = some sys') :
    sys'.Solitary ∧ Course sys (sys.milestones (.loop 0)) sys' := by
  have hold : sys.loops[0]? = some .waiting := by rw [hloop]; rfl
  have hidle : sys.turnOf? (.loop 0) = none :=
    turn?_of_no_section (by simp [place, hold, Loop.section?])
  have hpolled : sys.supervisor.signals.poll.1.stopped = false :=
    (Signals.poll_stopped _).trans h.stopped
  have hwaiting := h.withSignals hpolled
  rcases waiting_cases hold h.stopped hstep with ⟨hanswer, rfl⟩ | ⟨hanswer, rfl⟩
  · refine ⟨hwaiting.setLoop hloop ⟨rfl, rfl, rfl⟩ hpolled rfl rfl, ?_⟩
    have hshown : sys.milestones (.loop 0) = [.restarts] := by
      simp [milestones, hidle, requests, resumes, hold, hanswer]
    rw [hshown]
    refine .restarts (response_of_loops hloop) ?_ (Signals.held_of_poll_restart hanswer)
    simp [response, Supervision.setLoop, Supervision.withSignals, hloop, Loop.response,
      Response.before]
  · refine ⟨hwaiting, ?_⟩
    rw [milestones_of_quiet hidle rfl (by simp [resumes, hold, hanswer])]
    exact .still rfl (Signals.held_of_poll_none hanswer)

/-- What a step of the one loop keeps, and what it makes of the requests. -/
theorem Solitary.loop_step (ho : sys.Orderly) (h : sys.Solitary) {i : Nat}
    (hstep : sys.loopStep? i = some sys') :
    sys'.Solitary ∧ Course sys (sys.milestones (.loop i)) sys' := by
  obtain ⟨old, mid, new, hold, hmove, hset⟩ := loopStep?_cases hstep
  obtain ⟨hloop, rfl⟩ := h.only_loop hold
  have htasks := hmove.keeps_tasks
  have hafter : (mid.setLoop 0 new).loops = [new] := by simp [Supervision.setLoop, htasks.1, hloop]
  have hplace : sys.place (.loop 0) = old.section? := by simp [place, hold]
  have hstill : old.section? = none → sys.resumes (.loop 0) = false →
      new.response = old.response → mid.supervisor.signals = sys.supervisor.signals →
      Course sys (sys.milestones (.loop 0)) (mid.setLoop 0 new) := by
    intro hsection hresumes hresponse hsignals
    have hidle : sys.turnOf? (.loop 0) = none := turn?_of_no_section (hplace.trans hsection)
    rw [milestones_of_quiet hidle rfl hresumes]
    refine .still ?_ (congrArg Signals.held hsignals)
    rw [response_of_loops hafter, response_of_loops hloop, hresponse]
  subst hset
  cases hmove with
  | section_ hacc => exact h.section_step ho hloop hacc
  | serves =>
      exact ⟨h.setLoop hloop htasks h.stopped rfl rfl, hstill rfl (by simp [resumes, hold]) rfl rfl⟩
  | clears =>
      exact ⟨h.setLoop hloop htasks h.stopped rfl rfl, hstill rfl (by simp [resumes, hold]) rfl rfl⟩
  | @tells kind r _ =>
      have hbears : (sys.supervisor.tell kind.failure).2 = false := h.calm _
      have htold : (sys.told kind.failure).supervisor = _ := sys.supervisor.tell_fst kind.failure
      rw [hbears] at hstill ⊢
      refine ⟨h.setLoop hloop htasks ?_ ?_ rfl, hstill rfl (by simp [resumes, hold]) rfl ?_⟩
      · rw [htold]
        exact h.stopped
      · rw [htold]
      · rw [htold]
  | restarts _ => exact h.waiting_step hloop hstep
  | parks _ => exact h.waiting_step hloop hstep
  | leaves hs => rw [h.stopped] at hs; contradiction
  | rouses hs => rw [h.stopped] at hs; contradiction
  | stops hs => rw [h.stopped] at hs; contradiction

/-- What a step of a call keeps: a start launches the loop, and a restart requests one. -/
theorem Solitary.call_step (h : sys.Solitary) {j : Nat} (hstep : sys.callStep? j = some sys') :
    sys'.Solitary ∧ Course sys (sys.milestones (.call j)) sys' := by
  obtain ⟨old, mid, new, hold, hmove, rfl⟩ := callStep?_cases hstep
  have hbrief := h.calls old (List.mem_of_getElem? hold)
  have hidle : old.section? = none → sys.turnOf? (.call j) = none := by
    intro hsection
    exact turn?_of_no_section (by simp [place, hold, hsection])
  cases hmove with
  | launches =>
      refine ⟨h.launch.setCall rfl, ?_⟩
      rw [milestones_of_quiet (hidle rfl) (by simp [requests, hold]) rfl]
      rcases h.alone with ⟨hnone, hnothing⟩ | ⟨loop, hloop, hlive, hlaunched⟩
      · have hnew : sys.launch =
            { sys with loops := [.attempting .start .asking], launched := some 0 } := by
          simp [Supervision.launch, isRunning, hnothing, hnone]
        rw [hnew]
        exact .launched (by rw [response, hnone]) rfl rfl
      · have hrun := isRunning_of_launched hlaunched (by rw [hloop]; rfl) hlive
        rw [launch_of_running hrun]
        exact .still rfl rfl
  | notifies =>
      have hheld := sys.supervisor.signals.held_notify
      have hopen := (Signals.notify_stopped sys.supervisor.signals).trans h.stopped
      refine ⟨(h.withSignals hopen).setCall rfl, ?_⟩
      have hshown : sys.milestones (.call j) = [.requested] := by
        simp [milestones, hidle rfl, requests, hold]
      rw [hshown]
      exact .requested rfl hheld.1 hheld.2
  | _ => simp [Call.isBrief] at hbrief

theorem Solitary.escalate_step (h : sys.Solitary) (id : Nat) :
    (sys.escalate id).Solitary ∧ Course sys (sys.milestones (.escalate id)) (sys.escalate id) := by
  have hheld := sys.supervisor.signals.held_notify
  have hsignals : (sys.escalate id).supervisor.signals = sys.supervisor.signals.notify := by
    simp [escalate, Signals.requestRestart, h.stopped]
  have hresponse : (sys.escalate id).response = sys.response := by
    rcases h.alone with ⟨hnone, -⟩ | ⟨loop, hloop, -, -⟩
    · simp [response, escalate, hnone]
    · have hafter : (sys.escalate id).loops = [loop.faded id] := by
        have hmap : (sys.escalate id).loops = sys.loops.map (Loop.faded id) := rfl
        rw [hmap, hloop]
        rfl
      rw [response_of_loops hafter, response_of_loops hloop, Loop.response_faded]
  constructor
  · refine ⟨fun call hcall => ?_, ?_, h.calm, ?_⟩
    · obtain ⟨old, hold, rfl⟩ := List.mem_map.mp hcall
      have hbrief := h.calls old hold
      cases old <;> simp_all [Call.isBrief]
    · rw [hsignals, Signals.notify_stopped]
      exact h.stopped
    · rcases h.alone with ⟨hnone, hnothing⟩ | ⟨loop, hloop, hlive, hlaunched⟩
      · exact .inl ⟨by simp [escalate, hnone], hnothing⟩
      · refine .inr ⟨loop.faded id, ?_, by simpa using hlive, hlaunched⟩
        have hmap : (sys.escalate id).loops = sys.loops.map (Loop.faded id) := rfl
        rw [hmap, hloop]
        rfl
  · have hshown : sys.milestones (.escalate id) = [.requested] := by
      simp [milestones, turnOf?, Action.actor?, requests, h.stopped]
    rw [hshown]
    refine .requested hresponse ?_ ?_
    · rw [hsignals]
      exact hheld.1
    · rw [hsignals]
      exact hheld.2

theorem Solitary.step (ho : sys.Orderly) (h : sys.Solitary) (hunstopped : a ≠ .stop)
    (hstep : sys.act? a = some sys') : sys'.Solitary ∧ Course sys (sys.milestones a) sys' := by
  cases act?_cases hstep with
  | asks hasks =>
      cases hasks with
      | stop => contradiction
      | _ => exact ⟨h.addCall rfl, .still rfl rfl⟩
  | loop => exact h.loop_step ho hstep
  | call => exact h.call_step hstep
  | wakes hold =>
      obtain ⟨hloop, rfl⟩ := h.only_loop hold
      refine ⟨h.setLoop hloop ⟨rfl, rfl, rfl⟩ h.stopped rfl rfl, .still ?_ rfl⟩
      rw [response_of_loops hloop, response, Supervision.setLoop, hloop]
      rfl
  | idles => exact ⟨h, .still rfl rfl⟩
  | @escalates id => exact h.escalate_step id
  | outside => exact ⟨⟨h.calls, h.stopped, h.calm, h.alone⟩, .still rfl rfl⟩
  | transport => exact ⟨⟨h.calls, h.stopped, h.calm, h.alone⟩, .still rfl rfl⟩

/-! ## Every request is accounted for -/

/-- How far the response to a request may be: all done, as far as the loop is, or not begun, which
takes a pending restart. -/
def Owed (r : Response) (sys : Supervision) : Prop :=
  r = .answered ∨ r = sys.response ∨ r = .unanswered ∧ 0 < sys.supervisor.signals.held

/-- The response to a request goes along with the loop, from the stop cycle on that begins next. -/
theorem Course.owed {shown : List Milestone} (h : Course sys shown sys') {r : Response}
    (howed : Owed r sys) : Owed (shown.foldl Response.next r) sys' := by
  unfold Owed at howed ⊢
  cases h with
  | still hresponse hheld =>
      rw [hresponse, hheld]
      exact howed
  | requested hresponse hsome _ =>
      rw [hresponse]
      rcases howed with rfl | rfl | ⟨rfl, -⟩
      · exact .inl rfl
      · cases sys.response <;> simp [Response.next]
      · exact .inr (.inr ⟨rfl, hsome⟩)
  | launched hbefore hafter hheld =>
      rw [hbefore] at howed
      rw [hheld]
      rcases howed with rfl | rfl | ⟨rfl, hsome⟩
      · exact .inl rfl
      · exact .inl rfl
      · exact .inr (.inr ⟨rfl, hsome⟩)
  | @begins _ kind hbefore hafter hheld =>
      rw [hbefore] at howed
      rw [hafter, hheld]
      rcases howed with rfl | rfl | ⟨rfl, hsome⟩ <;> cases kind <;>
        simp_all [Response.next, Response.before, Response.during]
  | @fails _ kind hbefore hafter hheld =>
      rw [hbefore] at howed
      rw [hafter, hheld]
      rcases howed with rfl | rfl | ⟨rfl, hsome⟩ <;> cases kind <;>
        simp_all [Response.next, Response.before]
  | @ends _ kind worked hbefore hafter hheld =>
      rw [hbefore] at howed
      rw [hafter, hheld]
      rcases howed with rfl | rfl | ⟨rfl, hsome⟩ <;> cases kind <;> cases worked <;>
        simp_all [Response.next, Response.before, Response.during, Response.past]
  | restarts hbefore hafter _ =>
      rw [hbefore] at howed
      rw [hafter]
      rcases howed with rfl | rfl | ⟨rfl, -⟩
      · exact .inl rfl
      · exact .inl rfl
      · exact .inr (.inl rfl)

/-- Every request is answered or pending, or the loop is on its way to answer it; and as many were
made as restarts have begun or are pending. -/
structure Accounted (shown : List Milestone) (sys : Supervision) : Prop where
  owed : ∀ {earlier later}, shown = earlier ++ .requested :: later →
    Owed (Response.after later) sys
  balanced : shown.count .restarts + sys.supervisor.signals.held ≤ shown.count .requested

/-- A request is shown alone, and is pending then. -/
theorem Course.requested_last {shown earlier later : List Milestone} (h : Course sys shown sys')
    (hshown : shown = earlier ++ .requested :: later) :
    later = [] ∧ 0 < sys'.supervisor.signals.held := by
  have hmem : Milestone.requested ∈ shown := by simp [hshown]
  cases h with
  | requested _ hsome _ =>
      have hlength := congrArg List.length hshown
      simp only [List.length_append, List.length_cons, List.length_nil] at hlength
      exact ⟨List.eq_nil_of_length_eq_zero (by omega), hsome⟩
  | _ => simp at hmem

theorem Accounted.owed_step {before shown : List Milestone} (h : Accounted before sys)
    (hcourse : Course sys shown sys') {earlier later : List Milestone}
    (hsplit : before ++ shown = earlier ++ .requested :: later) :
    Owed (Response.after later) sys' := by
  have hnow : ∀ part, shown = part ++ .requested :: later → Owed (Response.after later) sys' := by
    intro part hshown
    obtain ⟨rfl, hsome⟩ := hcourse.requested_last hshown
    exact .inr (.inr ⟨rfl, hsome⟩)
  rcases List.append_eq_append_iff.mp hsplit with ⟨part, rfl, hshown⟩ | ⟨part, hold, hrest⟩
  · exact hnow part hshown
  · cases part with
    | nil => exact hnow [] hrest.symm
    | cons m part =>
        obtain ⟨rfl, hlater⟩ := List.cons.inj hrest
        have heq : later = part ++ shown := hlater
        rw [heq, Response.after, List.foldl_append]
        exact hcourse.owed (h.owed hold)

theorem Accounted.step {before shown : List Milestone} (h : Accounted before sys)
    (hcourse : Course sys shown sys') : Accounted (before ++ shown) sys' := by
  refine ⟨h.owed_step hcourse, ?_⟩
  have hbalanced := h.balanced
  rw [List.count_append, List.count_append]
  cases hcourse with
  | requested _ _ hheld => simp; omega
  | restarts _ _ hheld => simp; omega
  | _ => simp; omega

section Created

variable {plugin : Plugin} {starts stops : List CallOutcome} {dirs : List Path}
  {settings : Settings} {observer : Observer} {files : FileSystem} {s : Supervisor}
  {actions : List Action}

theorem solitary_unstarted (huntouched : s.Untouched) (calm : ∀ m, s.observer.panics m = false) :
    (unstarted s).Solitary :=
  ⟨nofun, by rw [unstarted, huntouched.signals]; rfl, calm, .inl ⟨rfl, rfl⟩⟩

theorem accounted_unstarted (huntouched : s.Untouched) : Accounted [] (unstarted s) := by
  refine ⟨fun {earlier later} hsplit => ?_, ?_⟩
  · simp at hsplit
  · rw [unstarted, huntouched.signals]
    decide

/-- A loop waits, and no restart is pending. -/
def Parked (sys : Supervision) : Prop :=
  (∃ loop ∈ sys.loops, loop.waits = true) ∧ sys.supervisor.signals.waiter = .parked ∧
    sys.supervisor.signals.stored = false

instance (sys : Supervision) : Decidable sys.Parked := by
  unfold Parked
  infer_instance

/-- Along every run in which no stop is called for, every request that was accepted before the loop
is parked has been followed by a successful stop cycle, which began after it, and then by a
successful start cycle; and there have been no more restarts than requests. -/
theorem restarts_neither_lost_nor_invented
    (created : Supervisor.create plugin starts stops dirs settings observer files = .ok s)
    (calm : ∀ m, observer.panics m = false)
    (hrun : (unstarted s).run? actions = some sys) (hunstopped : Action.stop ∉ actions) :
    (sys.Parked → ∀ earlier later,
        (unstarted s).trace actions = earlier ++ .requested :: later → Milestone.Answered later) ∧
      ((unstarted s).trace actions).count .restarts ≤
        ((unstarted s).trace actions).count .requested := by
  have huntouched := (Supervisor.create_eq created).1
  have hobserver := (Supervisor.create_given created).2.2
  have hbefore : (unstarted s).Sound ∧ (unstarted s).Solitary ∧ Accounted [] (unstarted s) :=
    ⟨sound_unstarted huntouched, solitary_unstarted huntouched (hobserver ▸ calm),
      accounted_unstarted huntouched⟩
  have hallowed : ∀ a ∈ actions, a ≠ .stop := by
    rintro a ha rfl
    exact hunstopped ha
  have haccounted : sys.Sound ∧ sys.Solitary ∧ Accounted ((unstarted s).trace actions) sys := by
    refine run?_keeps_trace (P := fun shown now => now.Sound ∧ now.Solitary ∧ Accounted shown now)
      ?_ hallowed hbefore hrun
    intro shown now next a hfirst ⟨hsound, hsolitary, haccounted⟩ hstep
    obtain ⟨hnext, hcourse⟩ := hsolitary.step hsound.orderly hfirst hstep
    exact ⟨hsound.step hstep, hnext, haccounted.step hcourse⟩
  obtain ⟨-, hsolitary, haccounted⟩ := haccounted
  refine ⟨?_, ?_⟩
  · rintro ⟨⟨loop, hmem, hwaits⟩, hparked, hstored⟩ earlier later hsplit
    obtain ⟨i, hloop⟩ := List.getElem?_of_mem hmem
    have hresponse : sys.response = .answered := by
      rw [response_of_loops (hsolitary.only_loop hloop).1]
      cases loop <;> first | rfl | contradiction
    have hnothing : sys.supervisor.signals.held = 0 := by simp [Signals.held, hparked, hstored]
    rcases haccounted.owed hsplit with hanswered | hanswered | ⟨-, hsome⟩
    · exact Milestone.answered_of_after hanswered
    · exact Milestone.answered_of_after (hanswered.trans hresponse)
    · omega
  · have hbalanced := haccounted.balanced
    omega

def restartedRun : List Action :=
  [.start true, .call 0] ++ List.replicate 6 (.loop 0) ++ [.restart, .call 1] ++
    List.replicate 11 (.loop 0)

theorem restarts_neither_lost_nor_invented_lone :
    ∃ sys earlier later, (unstarted lone).run? restartedRun = some sys ∧ sys.Parked ∧
      (unstarted lone).trace restartedRun = earlier ++ .requested :: later ∧
      Milestone.Answered later ∧ ((unstarted lone).trace restartedRun).count .restarts ≤ 1 := by
  have hsys : ((unstarted lone).run? restartedRun).map (fun sys => decide sys.Parked) =
      some true := by
    decide +kernel
  have htrace : (unstarted lone).trace restartedRun =
      [.begins (.cycle .start), .ends (.cycle .start) true] ++ .requested ::
        [.restarts, .begins (.cycle .stop), .ends (.cycle .stop) true, .begins (.cycle .start),
          .ends (.cycle .start) true] := by
    decide +kernel
  obtain ⟨sys, hrun, hdecide⟩ := Option.map_eq_some_iff.mp hsys
  have hparked : sys.Parked := of_decide_eq_true hdecide
  have hunstopped : Action.stop ∉ restartedRun := by decide
  obtain ⟨hanswered, hfewer⟩ :=
    restarts_neither_lost_nor_invented create_lone (fun m => rfl) hrun hunstopped
  refine ⟨sys, _, _, hrun, hparked, htrace, hanswered hparked _ _ htrace, ?_⟩
  rw [htrace] at hfewer ⊢
  exact hfewer

end Created

end Supervision

end PluginKit
