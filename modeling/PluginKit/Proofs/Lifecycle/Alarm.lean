import PluginKit.Proofs.Lifecycle.Serving
import PluginKit.Proofs.Lifecycle.Trace

/-!
# Dead servers

A serving task that has seen too many crashes asks for a restart before it ends, and nobody else
restarts its server. So as long as a plugin is served, a server whose task has ended has a restart
on its way: it is stored, it was handed to the loop in its wait, or the loop is about to stop the
servers.
-/

namespace PluginKit

/-! ## How a serving task ends -/

namespace Serving

/-- A serving task that is not shut down ends in the way of `escalate`, when the observer bears its
metrics: `escalate` leaves the signals that the task leaves, and accepts the restart just when the
task was told so. -/
theorem escalate_of_run {o : Observer} (calm : ∀ m, o.panics m = false) {ending : Ending}
    (rounds : List Round) (w : CrashWindow) (s : Signals)
    (h : (run o w s rounds).ending = some ending) :
    ending = .shutDown ∨ ∀ (sys : Supervision) (id : Nat),
      sys.supervisor.signals = requested s (rounds.take (run o w s rounds).rounds) →
        ending = .escalated (!sys.supervisor.signals.stopped) ∧
          (sys.escalate id).supervisor.signals = (run o w s rounds).signals := by
  induction rounds generalizing w s with
  | nil => simp [run] at h
  | cons round rest ih =>
      simp only [run, calm, Bool.false_eq_true, if_false] at h ⊢
      split at h
      · exact .inl (Option.some.inj h).symm
      · rename_i hup
        rw [if_neg hup]
        split at h
        · rename_i hmany
          rw [if_pos hmany]
          refine .inr fun sys id hsignals => ?_
          obtain rfl := Option.some.inj h
          change sys.supervisor.signals = round.requests.foldl Signals.apply s at hsignals
          rw [← hsignals, requestRestart_snd]
          exact ⟨rfl, rfl⟩
        · rename_i hfew
          rw [if_neg hfew]
          exact ih _ _ h

end Serving

/-! ## Who heeds the requests -/

def Loop.due : Loop → Bool
  | attempting .stop .asking => true
  | attempting .stop .queued => true
  | _ => false

namespace Supervision

variable {sys sys' : Supervision} {who : Holder} {a : Action}

/-- What a step makes of the requests and of those who heed them. -/
inductive Heeds (sys sys' : Supervision) : Prop
  | keeps (signals : sys'.supervisor.signals = sys.supervisor.signals ∨
        sys'.supervisor.signals = sys.supervisor.signals.notify)
      (waiting : ∀ i : Nat, sys.loops[i]? = some Loop.waiting →
        sys'.loops[i]? = some Loop.waiting)
      (due : ∀ (i : Nat) (loop : Loop), sys.loops[i]? = some loop → loop.due = true →
        (∃ loop' : Loop, sys'.loops[i]? = some loop' ∧ loop'.due = true) ∨
          sys'.supervisor.state = .stopping)
  | resumes {i : Nat} (answer : sys.supervisor.signals.poll.2 = some .restart)
      (signals : sys'.supervisor.signals = sys.supervisor.signals.poll.1)
      (loop : sys'.loops[i]? = some (.attempting .stop .asking))
  | parks {i : Nat} (answer : sys.supervisor.signals.poll.2 = none)
      (signals : sys'.supervisor.signals = sys.supervisor.signals.poll.1)
      (loops : sys'.loops = sys.loops) (waiting : sys.loops[i]? = some Loop.waiting)

theorem Heeds.of_loops (hsignals : sys'.supervisor.signals = sys.supervisor.signals ∨
      sys'.supervisor.signals = sys.supervisor.signals.notify)
    (hloops : ∀ (i : Nat) (loop : Loop), sys.loops[i]? = some loop →
      sys'.loops[i]? = some loop) : Heeds sys sys' :=
  .keeps hsignals (fun i hloop => hloops i _ hloop)
    fun i loop hloop hdue => .inl ⟨loop, hloops i loop hloop, hdue⟩

theorem Heeds.of_setLoop {i : Nat} {old new : Loop} {mid : Supervision}
    (hold : sys.loops[i]? = some old) (hloops : mid.loops = sys.loops)
    (hsignals : mid.supervisor.signals = sys.supervisor.signals) (hwaiting : old ≠ .waiting)
    (hdue : old.due = true → new.due = true ∨ mid.supervisor.state = .stopping) :
    Heeds sys (mid.setLoop i new) := by
  refine .keeps (.inl hsignals) (fun k hk => ?_) fun k loop hk hloop => ?_
  · have hne : k ≠ i := by
      rintro rfl
      exact hwaiting (Option.some.inj (hold.symm.trans hk))
    exact (setLoop_of_ne hne hloops).trans hk
  · by_cases hki : k = i
    · subst hki
      obtain rfl : old = loop := Option.some.inj (hold.symm.trans hk)
      rcases hdue hloop with hnew | hstate
      · exact .inl ⟨new, setLoop_self hold hloops, hnew⟩
      · exact .inr hstate
    · exact .inl ⟨loop, (setLoop_of_ne hki hloops).trans hk, hloop⟩

/-- A loop that is about to begin a stop cycle remains so until it has begun it. -/
theorem AccessStep.due {i : Nat} {kind : CycleKind} {access : Access}
    {p : Supervision × Sum Access LifecycleOutcome}
    (h : AccessStep sys (.loop i) (.cycle kind) access p)
    (hperm : sys.supervisor.state ≠ .permanentlyStopped)
    (hdue : (Loop.attempting kind access).due = true) :
    (Loop.after kind p.2).due = true ∨ p.1.supervisor.state = .stopping := by
  cases kind with
  | start => cases access <;> simp [Loop.due] at hdue
  | stop =>
      have hbegun : (sys.supervisor.enter (.cycle .stop)).1.state = .stopping := by
        rw [Supervisor.enter, Supervisor.enterStop_of_not_stopped hperm]
      cases h with
      | queues hbusy => exact .inl rfl
      | enters hlock hqueue => rw [goOn_eq]; exact .inr hbegun
      | admitted hlock hhead => rw [goOn_eq]; exact .inr hbegun
      | advances => simp [Loop.due] at hdue

theorem heeds_of_loopStep (ho : sys.Orderly) (hopen : sys.supervisor.signals.stopped = false)
    {i : Nat} (hstep : sys.loopStep? i = some sys') : Heeds sys sys' := by
  obtain ⟨old, mid, new, hold, hmove, hset⟩ := loopStep?_cases hstep
  have hloops := hmove.keeps_tasks.1
  have hwaits : old = .waiting → Heeds sys sys' := by
    rintro rfl
    rcases waiting_cases hold hopen hstep with ⟨hanswer, rfl⟩ | ⟨hanswer, rfl⟩
    · exact .resumes hanswer rfl (setLoop_self hold rfl)
    · exact .parks hanswer rfl rfl hold
  cases hmove with
  | @section_ kind access p hacc =>
      have hplace : sys.place (.loop i) = some (.cycle kind, access) := by
        simp only [place, hold]
        rfl
      have hperm : sys.supervisor.state ≠ .permanentlyStopped := by
        intro heq
        rw [ho.tokened.mpr heq] at hopen
        contradiction
      rw [hset]
      exact .of_setLoop hold hloops (hacc.spared ho hplace).signals (by rintro ⟨⟩) (hacc.due hperm)
  | restarts _ => exact hwaits rfl
  | parks _ => exact hwaits rfl
  | tells _ =>
      rw [hset]
      exact .of_setLoop hold hloops (by simp [told, Supervisor.tell_fst]) (by rintro ⟨⟩)
        (by rintro ⟨⟩)
  | stops hs => rw [hopen] at hs; contradiction
  | _ =>
      rw [hset]
      exact .of_setLoop hold hloops rfl (by rintro ⟨⟩) (by rintro ⟨⟩)

theorem loops_of_launch {i : Nat} {loop : Loop} (h : sys.loops[i]? = some loop) :
    sys.launch.loops[i]? = some loop := by
  unfold launch
  split
  · exact h
  · rw [List.getElem?_append_left (List.getElem?_eq_some_iff.mp h).choose]
    exact h

/-- The last stop leaves the requests alone until it is over. -/
theorem AccessStep.signals_of_farewell {access : Access}
    {p : Supervision × Sum Access LifecycleOutcome} (h : AccessStep sys who .farewell access p)
    (ho : sys.Orderly) (hplace : sys.place who = some (.farewell, access))
    (hopen : p.1.supervisor.signals.stopped = false) :
    p.1.supervisor.signals = sys.supervisor.signals := by
  have henter : (sys.supervisor.enter .farewell).1.signals = sys.supervisor.signals := by
    simp only [Supervisor.enter, Supervisor.enterFarewell]
    split <;> rfl
  cases h with
  | queues hbusy => rfl
  | enters hlock hqueue => rw [goOn_eq]; exact henter
  | admitted hlock hhead => rw [goOn_eq]; exact henter
  | @advances stage =>
      have hoccurs := (ho.staged (stage?_of_place hplace)).2
      rw [goOn_eq] at hopen ⊢
      obtain rfl : stage = .draining .farewell := by
        cases stage with
        | draining purpose => cases purpose <;> simp [Stage.occursIn] at hoccurs ⊢
        | _ => simp [Stage.occursIn] at hoccurs
      cases hall : Supervisor.allStopped sys.supervisor.servers with
      | false => simp [Supervisor.advance, hall]
      | true => simp [Supervisor.advance, hall, Supervisor.conclude] at hopen

theorem heeds_of_callStep (ho : sys.Orderly) (ha : sys.Attended)
    (hopen : sys'.supervisor.signals.stopped = false) {j : Nat}
    (hstep : sys.callStep? j = some sys') : Heeds sys sys' := by
  obtain ⟨old, mid, new, hold, hmove, rfl⟩ := callStep?_cases hstep
  cases hmove with
  | launches =>
      refine .of_loops (.inl ?_) fun i loop hloop => loops_of_launch hloop
      rw [setCall, launch_supervisor]
  | notifies => exact .of_loops (.inr rfl) fun i loop hloop => hloop
  | @stop access p hacc =>
      have hplace : sys.place (.call j) = some (.farewell, access) := by
        simp only [place, hold]
        rfl
      refine .of_loops (.inl (hacc.signals_of_farewell ho hplace hopen)) fun i loop hloop => ?_
      have hsame := hacc.keeps_tasks.1
      rw [← hsame] at hloop
      exact hloop
  | cycle hacc =>
      have hcycle := ha.uncycled _ (List.mem_of_getElem? hold)
      contradiction
  | tells =>
      refine .of_loops (.inl ?_) fun i loop hloop => hloop
      simp [told, setCall, Supervisor.tell_fst]
  | _ => exact .of_loops (.inl rfl) fun i loop hloop => hloop

theorem heeds_of_escalate (id : Nat) (hopen : sys.supervisor.signals.stopped = false) :
    Heeds sys (sys.escalate id) := by
  have hloops : (sys.escalate id).loops = sys.loops.map (Loop.faded id) := rfl
  refine .keeps (.inr (by simp [escalate, Signals.requestRestart, hopen])) (fun i hi => ?_)
    fun i loop hi hdue => .inl ⟨loop.faded id, ?_, ?_⟩
  · rw [hloops, List.getElem?_map, hi]
    rfl
  · rw [hloops, List.getElem?_map, hi]
    rfl
  · cases loop with
    | attempting kind access =>
        cases kind <;> cases access <;> simp_all [Loop.due, Loop.faded, endTaskOf]
    | _ => exact hdue

theorem Orderly.open_before (ho : sys.Orderly) (hstep : sys.act? a = some sys')
    (hopen : sys'.supervisor.signals.stopped = false) :
    sys.supervisor.signals.stopped = false := by
  cases hstop : sys.supervisor.signals.stopped with
  | false => rfl
  | true =>
      have hperm := ho.stays_stopped hstep (ho.tokened.mp hstop)
      rw [(ho.step hstep).tokened.mpr hperm] at hopen
      contradiction

/-- Every step that leaves requests open heeds them. -/
theorem Sound.heeds (hs : sys.Sound) (hopen : sys'.supervisor.signals.stopped = false)
    (hstep : sys.act? a = some sys') : Heeds sys sys' := by
  have hbefore := hs.orderly.open_before hstep hopen
  cases act?_cases hstep with
  | loop => exact heeds_of_loopStep hs.orderly hbefore hstep
  | call => exact heeds_of_callStep hs.orderly hs.attended hopen hstep
  | wakes hold => exact .of_setLoop hold rfl rfl (by rintro ⟨⟩) (by rintro ⟨⟩)
  | @escalates id => exact heeds_of_escalate id hbefore
  | _ => exact .of_loops (.inl rfl) fun i loop hloop => hloop

/-! ## The alarm -/

/-- A wait belongs to a loop that waits, and has nothing stored behind it. -/
structure Heeded (sys : Supervision) : Prop where
  sane : sys.supervisor.signals.Sane
  awaited : sys.supervisor.signals.waiter ≠ .absent → ∃ i : Nat, sys.loops[i]? = some Loop.waiting

theorem Heeded.step (h : sys.Heeded) (hheeds : Heeds sys sys') : sys'.Heeded := by
  cases hheeds with
  | keeps hsignals hwaiting hdue =>
      have hkept : sys'.supervisor.signals.waiter ≠ .absent →
          ∃ i : Nat, sys'.loops[i]? = some Loop.waiting := by
        intro hpresent
        have hbefore : sys.supervisor.signals.waiter ≠ .absent := by
          rcases hsignals with heq | heq
          · exact heq ▸ hpresent
          · exact Signals.notify_waiter (heq ▸ hpresent)
        obtain ⟨i, hloop⟩ := h.awaited hbefore
        exact ⟨i, hwaiting i hloop⟩
      refine ⟨?_, hkept⟩
      rcases hsignals with heq | heq
      · exact heq ▸ h.sane
      · exact heq ▸ h.sane.notify
  | resumes hanswer hsignals hloop =>
      refine ⟨hsignals ▸ h.sane.poll, fun hpresent => ?_⟩
      rw [hsignals, Signals.poll_waiter hanswer] at hpresent
      contradiction
  | parks hanswer hsignals hloops hloop =>
      exact ⟨hsignals ▸ h.sane.poll, fun _ => ⟨_, hloops ▸ hloop⟩⟩

/-- A restart is pending, or a loop is about to begin the stop cycle of one. -/
def Alarmed (sys : Supervision) : Prop :=
  0 < sys.supervisor.signals.held ∨ ∃ (i : Nat) (loop : Loop), sys.loops[i]? = some loop ∧
    loop.due = true

theorem Alarmed.step (h : sys.Alarmed) (hheeds : Heeds sys sys')
    (hstate : sys'.supervisor.state ≠ .stopping) : sys'.Alarmed := by
  cases hheeds with
  | keeps hsignals hwaiting hdue =>
      rcases h with hheld | ⟨i, loop, hloop, hlast⟩
      · rcases hsignals with heq | heq
        · exact .inl (heq ▸ hheld)
        · exact .inl (heq ▸ sys.supervisor.signals.held_notify.1)
      · rcases hdue i loop hloop hlast with ⟨loop', hnow, hstill⟩ | hstopping
        · exact .inr ⟨i, loop', hnow, hstill⟩
        · contradiction
  | resumes hanswer hsignals hloop => exact .inr ⟨_, _, hloop, rfl⟩
  | parks hanswer hsignals hloops hloop =>
      rw [Alarmed, hsignals, hloops, Signals.held_of_poll_none hanswer]
      exact h

/-- Whether a start cycle lasts, or the plugin is served. -/
def Up (s : Supervisor) : Prop := s.state = .starting ∨ s.state = .serving

/-- The task of a server has ended that is bound, or dialed for the first time. -/
def Fallen (sys : Supervision) : Prop :=
  (∃ server ∈ sys.supervisor.servers, server.task = .ended) ∨
    ∃ who sec server left, sys.stage? who = some (sec, .dialing server left) ∧
      server.task = .ended

/-- A turn that leaves the plugin up is one of a start cycle, or changes nothing. -/
theorem Orderly.up_of_turn {t : Turn} (ho : sys.Orderly) (hturn : sys.turn? who = some t)
    (hup : Up (t.take sys.supervisor).1) : t.section_ = .cycle .start := by
  have hkeeps := ho.turn_keeps hturn
  have hduring : ∀ sec : Section, sec.during = .starting ∨ sec.during = .serving →
      sec = .cycle .start := by
    intro sec hsec
    rcases sec with (_ | _) | _ <;> simp_all [Section.during]
  cases hprogress : (t.take sys.supervisor).2 with
  | inl stage =>
      have hstate := (hkeeps.holding stage hprogress).1
      exact hduring _ (by rw [← hstate]; exact hup)
  | inr outcome =>
      have hserving : (t.take sys.supervisor).1.state = .serving :=
        hup.resolve_left (hkeeps.ended outcome hprogress)
      rcases turn?_cases hturn with ⟨sec, rfl, hlock, -⟩ | ⟨sec, stage, rfl, hplace⟩
      · by_cases hsec : sec = .cycle .start
        · exact hsec
        have hperm : sys.supervisor.state ≠ .permanentlyStopped := by
          rw [Supervisor.serving_of_enter hprogress hserving]
          decide
        obtain ⟨purpose, henter⟩ := Supervisor.enter_of_not_stopped hperm hsec
        rw [Turn.take, henter] at hprogress
        contradiction
      · obtain ⟨hstate, hoccurs⟩ := ho.staged (stage?_of_place hplace)
        exact (Supervisor.binding_of_advance hstate hoccurs hprogress hserving).1

theorem ended_of_stopFirst {servers : List Server} {server : Server}
    (h : server ∈ Supervisor.stopFirst servers) (hended : server.task = .ended) :
    server ∈ servers := by
  induction servers with
  | nil => simp [Supervisor.stopFirst] at h
  | cons first rest ih =>
      simp only [Supervisor.stopFirst] at h
      split at h
      · rcases List.mem_cons.mp h with rfl | hrest
        · exact List.mem_cons_self
        · exact List.mem_cons_of_mem _ (ih hrest)
      · rcases List.mem_cons.mp h with rfl | hrest
        · simp at hended
        · exact List.mem_cons_of_mem _ hrest

/-- A server of which the task has ended, among those of a turn: one that is bound, or the one that
is dialed next. -/
def FallenIn (p : Supervisor × Progress) : Prop :=
  (∃ server ∈ p.1.servers, server.task = .ended) ∨
    ∃ server left, p.2 = .inl (.dialing server left) ∧ server.task = .ended

theorem fallen_of_advance {s : Supervisor} {stage : Stage} (h : FallenIn (s.advance stage)) :
    FallenIn (s, .inl stage) := by
  unfold FallenIn at h ⊢
  generalize hp : s.advance stage = p at h
  have hadv := Supervisor.advance_cases hp
  cases hadv with
  | serves => simpa using h
  | unbound => simpa using h
  | undialed =>
      left
      simpa using h
  | givesUp => simpa using h
  | binds =>
      rcases h with hserver | ⟨server, left, hdialing, hended⟩
      · exact .inl hserver
      · cases hdialing
        contradiction
  | @dialed server left =>
      rcases h with ⟨other, hmem, hended⟩ | ⟨other, left, hdialing, -⟩
      · rcases List.mem_append.mp hmem with hold | hnew
        · exact .inl ⟨other, hold, hended⟩
        · rw [List.mem_singleton.mp hnew] at hended
          exact .inr ⟨server, left, rfl, hended⟩
      · cases hdialing
  | drains hleft =>
      rcases h with ⟨server, hmem, hended⟩ | ⟨server, left, hdialing, -⟩
      · exact .inl ⟨server, ended_of_stopFirst hmem hended, hended⟩
      · cases hdialing
  | drained hall hend =>
      rcases h with ⟨server, hmem, -⟩ | ⟨server, left, hdialing, -⟩
      · rw [hend.servers] at hmem
        contradiction
      · cases hdialing

theorem not_fallen_of_enterStart {s : Supervisor} (hnone : s.servers = []) :
    ¬ FallenIn s.enterStart := by
  unfold FallenIn
  generalize hp : s.enterStart = p
  have hopens := Supervisor.enterStart_cases hp
  cases hopens <;> simp [hnone]

/-- No turn of a start cycle ends the task of a server. -/
theorem Sound.fallen_of_turn {t : Turn} (hs : sys.Sound) (hturn : sys.turn? who = some t)
    (hstart : t.section_ = .cycle .start) (hstep : Turned sys who t sys')
    (hfallen : sys'.Fallen) : Up sys.supervisor ∧ sys.Fallen := by
  have hafter : FallenIn (t.take sys.supervisor) := by
    rcases hfallen with ⟨server, hmem, hended⟩ | ⟨other, sec, server, left, hstage, hended⟩
    · exact .inl ⟨server, hstep.supervisor ▸ hmem, hended⟩
    · exact .inr ⟨server, left, (hs.orderly.stage_of_turned hturn hstep hstage).2, hended⟩
  rcases turn?_cases hturn with ⟨sec, rfl, -, -⟩ | ⟨sec, stage, rfl, hplace⟩
  · obtain rfl : sec = .cycle .start := hstart
    exact absurd hafter (not_fallen_of_enterStart (hs.servers_of_start hturn).2)
  · obtain rfl : sec = .cycle .start := hstart
    have hstage := stage?_of_place hplace
    refine ⟨.inl (hs.orderly.staged hstage).1, ?_⟩
    rcases fallen_of_advance hafter with hserver | ⟨server, left, hdialing, hended⟩
    · exact .inl hserver
    · cases hdialing
      exact .inr ⟨who, _, server, left, hstage, hended⟩

theorem Fallen.of_same (h : sys'.Fallen)
    (hservers : sys'.supervisor.servers = sys.supervisor.servers)
    (hstage : ∀ who, sys'.stage? who = sys.stage? who) : sys.Fallen := by
  rcases h with ⟨server, hmem, hended⟩ | ⟨who, sec, server, left, hdialing, hended⟩
  · exact .inl ⟨server, hservers ▸ hmem, hended⟩
  · exact .inr ⟨who, sec, server, left, (hstage who).symm.trans hdialing, hended⟩

theorem Orderly.open_of_up (ho : sys.Orderly) (hup : Up sys.supervisor) :
    sys.supervisor.signals.stopped = false := by
  cases hstop : sys.supervisor.signals.stopped with
  | false => rfl
  | true =>
      have hperm := ho.tokened.mp hstop
      rcases hup with hstate | hstate <;> rw [hperm] at hstate <;> contradiction

/-- A server falls only by a step that asks for a restart. -/
theorem Sound.fallen_step (hs : sys.Sound) (hstep : sys.act? a = some sys')
    (hup : Up sys'.supervisor) (hfallen : sys'.Fallen) :
    Up sys.supervisor ∧ sys.Fallen ∨ 0 < sys'.supervisor.signals.held := by
  cases act?_kind hstep with
  | turn hactor hturn hturned =>
      have hstart := hs.orderly.up_of_turn hturn (hturned.supervisor ▸ hup)
      exact .inl (hs.fallen_of_turn hturn hstart hturned hfallen)
  | queues hidle hqueued =>
      have hsame := hqueued.supervisor
      exact .inl ⟨hsame ▸ hup, hfallen.of_same (by rw [hsame]) hqueued.stage?⟩
  | aside hidle haside =>
      have hstate := haside.supervisor.state
      refine .inl ⟨?_, hfallen.of_same haside.supervisor.servers haside.stage?⟩
      unfold Up at hup ⊢
      rwa [hstate] at hup
  | fades hidle hfaded =>
      have hopen := (hs.orderly.step hstep).open_of_up hup
      have hbefore : sys.supervisor.signals.stopped = false := by
        rw [hfaded.supervisor] at hopen
        exact (Signals.requestRestart_stopped _).symm.trans hopen
      right
      rw [hfaded.supervisor]
      simp only [Signals.requestRestart, hbefore]
      exact sys.supervisor.signals.held_notify.1

/-- While the plugin is up, a fallen server has raised the alarm. -/
def Watched (sys : Supervision) : Prop := Up sys.supervisor → sys.Fallen → sys.Alarmed

theorem Sound.watched_step (hs : sys.Sound) (h : sys.Watched) (hstep : sys.act? a = some sys') :
    sys'.Watched := by
  intro hup hfallen
  rcases hs.fallen_step hstep hup hfallen with ⟨hbefore, hfell⟩ | hheld
  · have hopen := (hs.orderly.step hstep).open_of_up hup
    have hstate : sys'.supervisor.state ≠ .stopping := by
      rcases hup with heq | heq <;> rw [heq] <;> decide
    exact (h hbefore hfell).step (hs.heeds hopen hstep) hstate
  · exact .inl hheld

/-- A restart is on its way: it is stored for the next look of a loop that is about to wait or that
begins to, it was handed to the loop in its wait, or the loop is about to begin the stop cycle. -/
inductive RestartDue (signals : Signals) : Loop → Prop
  | stored {loop : Loop} (stored : signals.stored = true) (waiter : signals.waiter = .absent)
      (loop_ : loop = .finished .start (.ok ()) ∨ loop = .waiting) : RestartDue signals loop
  | delivered (waiter : signals.waiter = .notified) : RestartDue signals .waiting
  | taken {access : Access} (access_ : access = .asking ∨ access = .queued) :
      RestartDue signals (.attempting .stop access)

/-- An alarm reaches the loop that has the plugin in its care. -/
theorem Alarmed.due (h : sys.Alarmed) (hheeded : sys.Heeded) {i : Nat} {loop : Loop}
    (hloop : sys.loops[i]? = some loop) (htends : loop.tends = true)
    (hothers : ∀ {k : Nat} {other : Loop}, sys.loops[k]? = some other → other.isOver = false →
      other = loop) : RestartDue sys.supervisor.signals loop := by
  have hdelivered : sys.supervisor.signals.waiter = .notified →
      RestartDue sys.supervisor.signals loop := by
    intro hnotified
    obtain ⟨k, hwaiting⟩ := hheeded.awaited (by rw [hnotified]; decide)
    rw [← hothers hwaiting rfl]
    exact .delivered hnotified
  rcases h with hheld | ⟨k, other, hother, hdue⟩
  · cases hwaiter : sys.supervisor.signals.waiter with
    | notified => exact hdelivered hwaiter
    | parked =>
        have hnothing := hheeded.sane hwaiter
        simp [Signals.held, hnothing, hwaiter] at hheld
    | absent =>
        have hstored : sys.supervisor.signals.stored = true := by
          cases hnothing : sys.supervisor.signals.stored with
          | true => rfl
          | false => simp [Signals.held, hnothing, hwaiter] at hheld
        unfold Loop.tends at htends
        split at htends
        · exact .stored hstored hwaiter (.inl rfl)
        · exact .stored hstored hwaiter (.inr rfl)
        · exact .taken (.inl rfl)
        · exact .taken (.inr rfl)
        · contradiction
  · have hlive : other.isOver = false := by cases other <;> first | rfl | simp [Loop.due] at hdue
    rw [← hothers hother hlive]
    unfold Loop.due at hdue
    split at hdue
    · exact .taken (.inl rfl)
    · exact .taken (.inr rfl)
    · contradiction

section Created

variable {plugin : Plugin} {starts stops : List CallOutcome} {dirs : List Path}
  {settings : Settings} {observer : Observer} {files : FileSystem} {s : Supervisor}
  {actions : List Action}

theorem watched_unstarted (h : s.Untouched) : (unstarted s).Watched := by
  intro hup
  rcases hup with hstate | hstate <;> simp [unstarted, h.state] at hstate

theorem heeded_unstarted (h : s.Untouched) : (unstarted s).Heeded := by
  constructor
  · rw [unstarted, h.signals]
    simp [Signals.Sane, Signals.quiet]
  · intro hpresent
    simp [unstarted, h.signals, Signals.quiet] at hpresent

/-- Along every run, as long as a plugin is served with the lock free and the serving task of one of
its servers has ended, the launched loop is at work and has a restart on its way. -/
theorem dead_server_has_restart_due
    (created : Supervisor.create plugin starts stops dirs settings observer files = .ok s)
    (hrun : (unstarted s).run? actions = some sys) (hfree : sys.lock = none)
    (hserving : sys.supervisor.state = .serving) {server : Server}
    (hserver : server ∈ sys.supervisor.servers) (hended : server.task = .ended) :
    ∃ i loop, sys.launched = some i ∧ sys.loops[i]? = some loop ∧ loop.isOver = false ∧
      RestartDue sys.supervisor.signals loop := by
  have huntouched := (Supervisor.create_eq created).1
  have hkept : sys.Sound ∧ sys.Watched ∧
      (sys.supervisor.signals.stopped = false → sys.Heeded) := by
    refine run?_keeps (P := fun now => now.Sound ∧ now.Watched ∧
      (now.supervisor.signals.stopped = false → now.Heeded)) ?_
      ⟨sound_unstarted huntouched, watched_unstarted huntouched,
        fun _ => heeded_unstarted huntouched⟩ hrun
    rintro now next a ⟨hsound, hwatched, hheeded⟩ hstep
    refine ⟨hsound.step hstep, hsound.watched_step hwatched hstep, fun hopen => ?_⟩
    exact (hheeded (hsound.orderly.open_before hstep hopen)).step (hsound.heeds hopen hstep)
  obtain ⟨hsound, hwatched, hheeded⟩ := hkept
  have hup : Up sys.supervisor := .inr hserving
  have hperm : sys.supervisor.state ≠ .permanentlyStopped := by rw [hserving]; decide
  have halarmed := hwatched hup (.inl ⟨server, hserver, hended⟩)
  obtain ⟨i, loop, hlaunched, hloop, htends⟩ := hsound.attended.tended hfree hserving
  refine ⟨i, loop, hlaunched, hloop, Loop.isOver_of_tends htends, ?_⟩
  refine halarmed.due (hheeded (hsound.orderly.open_of_up hup)) hloop htends ?_
  intro k other hother hlive
  have hsame := Option.some.inj
    (hlaunched.symm.trans (hsound.attended.alone hperm hother hlive))
  subst hsame
  exact Option.some.inj (hother.symm.trans hloop)

/-- A run in which the one server dies while the plugin is served. -/
def fallenRun : List Action :=
  [.start true, .call 0] ++ List.replicate 6 (.loop 0) ++ [.escalate 0]

theorem dead_server_has_restart_due_lone :
    ∃ (sys : Supervision) (server : Server) (i : Nat) (loop : Loop),
      (unstarted lone).run? fallenRun = some sys ∧ server ∈ sys.supervisor.servers ∧
      server.task = .ended ∧ sys.loops[i]? = some loop ∧
      RestartDue sys.supervisor.signals loop := by
  have hsys : ((unstarted lone).run? fallenRun).map
      (fun sys => (sys.lock, sys.supervisor.state, sys.supervisor.servers)) =
      some (none, .serving, [⟨0, ⟨"d/x.sock".toList⟩, .ended⟩]) := by
    decide +kernel
  obtain ⟨sys, hrun, hthree⟩ := Option.map_eq_some_iff.mp hsys
  obtain ⟨hfree, hboth⟩ := Prod.mk.inj hthree
  obtain ⟨hserving, hservers⟩ := Prod.mk.inj hboth
  have hserver : (⟨0, ⟨"d/x.sock".toList⟩, .ended⟩ : Server) ∈ sys.supervisor.servers := by
    rw [hservers]
    exact List.mem_singleton.mpr rfl
  obtain ⟨i, loop, -, hloop, -, hdue⟩ :=
    dead_server_has_restart_due create_lone hrun hfree hserving hserver rfl
  exact ⟨sys, _, i, loop, hrun, hserver, rfl, hloop, hdue⟩

end Created

end Supervision

end PluginKit
