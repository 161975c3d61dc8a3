import PluginKit.Proofs.Lifecycle.Alone
import PluginKit.Proofs.Lifecycle.Progress

/-!
# Cycles that are retried

A start cycle that fails is attempted again until the plugin has been started, and a stop cycle that
fails until it has been stopped. Since each failure uses up an entry of a script, this ends, and the
metrics have counted the failures then.
-/

namespace PluginKit

open Socket (Ready)
open Supervisor (Phase unstopped)

def startOutcomes (log : List (Section × Event)) : List CallOutcome :=
  log.filterMap fun call => call.2.start?

def stopOutcomes (log : List (Section × Event)) : List CallOutcome :=
  log.filterMap fun call => call.2.stop?

def callsIn (sec : Section) (log : List (Section × Event)) : List (Section × Event) :=
  log.filter fun call => call.1 = sec

def failures (outcomes : List CallOutcome) : Nat := outcomes.countP (· ≠ .ok)

/-- The outcomes were taken from the front of a script, of which `left` is left; all is well once
the script is used up. -/
def Follows (script outcomes left : List CallOutcome) : Prop :=
  ∃ n, outcomes ++ left = script ++ List.replicate n .ok

theorem Follows.next {script outcomes left : List CallOutcome}
    (h : Follows script outcomes left) :
    Follows script (outcomes ++ [left.headD .ok]) left.tail := by
  obtain ⟨n, h⟩ := h
  cases left with
  | nil =>
      refine ⟨n + 1, ?_⟩
      rw [List.append_nil] at h
      simp [h, List.replicate_succ']
  | cons outcome rest => exact ⟨n, by simpa using h⟩

namespace Supervision

variable {made : List Call} {s s' : Supervisor} {loop loop' : Loop} {base : FileSystem}
  {spots : List (Path × Location)} {new log : List (Section × Event)}
  {startScript stopScript : List CallOutcome} {r : Nat}

/-! ## Each failure uses up an entry of a script -/

/-- How far a loop is from its wait if all goes well, with `n` sockets to bind. -/
def distance (n : Nat) (s : Supervisor) : Loop → Nat
  | .attempting .start (.holding (.binding left)) => 3 + 2 * left.length
  | .attempting .start (.holding (.dialing _ left)) => 4 + 2 * left.length
  | .attempting .start _ => 2 * n + 4
  | .attempting .stop (.holding _) => 2 * n + 6 + unstopped s.servers
  | .attempting .stop _ => 2 * n + 7 + unstopped s.servers
  | .finished .start (.ok ()) => 2
  | .finished .start (.error _) => 2 * n + 6
  | .finished .stop (.ok ()) => 2 * n + 5
  | .finished .stop (.error _) => 2 * n + 9 + unstopped s.servers
  | .sleeping .start => 2 * n + 5
  | .sleeping .stop => 2 * n + 8 + unstopped s.servers
  | .waiting =>
      match s.signals.waiter with
      | .absent => 1
      | .parked => 0
      | .notified => 2 * n + 8 + unstopped s.servers
  | _ => 0

/-- A bound for the steps of a loop until its wait, given that each failure costs an entry of a
script. -/
def rank (n : Nat) (s : Supervisor) (loop : Loop) : Nat :=
  (s.startScript.length + s.stopScript.length) * (2 * n + 10) + distance n s loop

/-- A step that uses up no entry brings the loop nearer to its wait. -/
theorem rank_lt_of_nearer {n : Nat} (hstarts : s'.startScript.length ≤ s.startScript.length)
    (hstops : s'.stopScript.length ≤ s.stopScript.length)
    (h : distance n s' loop' < distance n s loop) : rank n s' loop' < rank n s loop := by
  have hscripts : (s'.startScript.length + s'.stopScript.length) * (2 * n + 10) ≤
      (s.startScript.length + s.stopScript.length) * (2 * n + 10) :=
    Nat.mul_le_mul_right _ (by omega)
  unfold rank
  omega

/-- A step that uses up an entry may leave the loop as far from its wait as it can be. -/
theorem rank_lt_of_used {n : Nat}
    (hused : s'.startScript.length + s'.stopScript.length + 1 ≤
      s.startScript.length + s.stopScript.length)
    (h : distance n s' loop' < 2 * n + 10) : rank n s' loop' < rank n s loop := by
  have hscripts : (s'.startScript.length + s'.stopScript.length + 1) * (2 * n + 10) ≤
      (s.startScript.length + s.stopScript.length) * (2 * n + 10) :=
    Nat.mul_le_mul_right _ hused
  rw [Nat.add_mul, Nat.one_mul] at hscripts
  unfold rank
  omega

theorem length_tail_of_headD {script : List CallOutcome} (h : script.headD .ok ≠ .ok) :
    script.tail.length + 1 = script.length := by
  cases script with
  | nil => contradiction
  | cons outcome rest => rfl

theorem Advance.rank_lt (h : Advance s loop new s' loop') (hphase : Phase base spots s' loop') :
    rank spots.length s' loop' < rank spots.length s loop := by
  cases h with
  | fails fails =>
      have hused := length_tail_of_headD fails
      refine rank_lt_of_used ?_ (by simp [distance])
      simp only [Supervisor.reset_startScript, Supervisor.reset_stopScript, List.length_tail] at hused ⊢
      omega
  | starts starts =>
      have hplaced : Supervisor.Placed base spots _ [] _ := hphase.stands
      have hsockets := congrArg List.length hplaced.sockets
      refine rank_lt_of_nearer ?_ ?_ ?_
      · simp
      · simp
      · simp only [List.length_map, distance] at hsockets ⊢
        omega
  | stays fails =>
      have hused := length_tail_of_headD fails
      refine rank_lt_of_used ?_ (by simp [distance, Supervisor.callStop_fst])
      simp only [Supervisor.callStop_fst] at hused ⊢
      omega
  | clears works =>
      refine rank_lt_of_nearer ?_ ?_ ?_
      · simp [Supervisor.callStop_fst]
      · simp [Supervisor.callStop_fst]
      · simp [distance]
        omega
  | drains more =>
      have hless := Supervisor.unstopped_stopFirst more
      refine rank_lt_of_nearer (Nat.le_refl _) (Nat.le_refl _) ?_
      simp only [distance]
      omega
  | parks absent parked =>
      refine rank_lt_of_nearer (Nat.le_refl _) (Nat.le_refl _) ?_
      simp [distance, absent, parked]
  | restarts notified =>
      refine rank_lt_of_nearer (Nat.le_refl _) (Nat.le_refl _) ?_
      simp [distance, notified]
  | @tells kind r =>
      rw [Supervisor.tell_fst]
      refine rank_lt_of_nearer (Nat.le_refl _) (Nat.le_refl _) ?_
      cases kind <;> simp [distance]
  | @wakes kind =>
      refine rank_lt_of_nearer (Nat.le_refl _) (Nat.le_refl _) ?_
      cases kind <;> simp [distance]
  | settles absent =>
      refine rank_lt_of_nearer (Nat.le_refl _) (Nat.le_refl _) ?_
      simp [distance, absent]
  | _ =>
      refine rank_lt_of_nearer (Nat.le_refl _) (Nat.le_refl _) ?_
      simp only [distance, List.length_cons, List.length_nil]
      omega

/-! ## What has been called and counted -/

/-- How many starts are still to succeed. -/
def owed (s : Supervisor) : Loop → Nat
  | .attempting .start (.holding _) => 0
  | .finished .start (.ok ()) => 0
  | .waiting => if s.signals.waiter = .notified then 1 else 0
  | _ => 1

/-- How many failed cycles of a kind are still to be told. -/
def untold (kind : CycleKind) : Loop → Nat
  | .finished failed (.error _) => if failed = kind then 1 else 0
  | _ => 0

/-- The outcomes of what the cycles of a kind are for. -/
def aims (log : List (Section × Event)) : CycleKind → List CallOutcome
  | .start => startOutcomes log
  | .stop => stopOutcomes (callsIn (.cycle .stop) log)

theorem startOutcomes_append (log new : List (Section × Event)) :
    startOutcomes (log ++ new) = startOutcomes log ++ startOutcomes new :=
  List.filterMap_append

theorem stopOutcomes_append (log new : List (Section × Event)) :
    stopOutcomes (log ++ new) = stopOutcomes log ++ stopOutcomes new :=
  List.filterMap_append

theorem aims_nil (kind : CycleKind) : aims [] kind = [] := by
  cases kind <;> rfl

theorem aims_of_start (stopped started : CallOutcome) (kind : CycleKind) :
    aims [(.cycle .start, .stop stopped), (.cycle .start, .start started)] kind =
      if kind = .start then [started] else [] := by
  cases kind <;> rfl

theorem aims_of_stop (stopped : CallOutcome) (kind : CycleKind) :
    aims [(.cycle .stop, .stop stopped)] kind = if kind = .stop then [stopped] else [] := by
  cases kind <;> rfl

theorem aims_append (log new : List (Section × Event)) (kind : CycleKind) :
    aims (log ++ new) kind = aims log kind ++ aims new kind := by
  cases kind with
  | start => exact startOutcomes_append log new
  | stop => simp [aims, callsIn, stopOutcomes]

/-- What has been called and counted after `r` restarts, `log` being the calls of the plugin. -/
structure Tally (startScript stopScript : List CallOutcome) (r : Nat)
    (log : List (Section × Event)) (s : Supervisor) (loop : Loop) : Prop where
  logged : log.map Prod.snd = s.calls.reverse
  started : (startOutcomes log).count .ok + owed s loop = r + 1
  told : s.observer.listens = true → ∀ kind : CycleKind,
    s.history.count (.metric kind.failure) + untold kind loop = failures (aims log kind)
  starts : Follows startScript (startOutcomes log) s.startScript
  stops : Follows stopScript (stopOutcomes log) s.stopScript

theorem Advance.owed (h : Advance s loop new s' loop') :
    (startOutcomes new).count .ok + owed s' loop' = owed s loop := by
  cases h with
  | fails fails => simp [Supervision.owed, startOutcomes, Event.start?, fails]
  | starts starts => simp [Supervision.owed, startOutcomes, Event.start?, starts]
  | parks absent parked => simp [Supervision.owed, startOutcomes, absent, parked]
  | restarts notified => simp [Supervision.owed, startOutcomes, notified]
  | settles absent => simp [Supervision.owed, startOutcomes, absent]
  | @tells kind r => cases kind <;> simp [Supervision.owed, startOutcomes]
  | @wakes kind => cases kind <;> simp [Supervision.owed, startOutcomes]
  | _ => simp [Supervision.owed, startOutcomes, Event.start?]

theorem Advance.told (h : Advance s loop new s' loop') (hlistens : s.observer.listens = true)
    (kind : CycleKind) :
    s'.history.count (.metric kind.failure) + untold kind loop' =
      s.history.count (.metric kind.failure) + untold kind loop + failures (aims new kind) := by
  cases h with
  | fails fails => cases kind <;> simp [untold, aims_of_start, failures, fails]
  | starts starts => cases kind <;> simp [untold, aims_of_start, failures, starts]
  | stays fails =>
      cases kind <;> simp [untold, aims_of_stop, failures, fails, Supervisor.callStop_fst]
  | clears works =>
      cases kind <;> simp [untold, aims_of_stop, failures, works, Supervisor.callStop_fst]
  | @tells failed r =>
      rw [Supervisor.tell_fst, if_pos hlistens]
      cases kind <;> cases failed <;> simp [untold, aims_nil, failures, CycleKind.failure]
  | _ => cases kind <;> simp [untold, aims_nil, failures]

theorem Advance.observer (h : Advance s loop new s' loop') : s'.observer = s.observer := by
  cases h with
  | tells => rw [Supervisor.tell_fst]
  | _ => rfl

/-- The scripts lose the outcomes that the calls have taken from them. -/
theorem Advance.scripts (h : Advance s loop new s' loop') :
    (startOutcomes new = [] ∧ s'.startScript = s.startScript ∨
      startOutcomes new = [s.startScript.headD .ok] ∧ s'.startScript = s.startScript.tail) ∧
    (stopOutcomes new = [] ∧ s'.stopScript = s.stopScript ∨
      stopOutcomes new = [s.stopScript.headD .ok] ∧ s'.stopScript = s.stopScript.tail) := by
  cases h with
  | fails fails => exact ⟨.inr ⟨rfl, rfl⟩, .inr ⟨rfl, rfl⟩⟩
  | starts starts => exact ⟨.inr ⟨rfl, rfl⟩, .inr ⟨rfl, rfl⟩⟩
  | stays fails => exact ⟨.inl ⟨rfl, rfl⟩, .inr ⟨rfl, rfl⟩⟩
  | clears works => exact ⟨.inl ⟨rfl, rfl⟩, .inr ⟨rfl, rfl⟩⟩
  | tells => rw [Supervisor.tell_fst]; exact ⟨.inl ⟨rfl, rfl⟩, .inl ⟨rfl, rfl⟩⟩
  | _ => exact ⟨.inl ⟨rfl, rfl⟩, .inl ⟨rfl, rfl⟩⟩

theorem Follows.step {script outcomes new left left' : List CallOutcome}
    (h : Follows script outcomes left)
    (hnew : new = [] ∧ left' = left ∨ new = [left.headD .ok] ∧ left' = left.tail) :
    Follows script (outcomes ++ new) left' := by
  rcases hnew with ⟨rfl, rfl⟩ | ⟨rfl, rfl⟩
  · rwa [List.append_nil]
  · exact h.next

theorem Advance.tally (hadvance : Advance s loop new s' loop')
    (h : Tally startScript stopScript r log s loop) :
    Tally startScript stopScript r (log ++ new) s' loop' := by
  obtain ⟨hstarts, hstops⟩ := hadvance.scripts
  refine ⟨?_, ?_, fun hlistens kind => ?_, ?_, ?_⟩
  · rw [hadvance.calls, List.map_append, h.logged, List.reverse_append, List.reverse_reverse]
  · have howed := hadvance.owed
    have hstarted := h.started
    rw [startOutcomes_append, List.count_append]
    omega
  · rw [hadvance.observer] at hlistens
    have hnow := hadvance.told hlistens kind
    have hbefore := h.told hlistens kind
    rw [aims_append, failures, List.countP_append]
    rw [failures] at hnow hbefore
    omega
  · rw [startOutcomes_append]
    exact Follows.step h.starts hstarts
  · rw [stopOutcomes_append]
    exact Follows.step h.stops hstops

/-! ## Between a restart and the stop that it asks for -/

/-- Whether a loop is about to stop the plugin for a restart. -/
def clearing (s : Supervisor) : Loop → Bool
  | .attempting .stop _ => true
  | .finished .stop (.error _) => true
  | .sleeping .stop => true
  | .waiting => s.signals.waiter = .notified
  | _ => false

theorem Advance.clearing (h : Advance s loop new s' loop') (hclearing : clearing s loop = true) :
    (.cycle .stop, .stop .ok) ∈ new ∨
      clearing s' loop' = true ∧ startOutcomes new = [] ∧ s'.nextServer = s.nextServer := by
  cases h with
  | clears works => exact .inl (by simp [works])
  | parks absent parked => simp [Supervision.clearing, absent] at hclearing
  | @tells kind r =>
      rw [Supervisor.tell_fst]
      cases kind <;> simp_all [Supervision.clearing, startOutcomes]
  | @wakes kind => cases kind <;> simp_all [Supervision.clearing, startOutcomes]
  | enters => exact .inr ⟨rfl, rfl, rfl⟩
  | drains more => exact .inr ⟨rfl, rfl, rfl⟩
  | stays fails => exact .inr ⟨rfl, rfl, rfl⟩
  | restarts notified => exact .inr ⟨rfl, rfl, rfl⟩
  | _ => simp [Supervision.clearing] at hclearing

/-- The plugin has been stopped for the restart, or the loop is still about to stop it, and nothing
was started and nothing bound since `bound` servers were. -/
def Held (bound : Nat) (log : List (Section × Event)) (s : Supervisor) (loop : Loop) : Prop :=
  (.cycle .stop, .stop .ok) ∈ log ∨
    clearing s loop = true ∧ startOutcomes log = [] ∧ s.nextServer = bound

theorem Advance.held {bound : Nat} (hadvance : Advance s loop new s' loop')
    (h : Held bound log s loop) : Held bound (log ++ new) s' loop' := by
  rcases h with hcleared | ⟨hclearing, hunstarted, hunbound⟩
  · exact .inl (List.mem_append_left _ hcleared)
  · rcases hadvance.clearing hclearing with hcleared | ⟨hclearing', hnone, hsame⟩
    · exact .inl (List.mem_append_right _ hcleared)
    · refine .inr ⟨hclearing', ?_, hsame.trans hunbound⟩
      rw [startOutcomes_append, hunstarted, hnone, List.append_nil]

/-! ## Runs of the loop -/

/-- The first loop takes steps; `log` lists the calls of the plugin that are made meanwhile. -/
inductive Proceeds : Supervision → List (Section × Event) → Supervision → Prop
  | refl (sys : Supervision) : Proceeds sys [] sys
  | step {sys mid sys' : Supervision} {log : List (Section × Event)}
      (next : sys.proceed? = some mid) (rest : Proceeds mid log sys') :
      Proceeds sys (sys.called mid ++ log) sys'

/-- The supervisor was started, and restarted `r` times while its loop was parked; apart from that
nobody but the loop has acted. -/
inductive Driven (s : Supervisor) : Nat → List (Section × Event) → Supervision → Prop
  | started {first sys : Supervision} {log : List (Section × Event)}
      (asked : (unstarted s).run? [.start true, .call 0] = some first)
      (proceeds : Proceeds first log sys) : Driven s 0 log sys
  | restarted {r : Nat} {parked first sys : Supervision} {before log : List (Section × Event)}
      (driven : Driven s r before parked) (waits : parked.Parked)
      (asked : parked.run? [.restart, .call (r + 1)] = some first)
      (proceeds : Proceeds first log sys) : Driven s (r + 1) (before ++ log) sys

/-- What every step of a loop by itself keeps, all its steps keep. -/
theorem Proceeds.keeps {P : List (Section × Event) → Supervisor → Loop → Prop}
    (step : ∀ {before new : List (Section × Event)} {s s' : Supervisor} {loop loop' : Loop},
      P before s loop → Advance s loop new s' loop' → P (before ++ new) s' loop')
    (hready : Ready base spots) {sys : Supervision} (h : Proceeds (alone made s loop) log sys)
    (hphase : Phase base spots s loop) {before : List (Section × Event)}
    (hP : P before s loop) :
    ∃ s' loop', sys = alone made s' loop' ∧ Phase base spots s' loop' ∧
      P (before ++ log) s' loop' := by
  generalize hfrom : alone made s loop = start at h
  induction h generalizing s loop before with
  | refl start => exact ⟨s, loop, hfrom.symm, hphase, by rwa [List.append_nil]⟩
  | @step start mid last log next rest ih =>
      subst hfrom
      rcases next_of_phase hphase hready with ⟨rfl, hparked⟩ | hgoes
      · -- a loop that is parked has no step to take
        rw [proceed?_parked hphase hparked] at next
        contradiction
      · obtain ⟨new, s', loop', hstep, hadvance, hphase'⟩ := hgoes made
        cases hstep.symm.trans next
        rw [hadvance.called, ← List.append_assoc]
        exact ih hphase' (step hP hadvance) rfl

theorem parked_alone (h : Phase base spots s loop) :
    (alone made s loop).Parked ↔ loop = .waiting ∧ s.signals.waiter = .parked := by
  constructor
  · rintro ⟨⟨waits, hmem, hwaits⟩, hparked, -⟩
    obtain rfl := List.mem_singleton.mp hmem
    cases waits <;> first | exact ⟨rfl, hparked⟩ | contradiction
  · rintro ⟨rfl, hparked⟩
    exact ⟨⟨.waiting, List.mem_singleton.mpr rfl, rfl⟩, hparked, h.stored⟩

theorem reaches_parked (hready : Ready base spots) {s : Supervisor} {loop : Loop}
    (h : Phase base spots s loop) :
    ∃ log sys, Proceeds (alone made s loop) log sys ∧ sys.Parked := by
  rcases next_of_phase h hready with hparked | hgoes
  · exact ⟨[], _, .refl _, (parked_alone h).mpr hparked⟩
  · obtain ⟨new, s', loop', hstep, hadvance, hphase⟩ := hgoes made
    have hless := hadvance.rank_lt hphase
    obtain ⟨log, sys, hproceeds, hparked⟩ := reaches_parked hready hphase
    exact ⟨_, sys, .step hstep hproceeds, hparked⟩
termination_by rank spots.length s loop

/-! ## From the start on -/

theorem run?_start (h : s.signals.stopped = false) :
    (unstarted s).run? [.start true, .call 0] =
      some (alone [.finished (.ok ())] s (.attempting .start .asking)) := by
  simp [run?, act?, unstarted, start, h, addCall, callStep?, launch, isRunning, setCall, alone,
    Loop.holds]

theorem run?_restart (h : s.signals.stopped = false) :
    (alone made s .waiting).run? [.restart, .call made.length] =
      some (alone (made ++ [.finished (.ok ())]) { s with signals := s.signals.notify }
        .waiting) := by
  simp [run?, act?, alone, restart, h, addCall, callStep?, setCall, Loop.holds]

theorem phase_started (huntouched : s.Untouched)
    (calm : ∀ kind : CycleKind, s.observer.panics kind.failure = false)
    (hspots : spots.map Prod.fst = s.prepared.sockets) (fits : s.Fits) :
    Phase s.prepared.files spots s (.attempting .start .asking) := by
  have hprepared : s.prepared = ⟨s.prepared.files, spots.map Prod.fst, .ok ()⟩ := by
    rw [hspots, ← fits.prepares]
  refine ⟨⟨?_, fits.some, huntouched.servers, hprepared⟩, ?_, ?_, fun _ => ?_, calm,
    huntouched.transport⟩
  · simp [huntouched.state]
  · rw [huntouched.signals]
    rfl
  · rw [huntouched.signals]
    rfl
  · rw [huntouched.signals]
    rfl

theorem tally_started (huntouched : s.Untouched) :
    Tally s.startScript s.stopScript 0 [] s (.attempting .start .asking) := by
  have hhistory := huntouched.history
  refine ⟨?_, rfl, fun _ kind => ?_, ⟨0, ?_⟩, ⟨0, ?_⟩⟩
  · simp [Supervisor.calls, hhistory]
  · cases kind <;> rw [hhistory] <;> rfl
  · simp [startOutcomes]
  · simp [stopOutcomes]

def notified (s : Supervisor) : Supervisor := { s with signals := s.signals.notify }

theorem phase_notified (h : Phase base spots s .waiting) (hparked : s.signals.waiter = .parked) :
    Phase base spots (notified s) .waiting ∧ (notified s).signals.waiter = .notified := by
  obtain ⟨hserving, hleaving⟩ := h.stands
  have hnotified : s.signals.notify = ⟨false, false, .notified⟩ := by
    rw [h.signals, hparked]
    rfl
  have hsignals : (notified s).signals = ⟨false, false, .notified⟩ := hnotified
  refine ⟨⟨⟨hserving, hleaving.of_same hleaving.state rfl rfl⟩, ?_, ?_, nofun, h.calm,
    h.transport⟩, ?_⟩
  · rw [hsignals]
  · rw [hsignals]
  · rw [hsignals]

theorem tally_notified (h : Tally startScript stopScript r log s .waiting)
    (hparked : s.signals.waiter = .parked) (hnotified : (notified s).signals.waiter = .notified) :
    Tally startScript stopScript (r + 1) log (notified s) .waiting := by
  refine ⟨h.logged, ?_, h.told, h.starts, h.stops⟩
  have hstarted := h.started
  simp only [owed, hparked, hnotified] at hstarted ⊢
  simp at hstarted ⊢
  omega

/-- What is kept of a loop by itself, along with the calls made to its supervision. -/
structure OnCourse (base : FileSystem) (spots : List (Path × Location))
    (startScript stopScript : List CallOutcome) (r : Nat) (log : List (Section × Event))
    (made : List Call) (s : Supervisor) (loop : Loop) : Prop where
  calls : made.length = r + 1
  phase : Phase base spots s loop
  tally : Tally startScript stopScript r log s loop

theorem Driven.onCourse (hready : Ready base spots)
    (hphase : Phase base spots s (.attempting .start .asking))
    (htally : Tally s.startScript s.stopScript 0 [] s (.attempting .start .asking))
    {sys : Supervision} (h : Driven s r log sys) :
    ∃ made now loop, sys = alone made now loop ∧
      OnCourse base spots s.startScript s.stopScript r log made now loop := by
  induction h with
  | started asked proceeds =>
      rw [run?_start hphase.stopped] at asked
      cases asked
      obtain ⟨now, loop, rfl, hnow, hcount⟩ :=
        proceeds.keeps (P := Tally s.startScript s.stopScript 0)
          (fun h hadvance => hadvance.tally h) hready hphase htally
      exact ⟨_, now, loop, rfl, rfl, hnow, hcount⟩
  | @restarted r parked first sys before log driven waits asked proceeds ih =>
      obtain ⟨made, waiting, loop, rfl, hcalls, hwaiting, hcount⟩ := ih
      obtain ⟨rfl, hparked⟩ := (parked_alone hwaiting).mp waits
      rw [← hcalls, run?_restart hwaiting.stopped] at asked
      cases asked
      obtain ⟨hphase', hnotified⟩ := phase_notified hwaiting hparked
      obtain ⟨now, loop, rfl, hnow, hcount'⟩ :=
        proceeds.keeps (P := Tally s.startScript s.stopScript (r + 1))
          (fun h hadvance => hadvance.tally h) hready hphase'
          (tally_notified hcount hparked hnotified)
      exact ⟨_, now, loop, rfl, by simp [hcalls], hnow, hcount'⟩

/-- What has come of the scripts once the loop waits after `r` restarts, `log` being the calls of
the plugin: it serves, for each time it was to be started it was, each failed start and each failed
stop of a stop cycle was counted, and the scripts were followed. -/
structure Settled (startScript stopScript : List CallOutcome) (r : Nat)
    (log : List (Section × Event)) (sys : Supervision) : Prop where
  state : sys.supervisor.state = .serving
  logged : log.map Prod.snd = sys.supervisor.calls.reverse
  started : (startOutcomes log).count .ok = r + 1
  startFailures : sys.supervisor.observer.listens = true →
    sys.supervisor.history.count (.metric .startFailed) = failures (startOutcomes log)
  stopFailures : sys.supervisor.observer.listens = true →
    sys.supervisor.history.count (.metric .stopFailed) =
      failures (stopOutcomes (callsIn (.cycle .stop) log))
  starts : Follows startScript (startOutcomes log) sys.supervisor.startScript
  stops : Follows stopScript (stopOutcomes log) sys.supervisor.stopScript

theorem OnCourse.settled (h : OnCourse base spots startScript stopScript r log made s loop)
    (hparked : (alone made s loop).Parked) :
    Settled startScript stopScript r log (alone made s loop) := by
  obtain ⟨rfl, hwaiter⟩ := (parked_alone h.phase).mp hparked
  refine ⟨h.phase.stands.1, h.tally.logged, ?_, fun hlistens => ?_, fun hlistens => ?_,
    h.tally.starts, h.tally.stops⟩
  · have hstarted := h.tally.started
    simpa [owed, hwaiter] using hstarted
  · exact h.tally.told hlistens .start
  · exact h.tally.told hlistens .stop

theorem OnCourse.reaches (hready : Ready base spots)
    (h : OnCourse base spots startScript stopScript r log made s loop) :
    ∃ more sys, Proceeds (alone made s loop) more sys ∧ sys.Parked ∧
      Settled startScript stopScript r (log ++ more) sys := by
  obtain ⟨more, sys, hproceeds, hparked⟩ :
      ∃ more sys, Proceeds (alone made s loop) more sys ∧ sys.Parked :=
    reaches_parked hready h.phase
  obtain ⟨now, loop', rfl, hphase, htally⟩ :=
    hproceeds.keeps (P := Tally startScript stopScript r) (fun h hadvance => hadvance.tally h)
      hready h.phase h.tally
  have hnow : OnCourse base spots startScript stopScript r (log ++ more) made now loop' :=
    ⟨h.calls, hphase, htally⟩
  exact ⟨more, _, hproceeds, hparked, hnow.settled hparked⟩

/-- Until the stop that a restart asks for has worked, nothing is started and nothing is bound. -/
theorem OnCourse.holds_back (hready : Ready base spots)
    (h : OnCourse base spots startScript stopScript r log made s .waiting)
    (hparked : s.signals.waiter = .parked) {first sys : Supervision}
    (hasked : (alone made s .waiting).run? [.restart, .call (r + 1)] = some first)
    (hproceeds : Proceeds first new sys) :
    (.cycle .stop, .stop .ok) ∈ new ∨
      startOutcomes new = [] ∧ sys.supervisor.nextServer = s.nextServer := by
  rw [← h.calls, run?_restart h.phase.stopped] at hasked
  cases hasked
  obtain ⟨hphase, hnotified⟩ := phase_notified h.phase hparked
  have hbegins : Held s.nextServer [] (notified s) .waiting :=
    .inr ⟨by simp [clearing, hnotified], rfl, rfl⟩
  obtain ⟨now, loop, rfl, -, hheld⟩ :=
    hproceeds.keeps (P := Held s.nextServer) (fun h hadvance => hadvance.held h) hready hphase
      hbegins
  rcases hheld with hcleared | ⟨-, hunstarted, hunbound⟩
  · exact .inl hcleared
  · exact .inr ⟨hunstarted, hunbound⟩

/-- However often the supervisor is to be restarted, its loop comes to wait for each restart. -/
theorem exists_driven (hready : Ready base spots)
    (hphase : Phase base spots s (.attempting .start .asking))
    (htally : Tally s.startScript s.stopScript 0 [] s (.attempting .start .asking)) (r : Nat) :
    ∃ log sys, Driven s r log sys ∧ sys.Parked := by
  induction r with
  | zero =>
      obtain ⟨log, sys, hproceeds, hparked⟩ := reaches_parked hready hphase
      exact ⟨log, sys, .started (run?_start hphase.stopped) hproceeds, hparked⟩
  | succ r ih =>
      obtain ⟨before, sys, hdriven, hwaits⟩ := ih
      obtain ⟨made, now, loop, rfl, hcourse⟩ := hdriven.onCourse hready hphase htally
      obtain ⟨rfl, hwaiter⟩ := (parked_alone hcourse.phase).mp hwaits
      have hasked : (alone made now .waiting).run? [.restart, .call made.length] = _ :=
        run?_restart hcourse.phase.stopped
      rw [hcourse.calls] at hasked
      obtain ⟨hnotified, -⟩ := phase_notified hcourse.phase hwaiter
      obtain ⟨log, sys, hproceeds, hparked⟩ := reaches_parked hready hnotified
      exact ⟨before ++ log, sys, .restarted hdriven hwaits hasked hproceeds, hparked⟩

section Created

variable {plugin : Plugin} {starts stops : List CallOutcome} {dirs : List Path}
  {settings : Settings} {observer : Observer} {files : FileSystem}

/-- A supervisor that can bind its sockets, and is left to itself but for a start and any number of
restarts while it waits, comes to serve after each of them, whatever outcomes the calls of the
plugin are scripted to have. -/
theorem retries_until_served
    (created : Supervisor.create plugin starts stops dirs settings observer files = .ok s)
    (calm : ∀ kind : CycleKind, observer.panics kind.failure = false) (fits : s.Fits) :
    (∀ r, ∃ log sys, Driven s r log sys ∧ sys.Parked) ∧
      ∀ {r : Nat} {log : List (Section × Event)} {sys : Supervision}, Driven s r log sys →
        (∃ more parked, Proceeds sys more parked ∧ parked.Parked ∧
          Settled starts stops r (log ++ more) parked) ∧
        (sys.Parked → Settled starts stops r log sys ∧
          ∀ {first mid : Supervision} {new : List (Section × Event)},
            sys.run? [.restart, .call (r + 1)] = some first → Proceeds first new mid →
              (.cycle .stop, .stop .ok) ∈ new ∨
                startOutcomes new = [] ∧
                  mid.supervisor.nextServer = sys.supervisor.nextServer) := by
  have huntouched := (Supervisor.create_eq created).1
  obtain ⟨hstarts, hstops, hobserver⟩ := Supervisor.create_given created
  obtain ⟨spots, hspots, hready⟩ := Socket.ready_of_prepare fits.some fits.prepares fits.binds
  have hphase := phase_started huntouched (hobserver ▸ calm) hspots fits
  have htally := tally_started huntouched
  subst hstarts hstops
  refine ⟨fun r => ?_, fun hdriven => ?_⟩
  · exact exists_driven hready hphase htally r
  · obtain ⟨made, now, loop, rfl, hcourse⟩ := hdriven.onCourse hready hphase htally
    refine ⟨hcourse.reaches hready, fun hparked => ⟨hcourse.settled hparked, ?_⟩⟩
    obtain ⟨rfl, hwaiter⟩ := (parked_alone hcourse.phase).mp hparked
    exact hcourse.holds_back hready hwaiter

/-- A supervisor whose plugin fails and panics several times. -/
def troubled : Supervisor :=
  { lone with
    startScript := [.failed "not yet", .ok, .panicked .other]
    stopScript := [.ok, .failed "busy", .panicked .other, .failed "busy"] }

/-- A troubled plugin serves in the end, after a start and after each restart. -/
theorem retries_until_served_troubled :
    Supervisor.create (.dummy .reporter (some "x") none) troubled.startScript
        troubled.stopScript [⟨['d']⟩] {} {} .fresh = .ok troubled ∧
      (∀ kind : CycleKind, troubled.observer.panics kind.failure = false) ∧ troubled.Fits ∧
      ∀ r, ∃ log sys, Driven troubled r log sys ∧
        Settled troubled.startScript troubled.stopScript r log sys := by
  have hcreated : Supervisor.create (.dummy .reporter (some "x") none) troubled.startScript
      troubled.stopScript [⟨['d']⟩] {} {} .fresh = .ok troubled := rfl
  have hcalm : ∀ kind : CycleKind, troubled.observer.panics kind.failure = false := by
    intro kind
    cases kind <;> rfl
  have hdialed : ((troubled.prepared.files.bindSocket ⟨"d/x.sock".toList⟩ (some 0)).bind
      fun fs => fs.connect ⟨"d/x.sock".toList⟩).toOption = some 0 := by decide +kernel
  have hfits : troubled.Fits := ⟨by decide, rfl, Socket.bindable_singleton hdialed⟩
  obtain ⟨hparks, hsettles⟩ := retries_until_served hcreated hcalm hfits
  refine ⟨hcreated, hcalm, hfits, fun r => ?_⟩
  obtain ⟨log, sys, hdriven, hparked⟩ := hparks r
  exact ⟨log, sys, hdriven, ((hsettles hdriven).2 hparked).1⟩

end Created

end Supervision

end PluginKit
