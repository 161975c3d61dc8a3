import PluginKit.Lifecycle.Signals

/-!
# Requests in any order

Restart requests are merged, handed to the wait in progress and handed back by it, and a stop
overrides them all. In whatever order these things happen, a look at a wait answers with a restart
only as often as restarts were requested, and the first look after a request does.
-/

namespace PluginKit

namespace Signals

/-! ## Single operations -/

@[simp] theorem poll_stopped (s : Signals) : s.poll.1.stopped = s.stopped := by
  unfold poll
  split
  · exact s.abandon_stopped
  · rcases s with ⟨stopped, _ | _, _ | _ | _⟩ <;> rfl

theorem poll_eq_stop_iff (s : Signals) : s.poll.2 = some .stop ↔ s.stopped = true := by
  rcases s with ⟨_ | _, _ | _, _ | _ | _⟩ <;> simp [poll]

theorem requestRestart_stopped (s : Signals) : s.requestRestart.1.stopped = s.stopped := by
  unfold requestRestart
  split
  · rfl
  · exact s.notify_stopped

theorem requestRestart_accepts (s : Signals) : s.requestRestart.2 = !s.stopped := by
  unfold requestRestart
  split <;> simp_all

/-- How many restarts are pending: the stored one, and the one handed to the wait in progress. -/
def held (s : Signals) : Nat :=
  (if s.stored then 1 else 0) + (if s.waiter = .notified then 1 else 0)

theorem held_notify (s : Signals) : 0 < s.notify.held ∧ s.notify.held ≤ s.held + 1 := by
  rcases s with ⟨_, _ | _, _ | _ | _⟩ <;> decide +revert

theorem held_of_poll_restart {s : Signals} (h : s.poll.2 = some .restart) :
    s.poll.1.held + 1 = s.held := by
  rcases s with ⟨_ | _, _ | _, _ | _ | _⟩ <;> first | rfl | (revert h; decide)

theorem held_of_poll_none {s : Signals} (h : s.poll.2 = none) : s.poll.1.held = s.held := by
  rcases s with ⟨_ | _, _ | _, _ | _ | _⟩ <;> first | rfl | (revert h; decide)

/-- A wait that is given up may hand back a restart that merges with the stored one. -/
theorem held_abandon_le (s : Signals) : s.abandon.held ≤ s.held := by
  rcases s with ⟨_, _ | _, _ | _ | _⟩ <;> decide +revert

theorem held_abandon_pos {s : Signals} (h : 0 < s.held) : 0 < s.abandon.held := by
  rcases s with ⟨_, _ | _, _ | _ | _⟩ <;> simp_all [held, abandon]

theorem held_abandon_of_ne {s : Signals} (h : s.waiter ≠ .notified) : s.abandon.held = s.held := by
  rcases s with ⟨_, _ | _, _ | _ | _⟩ <;> simp_all [held, abandon]

theorem abandon_waiter (s : Signals) : s.abandon.waiter = .absent := by
  unfold abandon
  split <;> rfl

/-- Nothing is stored while a wait has nothing to hand over. -/
def Sane (s : Signals) : Prop := s.waiter = .parked → s.stored = false

theorem Sane.notify {s : Signals} (h : s.Sane) : s.notify.Sane := by
  rcases s with ⟨_, _ | _, _ | _ | _⟩ <;> simp_all [Sane, Signals.notify]

theorem Sane.poll {s : Signals} (h : s.Sane) : s.poll.1.Sane := by
  rcases s with ⟨_ | _, _ | _, _ | _ | _⟩ <;> simp_all [Sane, Signals.poll, abandon]

theorem sane_of_no_wait {s : Signals} (h : s.waiter = .absent) : s.Sane := by
  intro hparked
  rw [h] at hparked
  contradiction

theorem notify_waiter {s : Signals} (h : s.notify.waiter ≠ .absent) : s.waiter ≠ .absent := by
  rcases s with ⟨_, _, _ | _ | _⟩ <;> simp_all [notify]

theorem poll_waiter {s : Signals} (h : s.poll.2 = some .restart) : s.poll.1.waiter = .absent := by
  rcases s with ⟨_ | _, _ | _, _ | _ | _⟩ <;> simp_all [poll]

theorem poll_parks {s : Signals} (h : s.poll.2 = none) : s.poll.1.waiter = .parked := by
  rcases s with ⟨_ | _, _ | _, _ | _ | _⟩ <;> simp_all [poll]

/-- As long as no stop is requested, a look ends its wait exactly when a restart is pending. -/
theorem poll_of_running {s : Signals} (hrunning : s.stopped = false) (hsane : s.Sane) :
    s.poll.2 = if s.held = 0 then none else some .restart := by
  rcases s with ⟨_ | _, _ | _, _ | _ | _⟩ <;> simp_all [poll, held, Sane]

/-! ## Sequences of operations -/

/-- What is done to the signals by those who share them. A wait begins with the first look at it,
and is in progress until a look ends it or it is given up. -/
inductive Operation where
  | requestRestart
  | requestStop
  | poll
  | abandon
deriving DecidableEq, Repr

def operate (s : Signals) : Operation → Signals
  | .requestRestart => s.requestRestart.1
  | .requestStop => s.requestStop
  | .poll => s.poll.1
  | .abandon => s.abandon

def after (s : Signals) (ops : List Operation) : Signals := ops.foldl operate s

def restarts (s : Signals) : List Operation → Nat
  | [] => 0
  | op :: rest =>
      (if op = .poll ∧ s.poll.2 = some .restart then 1 else 0) + (s.operate op).restarts rest

def requested (ops : List Operation) : Nat :=
  (ops.takeWhile (· ≠ .requestStop)).count .requestRestart

variable {s : Signals} {ops further : List Operation}

@[simp] theorem after_nil (s : Signals) : s.after [] = s := rfl

@[simp] theorem after_cons (s : Signals) (op : Operation) (rest : List Operation) :
    s.after (op :: rest) = (s.operate op).after rest := rfl

theorem after_append (s : Signals) (first later : List Operation) :
    s.after (first ++ later) = (s.after first).after later :=
  List.foldl_append

theorem operate_stopped (s : Signals) (op : Operation) :
    (s.operate op).stopped = (s.stopped || decide (op = .requestStop)) := by
  cases op with
  | requestRestart => simpa [operate] using s.requestRestart_stopped
  | requestStop => simp [operate]
  | poll => simp [operate]
  | abandon => simp [operate]

theorem after_stopped (s : Signals) (ops : List Operation) :
    (s.after ops).stopped = (s.stopped || decide (.requestStop ∈ ops)) := by
  induction ops generalizing s with
  | nil => simp
  | cons op rest ih =>
      rw [after_cons, ih, operate_stopped, Bool.or_assoc]
      congr 1
      simp [eq_comm]

theorem Sane.operate (h : s.Sane) (op : Operation) : (s.operate op).Sane := by
  cases op with
  | requestRestart =>
      show s.requestRestart.1.Sane
      unfold requestRestart
      split
      · exact h
      · exact h.notify
  | requestStop => exact h
  | poll => exact h.poll
  | abandon => exact sane_of_no_wait s.abandon_waiter

theorem Sane.after (h : s.Sane) (ops : List Operation) : (s.after ops).Sane := by
  induction ops generalizing s with
  | nil => exact h
  | cons op rest ih => exact ih (h.operate op)

/-- A request stays pending until the next look at a wait. -/
theorem held_operate_pos (hheld : 0 < s.held) {op : Operation} (hop : op ≠ .poll) :
    0 < (s.operate op).held := by
  cases op with
  | requestRestart =>
      show 0 < s.requestRestart.1.held
      unfold requestRestart
      split
      · exact hheld
      · exact s.held_notify.1
  | requestStop => exact hheld
  | poll => contradiction
  | abandon => exact held_abandon_pos hheld

theorem held_after_pos (hheld : 0 < s.held) (hops : .poll ∉ ops) : 0 < (s.after ops).held := by
  induction ops generalizing s with
  | nil => exact hheld
  | cons op rest ih =>
      obtain ⟨hop, hrest⟩ : Operation.poll ≠ op ∧ Operation.poll ∉ rest := by simpa using hops
      exact ih (held_operate_pos hheld hop.symm) hrest

/-- Each look that ends with a restart uses up one that is pending, and only accepted requests make
more of them pending. -/
theorem held_operate_le (s : Signals) (op : Operation) :
    (if op = .poll ∧ s.poll.2 = some .restart then 1 else 0) + (s.operate op).held ≤
      s.held + if op = .requestRestart ∧ s.stopped = false then 1 else 0 := by
  cases op with
  | requestRestart =>
      show 0 + s.requestRestart.1.held ≤ _
      unfold requestRestart
      cases hstopped : s.stopped with
      | true => simp
      | false => simpa using s.held_notify.2
  | requestStop => exact Nat.le_of_eq (Nat.zero_add _)
  | poll =>
      simp only [operate, true_and, reduceCtorEq, false_and, if_false]
      cases hanswer : s.poll.2 with
      | none => simpa using Nat.le_of_eq (held_of_poll_none hanswer)
      | some signal =>
          cases signal with
          | stop =>
              have habandon := congrArg Prod.fst (poll_of_stopped (s.poll_eq_stop_iff.mp hanswer))
              simpa [habandon] using s.held_abandon_le
          | restart =>
              have hused := held_of_poll_restart hanswer
              rw [if_pos rfl]
              omega
  | abandon => simpa [operate] using s.held_abandon_le

theorem requested_cons (op : Operation) (rest : List Operation) :
    requested (op :: rest) =
      if op = .requestStop then 0
      else (if op = .requestRestart then 1 else 0) + requested rest := by
  cases op <;> simp [requested, Nat.add_comm]

theorem restarts_add_held_le (s : Signals) (ops : List Operation) :
    s.restarts ops + (s.after ops).held ≤ s.held + if s.stopped then 0 else requested ops := by
  induction ops generalizing s with
  | nil => simp [restarts]
  | cons op rest ih =>
      have hstep := s.held_operate_le op
      have hrest := ih (s.operate op)
      rw [operate_stopped] at hrest
      rw [restarts, after_cons, requested_cons]
      cases hstopped : s.stopped with
      | true =>
          simp only [hstopped, Bool.true_or, if_true] at hrest hstep ⊢
          simp only [Bool.true_eq_false, and_false, if_false] at hstep
          omega
      | false =>
          simp only [hstopped, Bool.false_or, and_true] at hrest hstep ⊢
          by_cases hstop : op = .requestStop
          · subst hstop
            simp at hrest hstep ⊢
            omega
          · simp only [hstop, decide_false, Bool.false_eq_true, if_false] at hrest ⊢
            omega

/-! ## When no more requests come -/

/-- As many further looks end with a restart as restarts are pending, unless the wait that one was
handed to is given up first. -/
theorem restarts_of_held (hrunning : s.stopped = false) (hsane : s.Sane)
    (hfurther : ∀ op ∈ further, op = .poll ∨ op = .abandon)
    (hkept : s.waiter = .notified → further.head? ≠ some .abandon) :
    s.restarts further = min s.held (further.count .poll) := by
  induction further generalizing s with
  | nil => simp [restarts]
  | cons op rest ih =>
      have hrest : ∀ op ∈ rest, op = .poll ∨ op = .abandon :=
        fun op hop => hfurther op (List.mem_cons_of_mem _ hop)
      have hrunning' : (s.operate op).stopped = false := by
        rcases hfurther op List.mem_cons_self with rfl | rfl <;> simp [operate_stopped, hrunning]
      have hafter := ih hrunning' (hsane.operate op) hrest
      rw [restarts]
      rcases hfurther op List.mem_cons_self with rfl | rfl
      · have hanswer := poll_of_running hrunning hsane
        by_cases hnone : s.held = 0
        · rw [if_pos hnone] at hanswer
          have hparked : (s.operate .poll).waiter = .parked := poll_parks hanswer
          have hheld : (s.operate .poll).held = s.held := held_of_poll_none hanswer
          rw [hafter (by simp [hparked]), hheld, hanswer, hnone]
          simp
        · rw [if_neg hnone] at hanswer
          have habsent : (s.operate .poll).waiter = .absent := poll_waiter hanswer
          have hheld : (s.operate .poll).held + 1 = s.held := held_of_poll_restart hanswer
          rw [hafter (by simp [habsent]), hanswer, List.count_cons_self]
          simp only [true_and, if_true]
          omega
      · have hwaiter : s.waiter ≠ .notified := fun h => hkept h rfl
        have hheld : (s.operate .abandon).held = s.held := held_abandon_of_ne hwaiter
        have habsent : (s.operate .abandon).waiter = .absent := s.abandon_waiter
        rw [hafter (by simp [habsent]), hheld]
        simp

theorem operate_request_of_ne (hrunning : s.stopped = false) (hwaiter : s.waiter ≠ .parked) :
    s.operate .requestRestart = { s with stored := true } := by
  rcases s with ⟨_ | _, _, _ | _ | _⟩ <;> simp_all [operate, requestRestart, notify]

/-- Requests merge into the stored one where no wait can take them. -/
theorem after_requests_of_ne (hrunning : s.stopped = false) (hwaiter : s.waiter ≠ .parked)
    (k : Nat) : s.after (List.replicate (k + 1) .requestRestart) = { s with stored := true } := by
  induction k generalizing s with
  | zero => exact operate_request_of_ne hrunning hwaiter
  | succ k ih =>
      rw [List.replicate_succ, after_cons, operate_request_of_ne hrunning hwaiter]
      exact ih (s := { s with stored := true }) hrunning hwaiter

/-- Of the requests that come during a wait, the first is handed to it. -/
theorem held_of_requests (hrunning : s.stopped = false) (hsane : s.Sane) (hnone : s.held = 0)
    (k : Nat) :
    (s.after (List.replicate k .requestRestart)).held =
      min k (if s.waiter = .absent then 1 else 2) := by
  cases k with
  | zero => simpa using hnone
  | succ k =>
      cases hwaiter : s.waiter with
      | absent =>
          rw [after_requests_of_ne hrunning (by simp [hwaiter])]
          simp [held, hwaiter]
      | parked =>
          have hfirst : s.operate .requestRestart = { s with waiter := .notified } := by
            simp [operate, requestRestart, hrunning, notify, hwaiter]
          rw [List.replicate_succ, after_cons, hfirst]
          cases k with
          | zero => simp [held, hsane hwaiter]
          | succ k =>
              rw [after_requests_of_ne (s := { s with waiter := .notified }) hrunning (by simp)]
              simp [held]
      | notified => simp [held, hwaiter] at hnone

theorem waiter_of_requests (hrunning : s.stopped = false) (hwaiter : s.waiter = .absent)
    (k : Nat) : (s.after (List.replicate k .requestRestart)).waiter = .absent := by
  cases k with
  | zero => exact hwaiter
  | succ k =>
      rw [after_requests_of_ne hrunning (by simp [hwaiter])]
      exact hwaiter

theorem restarts_of_requests (hrunning : s.stopped = false) (hsane : s.Sane) (hnone : s.held = 0)
    (k : Nat) (hfurther : ∀ op ∈ further, op = .poll ∨ op = .abandon)
    (hkept : s.waiter ≠ .absent → further.head? ≠ some .abandon) :
    (s.after (List.replicate k .requestRestart)).restarts further =
      min (min k (if s.waiter = .absent then 1 else 2)) (further.count .poll) := by
  have hopen : (s.after (List.replicate k .requestRestart)).stopped = false := by
    simp [after_stopped, hrunning]
  rw [← held_of_requests hrunning hsane hnone k]
  apply restarts_of_held hopen (hsane.after _) hfurther
  intro hnotified
  apply hkept
  intro habsent
  rw [waiter_of_requests hrunning habsent] at hnotified
  contradiction

/-- The first look after a request ends with a restart. -/
theorem poll_of_request (hrunning : s.stopped = false) (hsane : s.Sane) {later : List Operation}
    (hstop : .requestStop ∉ later) (hpoll : .poll ∉ later) :
    (s.after (.requestRestart :: later)).poll.2 = some .restart := by
  have hopen : (s.after (.requestRestart :: later)).stopped = false := by
    rw [after_stopped, hrunning]
    simpa using hstop
  have hheld : 0 < (s.operate .requestRestart).held := by
    show 0 < s.requestRestart.1.held
    simpa [requestRestart, hrunning] using s.held_notify.1
  rw [poll_of_running hopen (hsane.after _), if_neg]
  exact Nat.ne_of_gt (held_after_pos (s := s.operate .requestRestart) hheld hpoll)

/-- Along every sequence of operations: once a stop was requested, requests are refused and looks end
with the stop. Until then requests are accepted, the first look after a request ends with a restart,
and requests that come when nothing is pending lead to one restart in all further looks, or to two
where a wait is in progress. No more restarts have come and are pending than were requested, and a
wait that is given up after it was notified leaves one request. -/
theorem restarts_follow_requests (ops : List Operation) :
    let s := quiet.after ops
    (.requestStop ∈ ops → s.requestRestart.2 = false ∧ s.poll.2 = some .stop) ∧
      (.requestStop ∉ ops → s.requestRestart.2 = true ∧ s.poll.2 ≠ some .stop ∧
        (∀ before later, ops = before ++ .requestRestart :: later → .poll ∉ later →
          s.poll.2 = some .restart) ∧
        ∀ k further, s.held = 0 → (∀ op ∈ further, op = .poll ∨ op = .abandon) →
          (s.waiter = .absent →
            (s.after (List.replicate k .requestRestart)).restarts further =
              min (min k 1) (further.count .poll)) ∧
          (s.waiter ≠ .absent → further.head? ≠ some .abandon →
            (s.after (List.replicate k .requestRestart)).restarts further =
              min (min k 2) (further.count .poll))) ∧
      quiet.restarts ops + s.held ≤ requested ops ∧
      (s.waiter = .notified → s.abandon.stored = true ∧ s.abandon.held = 1) := by
  intro s
  have hstopped : s.stopped = decide (.requestStop ∈ ops) := after_stopped quiet ops
  have hsane : s.Sane := Sane.after (sane_of_no_wait rfl) ops
  refine ⟨?stopped, ?running, ?count, ?abandoned⟩
  case stopped =>
    intro hstop
    have hclosed : s.stopped = true := by simpa [hstop] using hstopped
    exact ⟨by simp [requestRestart_accepts, hclosed], s.poll_eq_stop_iff.mpr hclosed⟩
  case running =>
    intro hstop
    have hopen : s.stopped = false := by simpa [hstop] using hstopped
    refine ⟨by simp [requestRestart_accepts, hopen], by simp [poll_eq_stop_iff, hopen], ?_, ?_⟩
    · rintro before later rfl hpoll
      obtain ⟨hbefore, hlater⟩ : Operation.requestStop ∉ before ∧ Operation.requestStop ∉ later := by
        simpa using hstop
      have hopen' : (quiet.after before).stopped = false := by simp [after_stopped, quiet, hbefore]
      have hsane' : (quiet.after before).Sane := Sane.after (sane_of_no_wait rfl) before
      show (quiet.after (before ++ .requestRestart :: later)).poll.2 = _
      rw [after_append]
      exact poll_of_request hopen' hsane' hlater hpoll
    · intro k further hnone hfurther
      constructor
      · intro habsent
        rw [restarts_of_requests hopen hsane hnone k hfurther fun h => absurd habsent h,
          if_pos habsent]
      · intro hwaiting hkept
        rw [restarts_of_requests hopen hsane hnone k hfurther fun _ => hkept, if_neg hwaiting]
  case count =>
    have hcount := quiet.restarts_add_held_le ops
    have hnone : quiet.held = 0 := rfl
    rwa [hnone, Nat.zero_add] at hcount
  case abandoned =>
    intro hnotified
    simp [abandon, hnotified, held]

/-- A wait takes the first of three requests, the second and third are stored as one, and after a
stop nothing of it matters. -/
theorem restarts_follow_requests_twice :
    let waiting := quiet.after [.poll]
    let asked := waiting.after [.requestRestart, .requestRestart, .requestRestart]
    asked.restarts [.poll, .poll, .abandon, .poll] = 2 ∧
      quiet.restarts [.poll, .requestRestart, .requestRestart, .requestRestart] + asked.held ≤ 3 ∧
      asked.abandon.held = 1 ∧ asked.poll.2 = some .restart ∧
      (asked.after [.requestStop]).poll.2 = some .stop := by
  intro waiting asked
  have hwaiting := restarts_follow_requests [.poll]
  have hasked := restarts_follow_requests [.poll, .requestRestart, .requestRestart, .requestRestart]
  have hstopped := restarts_follow_requests
    [.poll, .requestRestart, .requestRestart, .requestRestart, .requestStop]
  refine ⟨?_, hasked.2.2.1, (hasked.2.2.2 rfl).2, ?_, (hstopped.1 (by decide)).2⟩
  · exact ((hwaiting.2.1 (by decide)).2.2.2 3 [.poll, .poll, .abandon, .poll] rfl (by decide)).2
      (by decide) (by decide)
  · exact (hasked.2.1 (by decide)).2.2.1 [.poll, .requestRestart, .requestRestart] [] rfl (by decide)

end Signals

end PluginKit
