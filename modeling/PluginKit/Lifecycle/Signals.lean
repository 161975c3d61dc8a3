/-!
# Stop and restart requests

One supervisor waits for requests that anybody may make. A stop is final. A restart requested
while the supervisor waits is handed to that wait; one requested at any other time is stored,
and at most one is.
-/

namespace PluginKit

/-- What a wait ends with. -/
inductive Signal where
  | stop
  | restart
deriving DecidableEq, Repr

/-- The wait in progress, if there is one: `notified` once a restart was handed to it. -/
inductive Waiter where
  | absent
  | parked
  | notified
deriving DecidableEq, Repr

structure Signals where
  stopped : Bool := false
  stored : Bool := false
  waiter : Waiter := .absent
deriving DecidableEq, Repr, Inhabited

namespace Signals

def quiet : Signals := {}

/-- A restart request reaches the wait in progress, or is stored. -/
def notify (s : Signals) : Signals :=
  match s.waiter with
  | .parked => { s with waiter := .notified }
  | _ => { s with stored := true }

def requestRestart (s : Signals) : Signals × Bool :=
  if s.stopped then (s, false) else (s.notify, true)

def requestStop (s : Signals) : Signals := { s with stopped := true }

/-- Gives the wait in progress up. A restart that was handed to it is not lost. -/
def abandon (s : Signals) : Signals :=
  match s.waiter with
  | .notified => { s with stored := true, waiter := .absent }
  | _ => { s with waiter := .absent }

/-- Begins a wait, or looks again at the one in progress, and answers with the signal that
ends it. A stop goes before a restart. -/
def poll (s : Signals) : Signals × Option Signal :=
  if s.stopped then (s.abandon, some .stop)
  else
    match s.waiter with
    | .notified => ({ s with waiter := .absent }, some .restart)
    | .parked => (s, none)
    | .absent =>
        if s.stored then ({ s with stored := false }, some .restart)
        else ({ s with waiter := .parked }, none)

/-- One look at a new wait, which is given up when nothing is pending. -/
def pollOnce (s : Signals) : Signals × Option Signal :=
  match s.poll with
  | (s', none) => (s'.abandon, none)
  | answer => answer

/-- Whether a sleep of `duration` comes to its end, when a stop is requested after `stopAt`. -/
def sleeps (s : Signals) (duration : Nat) (stopAt : Option Nat) : Bool :=
  !s.stopped && stopAt.all fun at_ => duration < at_

@[simp] theorem requestStop_stopped (s : Signals) : s.requestStop.stopped = true := rfl

@[simp] theorem notify_stopped (s : Signals) : s.notify.stopped = s.stopped := by
  cases h : s.waiter <;> simp [notify, h]

@[simp] theorem abandon_stopped (s : Signals) : s.abandon.stopped = s.stopped := by
  cases h : s.waiter <;> simp [abandon, h]

theorem poll_of_stopped {s : Signals} (h : s.stopped = true) :
    s.poll = (s.abandon, some .stop) := by
  simp [poll, h]

end Signals

end PluginKit
