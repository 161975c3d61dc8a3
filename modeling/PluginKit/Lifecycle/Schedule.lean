import PluginKit.Lifecycle.Supervision

/-!
# One order of steps

The order in which the steps of a supervisor's tasks are taken when all of them share one
thread: a task runs until it has to wait, and then the others get their turn.
-/

namespace PluginKit

namespace Access

/-- Whether a task that is at a section has to wait before its next step, be the lock free or
not. -/
def awaits (s : Supervisor) : Access → Bool
  | .holding stage => s.awaits stage
  | _ => false

end Access

namespace Supervision

/-- How many steps are taken before a run is given up. -/
def patience : Nat := 5000

def loopAwaits (sys : Supervision) (i : Nat) : Bool :=
  match sys.loops[i]? with
  | some (.attempting _ access) => access.awaits sys.supervisor
  | _ => false

def callAwaits (sys : Supervision) (j : Nat) : Bool :=
  match sys.calls[j]? with
  | some (.stop access) => access.awaits sys.supervisor
  | some (.cycle _ access) => access.awaits sys.supervisor
  | _ => false

def runLoop (fuel : Nat) (i : Nat) (sys : Supervision) : Supervision :=
  match fuel with
  | 0 => sys
  | fuel + 1 =>
      match sys.loopStep? i with
      | none => sys
      | some sys' => if sys'.loopAwaits i then sys' else runLoop fuel i sys'

def runLoops (sys : Supervision) : Supervision :=
  (List.range sys.loops.length).foldl (fun sys i => runLoop patience i sys) sys

/-- Whether some loop can make a step. -/
def canRun (sys : Supervision) : Bool :=
  (List.range sys.loops.length).any fun i => (sys.loopStep? i).isSome

def settleWithin (fuel : Nat) (sys : Supervision) : Supervision :=
  match fuel with
  | 0 => sys
  | fuel + 1 => if sys.canRun then settleWithin fuel sys.runLoops else sys

/-- Lets the loops run until none of them can make a step. -/
def settle (sys : Supervision) : Supervision := sys.settleWithin patience

def freeLock (fuel : Nat) (sys : Supervision) : Supervision :=
  match fuel with
  | 0 => sys
  | fuel + 1 =>
      match sys.lock with
      | some (.loop i) =>
          match sys.loopStep? i with
          | none => sys
          | some sys' => freeLock fuel sys'
      | _ => sys

/-- Runs a call to its end; the loops get their turn whenever it has to wait. -/
def runCall (fuel : Nat) (j : Nat) (sys : Supervision) : Supervision :=
  match fuel with
  | 0 => sys
  | fuel + 1 =>
      let sys := if sys.callAwaits j then sys.runLoops else sys
      match sys.callStep? j with
      | some sys' => runCall fuel j sys'
      | none =>
          match sys.calls[j]? with
          | some (.finished _) => sys
          | some .panicked => sys
          | _ => if sys.canRun then runCall fuel j sys.runLoops else sys

def runLastCall (sys : Supervision) : Supervision :=
  sys.runCall patience (sys.calls.length - 1)

def lastCall? (sys : Supervision) : Option Call := sys.calls.getLast?

def sleeper? (sys : Supervision) : Option Nat :=
  sys.loops.findIdx? fun loop =>
    match loop with
    | .sleeping _ => true
    | _ => false

/-- Lets the loops run until they have nothing to do for now and `goal` holds. Sleeps are
waited for while the goal does not hold, and `brief` ones always. -/
def waitFor (fuel : Nat) (brief : Bool) (goal : Supervision → Bool) (sys : Supervision) :
    Supervision :=
  match fuel with
  | 0 => sys
  | fuel + 1 =>
      let sys := sys.settle
      match sys.sleeper? with
      | none => sys
      | some i => if !brief && goal sys then sys else waitFor fuel brief goal (sys.wake i)

/-- Ends the loop that is known to be launched on the spot, and answers whether there was
one. -/
def abort (sys : Supervision) : Supervision × Bool :=
  match sys.launched with
  | none => (sys, false)
  | some i =>
      if (sys.loops[i]?).any Loop.isOver then (sys, true)
      else
        let s := { sys.supervisor with signals := sys.supervisor.signals.abandon }
        ({ sys with
            supervisor := s
            lock := if sys.lock = some (Holder.loop i) then none else sys.lock
            queue := sys.queue.filter (· ≠ Holder.loop i) }.setLoop i .ended,
          true)

/-- Lets go of the supervisor: a stop is requested, the loops run to their end, and the
servers go with them. Nothing is removed. -/
def release (sys : Supervision) : Supervision :=
  let s := { sys.supervisor with signals := sys.supervisor.signals.requestStop }
  let sys' := { sys with supervisor := s }.settle
  { sys' with supervisor := { sys'.supervisor with servers := [] } }

end Supervision

end PluginKit
