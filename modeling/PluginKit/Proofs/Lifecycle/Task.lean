import PluginKit.Proofs.Lifecycle.Turn

/-!
# What becomes of the tasks

A case for each thing that an action does to the list of loops, and for each that it does to the
list of calls.
-/

namespace PluginKit

def Loop.faded (id : Nat) : Loop → Loop
  | attempting kind access => attempting kind (Supervision.endTaskOf id access)
  | loop => loop

def Call.faded (id : Nat) : Call → Call
  | cycle kind access => cycle kind (Supervision.endTaskOf id access)
  | call => call

def Call.isCycle : Call → Bool
  | cycle _ _ => true
  | _ => false

def Call.isPast : Call → Bool
  | reporting _ => true
  | leaving _ => true
  | joining _ _ => true
  | _ => false

@[simp] theorem Loop.isOver_faded (id : Nat) (loop : Loop) :
    (loop.faded id).isOver = loop.isOver := by
  cases loop <;> rfl

@[simp] theorem Call.isCycle_faded (id : Nat) (call : Call) :
    (call.faded id).isCycle = call.isCycle := by
  cases call <;> rfl

@[simp] theorem Call.isPast_faded (id : Nat) (call : Call) :
    (call.faded id).isPast = call.isPast := by
  cases call <;> rfl

namespace Supervision

variable {sys sys' : Supervision} {who : Holder} {a : Action}

/-- What an action makes of the loops. -/
inductive LoopsMove (sys : Supervision) (a : Action) (sys' : Supervision) : Prop
  | same (loops : sys'.loops = sys.loops) (launched : sys'.launched = sys.launched)
  | step {i : Nat} {old new : Loop} {mid : Supervision} (at_ : sys.loops[i]? = some old)
      (h : LoopStep sys i old mid new) (action : a = .loop i) (after : sys' = mid.setLoop i new)
  | wakes {i : Nat} {kind : CycleKind} (at_ : sys.loops[i]? = some (.sleeping kind))
      (after : sys' = sys.setLoop i (.attempting kind .asking))
  | launches (idle : sys.isRunning = false)
      (loops : sys'.loops = sys.loops ++ [.attempting .start .asking])
      (launched : sys'.launched = some sys.loops.length)
  | taken {j : Nat} {outcome : LifecycleOutcome} (call : sys.calls[j]? = some (.leaving outcome))
      (loops : sys'.loops = sys.loops) (launched : sys'.launched = none)
  | faded {id : Nat} (loops : sys'.loops = sys.loops.map (Loop.faded id))
      (launched : sys'.launched = sys.launched)

/-- What an action makes of the calls. -/
inductive CallsMove (sys : Supervision) (a : Action) (sys' : Supervision) : Prop
  | same (calls : sys'.calls = sys.calls)
  | made {new : Call} (calls : sys'.calls = sys.calls ++ [new]) (cycle : new.isCycle = false)
      (past : new.isPast = false)
  | step {j : Nat} {old new : Call} {mid : Supervision} (at_ : sys.calls[j]? = some old)
      (h : CallStep sys j old mid new) (action : a = .call j) (after : sys' = mid.setCall j new)
  | faded {id : Nat} (calls : sys'.calls = sys.calls.map (Call.faded id))

theorem act?_loops (h : sys.act? a = some sys') : LoopsMove sys a sys' := by
  cases act?_cases h with
  | asks => exact .same rfl rfl
  | loop hloop hmove => exact .step hloop hmove rfl rfl
  | call hcall hmove =>
      cases hmove with
      | launches =>
          cases hrun : sys.isRunning with
          | true =>
              rw [launch_of_running hrun]
              exact .same rfl rfl
          | false =>
              rw [launch_of_idle hrun]
              exact .launches hrun rfl rfl
      | stop hacc => exact .same hacc.keeps_tasks.1 hacc.keeps_tasks.2.2
      | cycle hacc => exact .same hacc.keeps_tasks.1 hacc.keeps_tasks.2.2
      | takes hlaunched => exact .taken hcall rfl rfl
      | _ => exact .same rfl rfl
  | wakes hloop => exact .wakes hloop rfl
  | idles => exact .same rfl rfl
  | escalates => exact .faded rfl rfl
  | outside => exact .same rfl rfl
  | transport => exact .same rfl rfl

theorem act?_calls (h : sys.act? a = some sys') : CallsMove sys a sys' := by
  cases act?_cases h with
  | asks hasks => exact .made rfl (by cases hasks <;> rfl) (by cases hasks <;> rfl)
  | loop hloop hmove => exact .same hmove.keeps_tasks.2.1
  | call hcall hmove => exact .step hcall hmove rfl rfl
  | wakes => exact .same rfl
  | idles => exact .same rfl
  | escalates => exact .faded rfl
  | outside => exact .same rfl
  | transport => exact .same rfl

end Supervision

end PluginKit
