import PluginKit.Lifecycle.Supervision

/-!
# Runs of a supervision

A supervision moves when a call is made, when a task takes a step, when a sleep ends, when a
serving task gives up, when others change the files, and when the transport begins or ceases to
fail, so that any dial may time out. A run takes such actions one after the other, in any order in
which each of them can be taken. Single cycles are called for and loops
are aborted by nobody, and a run ends when the supervisor is let go of.
-/

namespace PluginKit

namespace Supervision

/-- What may happen next. The files may be changed by others at any time, to anything, and the
transport may fare in any way. -/
inductive Action where
  | start (runtime : Bool)
  | restart
  | stop
  | loop (i : Nat)
  | call (j : Nat)
  | wake (i : Nat)
  | escalate (id : Nat)
  | outside (files : FileSystem)
  | transport (t : Transport)
deriving DecidableEq, Repr

def unstarted (s : Supervisor) : Supervision := { supervisor := s }

def act? (sys : Supervision) : Action → Option Supervision
  | .start runtime => some (sys.start runtime)
  | .restart => some sys.restart
  | .stop => some sys.stop
  | .loop i => sys.loopStep? i
  | .call j => sys.callStep? j
  | .wake i => some (sys.wake i)
  | .escalate id => some (sys.escalate id)
  | .outside files => some { sys with supervisor := { sys.supervisor with files := files } }
  | .transport t => some { sys with supervisor := { sys.supervisor with transport := t } }

def run? (sys : Supervision) : List Action → Option Supervision
  | [] => some sys
  | a :: rest => (sys.act? a).bind fun mid => mid.run? rest

/-- The state in which the latest `marked` action of a run was taken, with that action; `found`
is the one before the run. -/
def latest? (marked : Supervision → Action → Bool) (found : Option (Supervision × Action))
    (sys : Supervision) : List Action → Option (Supervision × Action)
  | [] => found
  | a :: rest =>
      match sys.act? a with
      | none => found
      | some mid => latest? marked (if marked sys a then some (sys, a) else found) mid rest

theorem run?_cons (sys : Supervision) (a : Action) (rest : List Action) :
    sys.run? (a :: rest) = (sys.act? a).bind fun mid => mid.run? rest := rfl

/-- What holds at the end of a run and not at its beginning comes about at some step. -/
theorem run?_turns {P : Supervision → Prop} {sys sys' : Supervision} {actions : List Action}
    (hbegin : ¬ P sys) (hrun : sys.run? actions = some sys') (hend : P sys') :
    ∃ before a after last left, actions = before ++ a :: after ∧
      sys.run? before = some last ∧ ¬ P last ∧ last.act? a = some left ∧ P left ∧
      left.run? after = some sys' := by
  induction actions generalizing sys with
  | nil =>
      cases hrun
      exact absurd hend hbegin
  | cons a rest ih =>
      rw [run?_cons] at hrun
      obtain ⟨mid, hmid, hrest⟩ := Option.bind_eq_some_iff.mp hrun
      by_cases hnow : P mid
      · exact ⟨[], a, rest, sys, mid, rfl, rfl, hbegin, hmid, hnow, hrest⟩
      · obtain ⟨before, b, after, last, left, hsplit, hbefore, hlast, hstep, hleft, hafter⟩ :=
          ih hnow hrest
        refine ⟨a :: before, b, after, last, left, by rw [hsplit]; rfl, ?_, hlast, hstep, hleft,
          hafter⟩
        rw [run?_cons, hmid]
        exact hbefore

/-- What every step keeps, every run keeps. -/
theorem run?_keeps {P : Supervision → Prop}
    (step : ∀ {sys sys' : Supervision} {a : Action}, P sys → sys.act? a = some sys' → P sys')
    {sys sys' : Supervision} {actions : List Action} (hP : P sys)
    (h : sys.run? actions = some sys') : P sys' := by
  induction actions generalizing sys with
  | nil =>
      simp only [run?, Option.some.injEq] at h
      exact h ▸ hP
  | cons a rest ih =>
      rw [run?_cons] at h
      obtain ⟨mid, hmid, hrest⟩ := Option.bind_eq_some_iff.mp h
      exact ih (step hP hmid) hrest

/-- The same for what is said of the latest marked action along with the state, in runs that take
only certain actions. -/
theorem run?_keeps_latest_of {allowed : Action → Prop} {marked : Supervision → Action → Bool}
    {P : Option (Supervision × Action) → Supervision → Prop}
    (step : ∀ {found : Option (Supervision × Action)} {sys sys' : Supervision} {a : Action},
      allowed a → P found sys → sys.act? a = some sys' →
        P (if marked sys a then some (sys, a) else found) sys')
    {found : Option (Supervision × Action)} {sys sys' : Supervision} {actions : List Action}
    (hallowed : ∀ a ∈ actions, allowed a) (hP : P found sys)
    (h : sys.run? actions = some sys') : P (latest? marked found sys actions) sys' := by
  induction actions generalizing sys found with
  | nil =>
      simp only [run?, Option.some.injEq] at h
      exact h ▸ hP
  | cons a rest ih =>
      rw [run?_cons] at h
      obtain ⟨mid, hmid, hrest⟩ := Option.bind_eq_some_iff.mp h
      obtain ⟨hfirst, hothers⟩ := List.forall_mem_cons.mp hallowed
      simp only [latest?, hmid]
      exact ih hothers (step hfirst hP hmid) hrest

theorem run?_keeps_latest {marked : Supervision → Action → Bool}
    {P : Option (Supervision × Action) → Supervision → Prop}
    (step : ∀ {found : Option (Supervision × Action)} {sys sys' : Supervision} {a : Action},
      P found sys → sys.act? a = some sys' →
        P (if marked sys a then some (sys, a) else found) sys')
    {found : Option (Supervision × Action)} {sys sys' : Supervision} {actions : List Action}
    (hP : P found sys) (h : sys.run? actions = some sys') :
    P (latest? marked found sys actions) sys' :=
  run?_keeps_latest_of (fun (_ : True) hnow hstep => step hnow hstep) (fun _ _ => trivial) hP h

end Supervision

end PluginKit
