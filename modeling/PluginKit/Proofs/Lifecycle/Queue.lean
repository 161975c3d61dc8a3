import PluginKit.Proofs.Lifecycle.Order

/-!
# The queue before the lock

Whoever waits for the lock stands in the queue, once, and nobody else does. So whenever the lock
is free and somebody waits, the first in the queue can go on.
-/

namespace PluginKit

theorem Place.queued_of_outside {p : Place} (h : p.outside = true) : p.queued = false := by
  unfold outside at h
  split at h
  · rfl
  · rfl
  · contradiction

theorem Place.queued_faded (id : Nat) (p : Place) : (p.faded id).queued = p.queued := by
  rcases p with _ | ⟨_ | _, access⟩
  · rfl
  · cases access <;> rfl
  · rfl

namespace Supervision

variable {sys sys' : Supervision} {who : Holder} {a : Action}

/-- The queue is the list of those who wait. -/
structure Lined (sys : Supervision) : Prop where
  nodup : sys.queue.Nodup
  mem_iff : ∀ who, who ∈ sys.queue ↔ (sys.place who).queued = true

theorem lined_unstarted (s : Supervisor) : (unstarted s).Lined where
  nodup := List.nodup_nil
  mem_iff who := by cases who <;> simp [unstarted, place, Place.queued]

theorem Lined.of_same (h : sys.Lined) (hqueue : sys'.queue = sys.queue)
    (hplace : ∀ who, (sys'.place who).queued = (sys.place who).queued) : sys'.Lined where
  nodup := by rw [hqueue]; exact h.nodup
  mem_iff who := by rw [hqueue, hplace]; exact h.mem_iff who

theorem queued_after (sec : Section) (p : Progress) : (Place.after sec p).queued = false := by
  cases p <;> rfl

/-- Whoever makes a turn out of the queue was the first in it. -/
theorem head_of_turn {t : Turn} (hturn : sys.turn? who = some t)
    (hqueued : (sys.place who).queued = true) : sys.queue.head? = some who := by
  rcases turn?_cases hturn with ⟨sec, rfl, -, ⟨hplace, -⟩ | ⟨-, hhead⟩⟩ | ⟨sec, stage, rfl, hplace⟩
  · rw [hplace] at hqueued
    contradiction
  · exact hhead
  · rw [hplace] at hqueued
    contradiction

theorem Lined.turned {t : Turn} (h : sys.Lined) (hturn : sys.turn? who = some t)
    (hstep : Turned sys who t sys') : sys'.Lined := by
  have hgone : (sys'.place who).queued = false := by rw [hstep.place, queued_after]
  cases hqueued : (sys.place who).queued with
  | false =>
      refine h.of_same (by rw [hstep.queue, hqueued]; rfl) fun other => ?_
      by_cases hother : other = who
      · rw [hother, hgone, hqueued]
      · rw [hstep.others other hother]
  | true =>
      obtain ⟨rest, hqueue⟩ := List.head?_eq_some_iff.mp (head_of_turn hturn hqueued)
      have hrest : sys'.queue = rest := by rw [hstep.queue, hqueued, hqueue]; rfl
      have hnodup := h.nodup
      rw [hqueue] at hnodup
      obtain ⟨hnot, htail⟩ := List.nodup_cons.mp hnodup
      refine ⟨hrest ▸ htail, fun other => ?_⟩
      rw [hrest]
      by_cases hother : other = who
      · subst hother
        simp [hnot, hgone]
      · rw [hstep.others other hother, ← h.mem_iff other, hqueue]
        simp [hother]

theorem Lined.queues (h : sys.Lined) (hstep : Queued sys who sys') : sys'.Lined := by
  obtain ⟨sec, hbefore, hafter⟩ := hstep.place
  have hnot : who ∉ sys.queue := by
    intro hmem
    have hqueued := (h.mem_iff who).mp hmem
    rw [hbefore] at hqueued
    contradiction
  constructor
  · rw [hstep.queue, List.nodup_append]
    refine ⟨h.nodup, by simp, ?_⟩
    intro x hx y hy heq
    rw [List.mem_singleton.mp hy] at heq
    exact hnot (heq ▸ hx)
  · intro other
    rw [hstep.queue, List.mem_append, List.mem_singleton]
    by_cases hother : other = who
    · subst hother
      simp [hafter, Place.queued]
    · rw [hstep.others other hother, ← h.mem_iff other]
      simp [hother]

theorem Lined.step (h : sys.Lined) (hstep : sys.act? a = some sys') : sys'.Lined := by
  cases act?_kind hstep with
  | turn hactor hturn hturned => exact h.turned hturn hturned
  | queues hidle hqueued => exact h.queues hqueued
  | aside hidle haside =>
      refine h.of_same haside.queue fun who => ?_
      rcases haside.places who with heq | ⟨hbefore, hafter⟩
      · rw [heq]
      · rw [Place.queued_of_outside hbefore, Place.queued_of_outside hafter]
  | fades hidle hfaded =>
      refine h.of_same hfaded.queue fun who => ?_
      rw [hfaded.places who, Place.queued_faded]

/-- With the lock free, those who wait do so behind one who need not. -/
theorem Lined.turn_of_head (h : sys.Lined) (hfree : sys.lock = none)
    (hhead : sys.queue.head? = some who) : ∃ sec, sys.turn? who = some (.enters sec) := by
  have hqueued := (h.mem_iff who).mp (List.mem_of_mem_head? hhead)
  unfold Place.queued at hqueued
  split at hqueued
  · rename_i sec hplace
    exact ⟨sec, by simp [turn?, hplace, hfree, hhead]⟩
  · contradiction

end Supervision

end PluginKit
