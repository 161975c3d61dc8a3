import PluginKit.Proofs.Lifecycle.Serving

/-!
# When the count of crashes runs over

A serving task ends as soon as its window counts more crashes than its threshold, so a threshold
below the largest count always leaves room for the next crash. The largest threshold is never
exceeded: with it, nothing ends a row of crashes before the count is full, and the crash after that
starts it at zero again.
-/

namespace PluginKit

namespace CrashWindow

/-- The crash is counted with those before it, and its number is more than a count can hold. -/
def Overflows (w : CrashWindow) (now : Nat) : Prop :=
  w.gap now ≤ w.resetAfter ∧ UInt32.size ≤ w.consecutive.toNat + 1

instance (w : CrashWindow) (now : Nat) : Decidable (w.Overflows now) := by
  unfold Overflows
  infer_instance

theorem record_of_overflows {w : CrashWindow} {now : Nat} (h : w.Overflows now) :
    (w.record now).consecutive = 0 := by
  obtain ⟨early, full⟩ := h
  have last := w.consecutive.toNat_lt_size
  apply UInt32.toNat_inj.mp
  rw [record, if_neg (Nat.not_lt.mpr early), UInt32.toNat_add, UInt32.toNat_one,
    show w.consecutive.toNat + 1 = UInt32.size by omega]
  rfl

example : (⟨0, 4294967295, 10, 7⟩ : CrashWindow).Overflows 10 ∧
    ¬(⟨0, 4294967295, 10, 7⟩ : CrashWindow).Overflows 11 := by decide

/-- The largest threshold is never exceeded. -/
theorem escalates_of_largest {w : CrashWindow} (h : w.threshold.toNat = UInt32.size - 1) :
    w.escalates = false := by
  have last := w.consecutive.toNat_lt_size
  rw [escalates, decide_eq_false_iff_not, UInt32.lt_iff_toNat_lt, h]
  omega

/-- The count runs over at a crash whose number in its row is a multiple of what it can hold. -/
theorem overflows_iff_of_countsFrom {times : List Nat} {n j : Nat} (since resetAfter : Nat)
    (threshold : UInt32) (h : n < times.length) (from_j : CountsFrom resetAfter times (n + 1) j) :
    ((start since resetAfter threshold).afterFirst times n).Overflows times[n] ↔
      (n + 1 - j + 1) % UInt32.size = 0 := by
  have pos := from_j.pos
  have le := from_j.le
  cases n with
  | zero =>
      obtain rfl : j = 1 := by omega
      simp [Overflows, afterFirst, start, UInt32.size]
  | succ n =>
      obtain ⟨j', from_j', counted⟩ :=
        exists_countsFrom_mod since resetAfter threshold (Nat.lt_of_succ_lt h)
      rw [Overflows, gap_afterFirst _ h, (afterFirst_settings _ times (n + 1)).1, counted]
      change gapBefore times (n + 2) ≤ resetAfter ∧ _ ↔ _
      by_cases late : resetAfter < gapBefore times (n + 2)
      · obtain rfl : j = n + 2 := from_j.unique (.again (by omega) late)
        simp only [UInt32.size]
        omega
      · obtain rfl : j = j' := from_j.unique (from_j'.next (Nat.le_of_not_lt late))
        have behind := from_j'.le
        simp only [UInt32.size]
        omega

end CrashWindow

namespace Serving

variable {o : Observer} {w : CrashWindow} {s : Signals} {rounds : List Round} {round : Round}
  {k : Nat}

/-! ## The crashes that a task records -/

/-- The round with this number is one that a task comes to, and a crash that it records. -/
def Records (o : Observer) (w : CrashWindow) (rounds : List Round) (k : Nat) : Prop :=
  GoesOn o w rounds k ∧ o.panics .serverRestart = false ∧
    ∃ round, rounds[k]? = some round ∧ round.shutDown = false

/-- A task comes to a later round just when it goes on after the first one. -/
theorem goesOn_cons_succ {rest : List Round} :
    GoesOn o w (round :: rest) (k + 1) ↔
      ¬EndsWith o w (round :: rest) 0 ∧ GoesOn o (w.record round.endedAt) rest k := by
  constructor
  · intro on
    exact ⟨on 0 (Nat.succ_pos k), fun j hj => on (j + 1) (Nat.succ_lt_succ hj)⟩
  · rintro ⟨first, on⟩ (_ | j) hj
    · exact first
    · exact on j (Nat.lt_of_succ_lt_succ hj)

theorem endsWith_cons_zero {rest : List Round} (heard : o.panics .serverRestart = false) :
    EndsWith o w (round :: rest) 0 ↔
      round.shutDown = true ∨ (w.record round.endedAt).escalates = true := by
  constructor
  · rintro ⟨first, at_zero, ends⟩
    obtain rfl : round = first := Option.some.inj at_zero
    simpa [heard, windowAfter, CrashWindow.afterFirst] using ends
  · intro ends
    refine ⟨round, rfl, ?_⟩
    simpa [heard, windowAfter, CrashWindow.afterFirst] using ends

/-- A task tells of each crash that it comes to, up to the one at which its window escalates. -/
theorem count_run_cons {rest : List Round} (heard : o.panics .serverRestart = false) :
    (run o w s (round :: rest)).metrics.count .serverRestart =
      if round.shutDown then 0
      else if (w.record round.endedAt).escalates then 1
      else (run o (w.record round.endedAt) (round.requests.foldl Signals.apply s)
        rest).metrics.count .serverRestart + 1 := by
  cases up : round.shutDown with
  | true => simp [run, up, lastRound]
  | false =>
      cases many : (w.record round.endedAt).escalates with
      | true => cases loud : o.panics .crashLoop <;> simp [run, up, heard, many, loud, lastRound]
      | false =>
          rw [run_cons_of_crash up heard many]
          simp [Run.after, Nat.add_comm]

/-- The crashes that a task records are those that it tells of. -/
theorem records_iff (heard : o.panics .serverRestart = false) :
    Records o w rounds k ↔ k < (run o w s rounds).metrics.count .serverRestart := by
  induction rounds generalizing w s k with
  | nil => simp [Records, run]
  | cons round rest ih =>
      rw [count_run_cons heard]
      -- the first crash is told of in any case, a later one only if the first round ends nothing
      cases k with
      | zero =>
          have start : GoesOn o w (round :: rest) 0 := fun j hj => absurd hj (Nat.not_lt_zero j)
          cases up : round.shutDown with
          | true => simp [Records, up]
          | false =>
              cases (w.record round.endedAt).escalates <;> simp [Records, start, heard, up]
      | succ k =>
          rw [Records, goesOn_cons_succ, endsWith_cons_zero heard]
          cases up : round.shutDown with
          | true => simp
          | false =>
              cases many : (w.record round.endedAt).escalates with
              | true => simp
              | false =>
                  have later := @ih (w.record round.endedAt) (round.requests.foldl Signals.apply s) k
                  simpa [Records] using later

/-! ## Rows of crashes that overflow -/

/-- At the crash with this number a task would count more crashes than its count can hold. -/
def OverflowsAt (o : Observer) (w : CrashWindow) (s : Signals) (rounds : List Round)
    (k : Nat) : Prop :=
  o.panics .serverRestart = false ∧ k < (run o w s rounds).metrics.count .serverRestart ∧
    ∃ round, rounds[k]? = some round ∧ (windowAfter w rounds k).Overflows round.endedAt

/-- The round with this number is the last of so many crashes in a row, each of them within the
window of the one before, that a count cannot hold them. -/
structure EndsFullRow (o : Observer) (resetAfter : Nat) (rounds : List Round) (k : Nat) : Prop where
  heard : o.panics .serverRestart = false
  inside : k < rounds.length
  many : UInt32.size - 1 < k + 1
  up : ∀ i round, i ≤ k → rounds[i]? = some round → round.shutDown = false
  close : ∀ i, k + 1 - (UInt32.size - 1) < i → i ≤ k + 1 →
    CrashWindow.gapBefore (rounds.map Round.endedAt) i ≤ resetAfter

variable {since resetAfter j : Nat} {threshold : UInt32}

theorem OverflowsAt.crash (spill : OverflowsAt o w s rounds k) :
    GoesOn o w rounds k ∧ ∃ round, rounds[k]? = some round ∧ round.shutDown = false ∧
      (windowAfter w rounds k).Overflows round.endedAt := by
  obtain ⟨heard, told, round, at_k, overflows⟩ := spill
  obtain ⟨on, -, round', at_k', up⟩ := (records_iff heard).mpr told
  obtain rfl : round = round' := Option.some.inj (at_k.symm.trans at_k')
  exact ⟨on, round, at_k, up, overflows⟩

theorem exists_countsFrom_of_lt (resetAfter : Nat) (inside : k < rounds.length) :
    ∃ j, CrashWindow.CountsFrom resetAfter (rounds.map Round.endedAt) (k + 1) j := by
  have inside' : k < (rounds.map Round.endedAt).length := by
    rw [List.length_map]
    exact inside
  obtain ⟨j, from_j, -⟩ := CrashWindow.exists_countsFrom_mod 0 resetAfter 0 inside'
  exact ⟨j, from_j⟩

theorem overflows_windowAfter_iff (at_k : rounds[k]? = some round)
    (from_j : CrashWindow.CountsFrom resetAfter (rounds.map Round.endedAt) (k + 1) j) :
    (windowAfter (.start since resetAfter threshold) rounds k).Overflows round.endedAt ↔
      (k + 1 - j + 1) % UInt32.size = 0 := by
  obtain ⟨inside, rfl⟩ := List.getElem?_eq_some_iff.mp at_k
  have inside' : k < (rounds.map Round.endedAt).length := by
    rw [List.length_map]
    exact inside
  have iff := CrashWindow.overflows_iff_of_countsFrom since resetAfter threshold inside' from_j
  rw [List.getElem_map] at iff
  exact iff

/-- A threshold below the largest leaves room for the next crash as long as the task goes on. -/
theorem largest_of_overflows (inside : k < rounds.length)
    (on : GoesOn o (.start since resetAfter threshold) rounds k) {now : Nat}
    (spill : (windowAfter (.start since resetAfter threshold) rounds k).Overflows now) :
    threshold.toNat = UInt32.size - 1 := by
  have last := threshold.toNat_lt_size
  have full := spill.2
  cases k with
  | zero => simp [windowAfter, CrashWindow.afterFirst, CrashWindow.start, UInt32.size] at full
  | succ k =>
      have few := consecutive_le_of_goesOn (Nat.lt_of_succ_lt inside) on
      change _ ≤ threshold.toNat at few
      omega

/-- With the largest threshold nothing ends a row of crashes but a round that is shut down. -/
theorem goesOn_of_largest (largest : threshold.toNat = UInt32.size - 1)
    (heard : o.panics .serverRestart = false)
    (up : ∀ i round, i < k → rounds[i]? = some round → round.shutDown = false) :
    GoesOn o (.start since resetAfter threshold) rounds k := by
  rintro i hi ⟨round, at_i, down | panics | many⟩
  · simp [up i round hi at_i] at down
  · simp [heard] at panics
  · have same := ((CrashWindow.start since resetAfter threshold).afterFirst_settings
      (rounds.map Round.endedAt) (i + 1)).2
    rw [windowAfter, CrashWindow.escalates_of_largest (by rw [same]; exact largest)] at many
    simp at many

/-- Whatever overflows ends a full row, and the threshold is the largest. -/
theorem endsFullRow_of_overflowsAt
    (spill : OverflowsAt o (.start since resetAfter threshold) s rounds k) :
    threshold.toNat = UInt32.size - 1 ∧ EndsFullRow o resetAfter rounds k := by
  obtain ⟨on, round, at_k, up, overflows⟩ := spill.crash
  obtain ⟨inside, -⟩ := List.getElem?_eq_some_iff.mp at_k
  obtain ⟨j, from_j⟩ := exists_countsFrom_of_lt resetAfter inside
  have full := (overflows_windowAfter_iff at_k from_j).mp overflows
  have exceeds : UInt32.size - 1 < k + 1 - j + 1 := by
    have := Nat.le_of_dvd (by omega) (Nat.dvd_of_mod_eq_zero full)
    simp only [UInt32.size] at this ⊢
    omega
  obtain ⟨many, close⟩ := (from_j.exceeds_iff (UInt32.size - 1)).mp exceeds
  refine ⟨largest_of_overflows inside on overflows, spill.1, inside, many, ?_, close⟩
  intro i round' hi at_i
  by_cases hlast : i = k
  · subst hlast
    rwa [Option.some.inj (at_i.symm.trans at_k)]
  · exact (crash_of_not_endsWith at_i (on i (by omega))).1

/-- A full row overflows at the crash that fills it. -/
theorem overflowsAt_of_endsFullRow (since : Nat) (s : Signals)
    (largest : threshold.toNat = UInt32.size - 1) (row : EndsFullRow o resetAfter rounds k) :
    ∃ i, i ≤ k ∧ OverflowsAt o (.start since resetAfter threshold) s rounds i := by
  obtain ⟨j, from_j⟩ := exists_countsFrom_of_lt resetAfter row.inside
  have many : UInt32.size - 1 < k + 1 - j + 1 :=
    (from_j.exceeds_iff (UInt32.size - 1)).mpr ⟨row.many, row.close⟩
  -- the row may go on after the crash that fills the count
  obtain ⟨i, fills⟩ : ∃ i, i + 1 = j + (UInt32.size - 1) := ⟨j + (UInt32.size - 2), rfl⟩
  have pos := from_j.pos
  have within : i ≤ k := by
    simp only [UInt32.size] at many fills
    omega
  have number : i + 1 - j + 1 = UInt32.size := by
    simp only [UInt32.size] at fills ⊢
    omega
  obtain ⟨round, at_i⟩ : ∃ round, rounds[i]? = some round :=
    ⟨_, List.getElem?_eq_getElem (Nat.lt_of_le_of_lt within row.inside)⟩
  have on : GoesOn o (.start since resetAfter threshold) rounds i :=
    goesOn_of_largest largest row.heard
      fun m round hm at_m => row.up m round (Nat.le_trans (Nat.le_of_lt hm) within) at_m
  have told := (records_iff row.heard (s := s)).mp
    ⟨on, row.heard, round, at_i, row.up i round within at_i⟩
  refine ⟨i, within, row.heard, told, round, at_i, ?_⟩
  rw [overflows_windowAfter_iff at_i (from_j.upTo (by omega) (by omega)), number]
  exact Nat.mod_self _

/-- The crash that is too many for the count is not too many for the threshold. -/
theorem goesOn_of_overflowsAt
    (spill : OverflowsAt o (.start since resetAfter threshold) s rounds k) :
    (windowAfter (.start since resetAfter threshold) rounds (k + 1)).consecutive = 0 ∧
      GoesOn o (.start since resetAfter threshold) rounds (k + 1) := by
  obtain ⟨largest, row⟩ := endsFullRow_of_overflowsAt spill
  obtain ⟨-, round, at_k, -, overflows⟩ := spill.crash
  constructor
  · rw [windowAfter_succ _ at_k]
    exact CrashWindow.record_of_overflows overflows
  · exact goesOn_of_largest largest row.heard
      fun i round hi at_i => row.up i round (Nat.le_of_lt_succ hi) at_i

/-- The count of a task runs over just when its threshold is the largest there is and more crashes
than a count can hold follow each other within the window. It goes back to nothing then, and the
task goes on. -/
theorem count_overflows_iff (o : Observer) (since resetAfter : Nat) (threshold : UInt32)
    (s : Signals) (rounds : List Round) :
    ((∃ k, OverflowsAt o (.start since resetAfter threshold) s rounds k) ↔
        threshold.toNat = UInt32.size - 1 ∧ ∃ k, EndsFullRow o resetAfter rounds k) ∧
      ∀ k, OverflowsAt o (.start since resetAfter threshold) s rounds k →
        (windowAfter (.start since resetAfter threshold) rounds (k + 1)).consecutive = 0 ∧
          GoesOn o (.start since resetAfter threshold) rounds (k + 1) := by
  refine ⟨⟨?spill, ?row⟩, fun k spill => goesOn_of_overflowsAt spill⟩
  case spill =>
    rintro ⟨k, spill⟩
    obtain ⟨largest, row⟩ := endsFullRow_of_overflowsAt spill
    exact ⟨largest, k, row⟩
  case row =>
    rintro ⟨largest, k, row⟩
    obtain ⟨i, -, spill⟩ := overflowsAt_of_endsFullRow since s largest row
    exact ⟨i, spill⟩

/-- A round that ends at once, as all of them do when a listener accepts nothing any more. -/
def brief : Round := { endedAt := 0, failure := some "too many open files" }

theorem endsFullRow_brief (resetAfter : Nat) :
    EndsFullRow {} resetAfter (List.replicate UInt32.size brief) (UInt32.size - 1) where
  heard := rfl
  inside := by
    rw [List.length_replicate]
    decide
  many := Nat.lt_succ_self _
  up := by
    intro i round _ at_i
    rw [List.eq_of_mem_replicate (List.mem_of_getElem? at_i)]
    rfl
  close := by
    intro i _ _
    have at_once : ∀ m, (List.replicate UInt32.size 0).getD m 0 = 0 := by
      intro m
      rw [List.getD_eq_getElem?_getD, List.getElem?_replicate]
      split <;> rfl
    rw [List.map_replicate, CrashWindow.gapBefore]
    change (List.replicate UInt32.size 0).getD (i - 1) 0 - _ ≤ resetAfter
    rw [at_once]
    omega

/-- With the largest threshold the last of as many crashes at one time as a count has values is
recorded, and runs over. -/
theorem count_overflows_at_largest :
    OverflowsAt {} (.start 0 3600000000000 4294967295) .quiet
      (List.replicate UInt32.size brief) (UInt32.size - 1) := by
  have largest : (4294967295 : UInt32).toNat = UInt32.size - 1 := by decide
  obtain ⟨i, within, spill⟩ :=
    overflowsAt_of_endsFullRow 0 .quiet largest (endsFullRow_brief 3600000000000)
  have many := (endsFullRow_of_overflowsAt spill).2.many
  obtain rfl : i = UInt32.size - 1 := by omega
  exact spill

end Serving

end PluginKit
