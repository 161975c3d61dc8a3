import PluginKit.Lifecycle.CrashWindow

/-!
# What a crash window counts

The count after a crash goes back to the last crash that came too late after the one before it, or
to the first of all. So a window escalates when the last gaps, as many as its threshold, were all
short. When a server began to serve has no part in it: the first crash counts one in any case.
-/

namespace PluginKit

namespace CrashWindow

/-! ## The window after some of the crashes -/

def afterFirst (w : CrashWindow) (times : List Nat) (n : Nat) : CrashWindow :=
  (times.take n).foldl record w

theorem afterFirst_succ (w : CrashWindow) {times : List Nat} {n : Nat} (h : n < times.length) :
    w.afterFirst times (n + 1) = (w.afterFirst times n).record times[n] := by
  unfold afterFirst
  rw [List.take_succ_eq_append_getElem h, List.foldl_append]
  rfl

theorem recordAll_getElem? (w : CrashWindow) {times : List Nat} {n : Nat} (h : n < times.length) :
    (w.recordAll times)[n]? = some (w.afterFirst times (n + 1)) := by
  induction times generalizing w n with
  | nil => exact absurd h (Nat.not_lt_zero n)
  | cons now rest ih =>
      cases n with
      | zero => rfl
      | succ n => exact ih (w.record now) (Nat.lt_of_succ_lt_succ h)

/-- A window changes its count and the time of its last crash only. -/
theorem afterFirst_settings (w : CrashWindow) (times : List Nat) (n : Nat) :
    (w.afterFirst times n).resetAfter = w.resetAfter ∧
      (w.afterFirst times n).threshold = w.threshold := by
  unfold afterFirst
  induction times.take n generalizing w with
  | nil => exact ⟨rfl, rfl⟩
  | cons now rest ih => exact ih (w.record now)

theorem afterFirst_lastCrash (w : CrashWindow) {times : List Nat} {n : Nat}
    (h : n < times.length) : (w.afterFirst times (n + 1)).lastCrash = times[n] := by
  rw [afterFirst_succ w h]
  rfl

/-- The first crash of a fresh window counts one, however late it comes. -/
theorem record_start (since since' resetAfter : Nat) (threshold : UInt32) (now : Nat) :
    (start since resetAfter threshold).record now =
      (start since' resetAfter threshold).record now := by
  simp [record, start]

/-! ## Where a count goes back to -/

/-- The gap before the `n`-th of several crashes, which are counted from one. -/
def gapBefore (times : List Nat) (n : Nat) : Nat :=
  times.getD (n - 1) 0 - times.getD (n - 2) 0

/-- The count after the `n`-th crash goes back to the `j`-th: the last one whose gap was too long,
the first one if there is none. -/
structure CountsFrom (resetAfter : Nat) (times : List Nat) (n j : Nat) : Prop where
  pos : 1 ≤ j
  le : j ≤ n
  anew : j = 1 ∨ resetAfter < gapBefore times j
  since : ∀ i, j < i → i ≤ n → gapBefore times i ≤ resetAfter

variable {resetAfter n j : Nat} {times : List Nat}

theorem CountsFrom.first : CountsFrom resetAfter times 1 1 := by
  refine ⟨Nat.le_refl 1, Nat.le_refl 1, .inl rfl, ?_⟩
  intro i h h'
  omega

theorem CountsFrom.again (pos : 1 ≤ n) (late : resetAfter < gapBefore times n) :
    CountsFrom resetAfter times n n := by
  refine ⟨pos, Nat.le_refl n, .inr late, ?_⟩
  intro i h h'
  omega

theorem CountsFrom.next (h : CountsFrom resetAfter times n j)
    (early : gapBefore times (n + 1) ≤ resetAfter) : CountsFrom resetAfter times (n + 1) j := by
  refine ⟨h.pos, Nat.le_succ_of_le h.le, h.anew, ?_⟩
  intro i hi hn
  by_cases hlast : i = n + 1
  · rw [hlast]
    exact early
  · exact h.since i hi (by omega)

/-- Between the crash that a count goes back to and the last one, it goes back no further. -/
theorem CountsFrom.upTo {m : Nat} (h : CountsFrom resetAfter times n j) (behind : j ≤ m)
    (within : m ≤ n) : CountsFrom resetAfter times m j := by
  refine ⟨h.pos, behind, h.anew, ?_⟩
  intro i hi hm
  exact h.since i hi (Nat.le_trans hm within)

theorem CountsFrom.not_lt {j' : Nat} (h : CountsFrom resetAfter times n j)
    (h' : CountsFrom resetAfter times n j') : ¬j < j' := by
  intro later
  have pos := h.pos
  cases h'.anew with
  | inl first => omega
  | inr late =>
      have short := h.since j' later h'.le
      omega

theorem CountsFrom.unique {j' : Nat} (h : CountsFrom resetAfter times n j)
    (h' : CountsFrom resetAfter times n j') : j = j' :=
  Nat.le_antisymm (Nat.le_of_not_lt (h'.not_lt h)) (Nat.le_of_not_lt (h.not_lt h'))

/-- A count exceeds a threshold just when as many gaps before it were short. -/
theorem CountsFrom.exceeds_iff (h : CountsFrom resetAfter times n j) (threshold : Nat) :
    threshold < n - j + 1 ↔
      threshold < n ∧ ∀ i, n - threshold < i → i ≤ n → gapBefore times i ≤ resetAfter := by
  have pos := h.pos
  have le := h.le
  constructor
  · intro many
    refine ⟨by omega, ?_⟩
    intro i hi hn
    exact h.since i (by omega) hn
  · rintro ⟨many, short⟩
    -- were the count too low, the gap it goes back to would be one of the last
    by_cases few : n - threshold < j
    · cases h.anew with
      | inl first => omega
      | inr late =>
          have := short j few le
          omega
    · omega

/-! ## The count -/

/-- The gap that a window sees is the one before the crash. -/
theorem gap_afterFirst (w : CrashWindow) (h : n + 1 < times.length) :
    (w.afterFirst times (n + 1)).gap times[n + 1] = gapBefore times (n + 2) := by
  have last := afterFirst_lastCrash w (Nat.lt_of_succ_lt h)
  simp only [gap, last, gapBefore, Nat.add_sub_cancel, Nat.add_one_sub_one,
    List.getD_eq_getElem?_getD, List.getElem?_eq_getElem h,
    List.getElem?_eq_getElem (Nat.lt_of_succ_lt h), Option.getD_some]

/-- The count is that of the crashes it goes back to, as far as it can hold them. -/
theorem exists_countsFrom_mod (since resetAfter : Nat) (threshold : UInt32)
    (h : n < times.length) :
    ∃ j, CountsFrom resetAfter times (n + 1) j ∧
      ((start since resetAfter threshold).afterFirst times (n + 1)).consecutive.toNat =
        (n + 1 - j + 1) % UInt32.size := by
  induction n with
  | zero =>
      refine ⟨1, .first, ?_⟩
      rw [afterFirst_succ _ h]
      simp [afterFirst, start, record, UInt32.size]
  | succ n ih =>
      obtain ⟨j, from_j, counted⟩ := ih (Nat.lt_of_succ_lt h)
      have le := from_j.le
      rw [afterFirst_succ _ h]
      simp only [record, gap_afterFirst _ h, (afterFirst_settings _ times (n + 1)).1]
      by_cases late : resetAfter < gapBefore times (n + 2)
      · refine ⟨n + 2, .again (by omega) late, ?_⟩
        rw [if_pos (show (start since resetAfter threshold).resetAfter < _ from late)]
        simp [UInt32.size]
      · refine ⟨j, from_j.next (Nat.le_of_not_lt late), ?_⟩
        rw [if_neg (show ¬(start since resetAfter threshold).resetAfter < _ from late),
          UInt32.toNat_add, UInt32.toNat_one, counted]
        simp only [UInt32.size]
        omega

/-- As long as there is room for one more, the count is that of the crashes it goes back to. -/
theorem exists_countsFrom (since resetAfter : Nat) (threshold : UInt32) (h : n < times.length)
    (room : ∀ m, m < n → ((start since resetAfter threshold).afterFirst times
      (m + 1)).consecutive.toNat + 1 < UInt32.size) :
    ∃ j, CountsFrom resetAfter times (n + 1) j ∧
      ((start since resetAfter threshold).afterFirst times (n + 1)).consecutive.toNat =
        n + 1 - j + 1 := by
  obtain ⟨j, from_j, counted⟩ := exists_countsFrom_mod since resetAfter threshold h
  refine ⟨j, from_j, ?_⟩
  rw [counted]
  refine Nat.mod_eq_of_lt (Nat.lt_of_not_le fun many => ?_)
  -- the count was full at a crash on the way
  obtain ⟨m, full⟩ : ∃ m, m + 1 = j + (UInt32.size - 2) := ⟨j + (UInt32.size - 3), rfl⟩
  have inside : m < n := by
    simp only [UInt32.size] at full many
    omega
  obtain ⟨j', from_j', counted'⟩ :=
    exists_countsFrom_mod since resetAfter threshold (Nat.lt_trans inside h)
  obtain rfl : j' = j := from_j'.unique (from_j.upTo (by omega) (by omega))
  have more := room m inside
  rw [counted'] at more
  simp only [UInt32.size] at full more
  omega

/-- Fewer crashes than a count can hold leave room for one more. -/
theorem room_of_few (since resetAfter : Nat) (threshold : UInt32) (h : n < times.length)
    (few : n + 1 < UInt32.size - 1) :
    ((start since resetAfter threshold).afterFirst times (n + 1)).consecutive.toNat + 1 <
      UInt32.size := by
  induction n using Nat.strongRecOn with
  | ind n ih =>
      obtain ⟨j, from_j, counted⟩ := exists_countsFrom since resetAfter threshold h
        fun m hm => ih m hm (by omega) (by omega)
      have pos := from_j.pos
      omega

/-- A window whose count goes back to a crash escalates just when the last gaps were short. -/
theorem escalates_iff {w : CrashWindow} (h : CountsFrom resetAfter times n j)
    (counted : w.consecutive.toNat = n - j + 1) :
    w.escalates = true ↔ w.threshold.toNat < n ∧
      ∀ i, n - w.threshold.toNat < i → i ≤ n → gapBefore times i ≤ resetAfter := by
  rw [← h.exceeds_iff, ← counted, escalates, decide_eq_true_iff, UInt32.lt_iff_toNat_lt]

/-- After the `n`-th crash a window escalates just when there were more crashes than its threshold
and the last gaps, as many as the threshold, were all short; and its count goes back to the last
crash after a gap that was too long. None of it depends on when serving began. -/
theorem escalates_iff_last_gaps_short (since resetAfter : Nat) (threshold : UInt32)
    (times : List Nat) :
    (∀ n, 1 ≤ n → n ≤ times.length → n < UInt32.size →
      ∃ w, ((start since resetAfter threshold).recordAll times)[n - 1]? = some w ∧
        (w.escalates = true ↔ threshold.toNat < n ∧
          ∀ i, n - threshold.toNat < i → i ≤ n → gapBefore times i ≤ resetAfter) ∧
        ∃ j, CountsFrom resetAfter times n j ∧ w.consecutive.toNat = n - j + 1) ∧
      ∀ since', (start since' resetAfter threshold).recordAll times =
        (start since resetAfter threshold).recordAll times := by
  constructor
  · intro n pos le few
    obtain ⟨n, rfl⟩ : ∃ m, n = m + 1 := ⟨n - 1, by omega⟩
    obtain ⟨j, from_j, counted⟩ := exists_countsFrom since resetAfter threshold le
      fun m hm => room_of_few since resetAfter threshold (by omega) (by omega)
    refine ⟨_, recordAll_getElem? _ le, ?_, j, from_j, counted⟩
    have iff := escalates_iff from_j counted
    rw [(afterFirst_settings _ times (n + 1)).2] at iff
    exact iff
  · intro since'
    cases times with
    | nil => rfl
    | cons now rest => simp only [recordAll, record_start since' since]

/-- A gap of exactly the window and a clock that goes back both count, so the fourth crash is one
too many, whenever serving began. -/
theorem escalates_iff_last_gaps_short_backwards :
    1 ≤ 4 ∧ 4 ≤ [5, 15, 12, 22, 33].length ∧ 4 < UInt32.size ∧
      (∃ w, ((start 0 10 3).recordAll [5, 15, 12, 22, 33])[3]? = some w ∧ w.escalates = true ∧
        ∃ j, CountsFrom 10 [5, 15, 12, 22, 33] 4 j ∧ w.consecutive.toNat = 4 - j + 1) ∧
      (start 90 10 3).recordAll [5, 15, 12, 22, 33] =
        (start 0 10 3).recordAll [5, 15, 12, 22, 33] := by
  have all := escalates_iff_last_gaps_short 0 10 3 [5, 15, 12, 22, 33]
  obtain ⟨w, fourth, escalates_iff, counted⟩ :=
    all.1 4 (by decide) (by decide) (by decide)
  have short : ∀ i, 1 < i → i ≤ 4 → gapBefore [5, 15, 12, 22, 33] i ≤ 10 := by
    intro i hi hle
    have : i = 2 ∨ i = 3 ∨ i = 4 := by omega
    rcases this with rfl | rfl | rfl <;> decide
  exact ⟨by decide, by decide, by decide,
    ⟨w, fourth, escalates_iff.mpr ⟨by decide, short⟩, counted⟩, all.2 90⟩

end CrashWindow

end PluginKit
