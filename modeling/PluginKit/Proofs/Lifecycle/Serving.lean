import PluginKit.Lifecycle.Serving
import PluginKit.Proofs.Lifecycle.CrashWindow

/-!
# What a serving task reports

A serving task goes on as long as its rounds are crashes that its window bears. It ends with the
first round that is shut down, or with the first crash too many, and says on its way what it has to
say once: one restart for each crash, and one crash loop with one request at an escalation.
-/

namespace PluginKit

namespace Serving

variable {o : Observer} {w : CrashWindow} {s : Signals} {rounds : List Round} {round : Round}
  {k : Nat}

/-! ## Where a task ends -/

def requested (s : Signals) (rounds : List Round) : Signals :=
  rounds.foldl (fun s round => round.requests.foldl Signals.apply s) s

/-- The window after the first `n` rounds, when all of them were crashes. -/
def windowAfter (w : CrashWindow) (rounds : List Round) (n : Nat) : CrashWindow :=
  w.afterFirst (rounds.map Round.endedAt) n

/-- A task ends with a round after which it is shut down, with a crash that its observer does not
bear to be told of, and with a crash on which its window escalates. -/
def EndsWith (o : Observer) (w : CrashWindow) (rounds : List Round) (k : Nat) : Prop :=
  ∃ round, rounds[k]? = some round ∧ (round.shutDown = true ∨
    o.panics .serverRestart = true ∨ (windowAfter w rounds (k + 1)).escalates = true)

/-- No round before the `k`-th ends the task. -/
def GoesOn (o : Observer) (w : CrashWindow) (rounds : List Round) (k : Nat) : Prop :=
  ∀ j, j < k → ¬EndsWith o w rounds j

def Run.afterCrashes (r : Run) (k : Nat) : Run :=
  { r with rounds := k + r.rounds, metrics := List.replicate k .serverRestart ++ r.metrics }

/-! ## One round, and many -/

theorem windowAfter_succ (w : CrashWindow) (h : rounds[k]? = some round) :
    windowAfter w rounds (k + 1) = (windowAfter w rounds k).record round.endedAt := by
  obtain ⟨inside, rfl⟩ := List.getElem?_eq_some_iff.mp h
  unfold windowAfter
  rw [CrashWindow.afterFirst_succ w (by rw [List.length_map]; exact inside), List.getElem_map]

theorem requested_take_succ (s : Signals) (h : rounds[k]? = some round) :
    requested s (rounds.take (k + 1)) =
      round.requests.foldl Signals.apply (requested s (rounds.take k)) := by
  obtain ⟨inside, rfl⟩ := List.getElem?_eq_some_iff.mp h
  unfold requested
  rw [List.take_succ_eq_append_getElem inside, List.foldl_append]
  rfl

theorem drop_of_getElem? (h : rounds[k]? = some round) :
    rounds.drop k = round :: rounds.drop (k + 1) := by
  obtain ⟨inside, rfl⟩ := List.getElem?_eq_some_iff.mp h
  exact List.drop_eq_getElem_cons inside

/-- A round that does not end the task adds one crash and one metric. -/
theorem run_cons_of_crash {rest : List Round} (up : round.shutDown = false)
    (heard : o.panics .serverRestart = false)
    (borne : (w.record round.endedAt).escalates = false) :
    run o w s (round :: rest) =
      (run o (w.record round.endedAt) (round.requests.foldl Signals.apply s) rest).after
        [.serverRestart] := by
  simp only [run, up, heard, borne, Bool.false_eq_true, if_false]

theorem Run.after_afterCrashes (r : Run) (k : Nat) :
    (r.after [.serverRestart]).afterCrashes k = r.afterCrashes (k + 1) := by
  simp only [Run.after, Run.afterCrashes, Run.mk.injEq, and_true]
  refine ⟨by omega, ?_⟩
  rw [← List.append_assoc, ← List.replicate_succ']

/-- A round that does not end the task is a crash that is told of and borne. -/
theorem crash_of_not_endsWith (h : rounds[k]? = some round) (stays : ¬EndsWith o w rounds k) :
    round.shutDown = false ∧ o.panics .serverRestart = false ∧
      (windowAfter w rounds (k + 1)).escalates = false := by
  refine ⟨Bool.eq_false_iff.mpr ?_, Bool.eq_false_iff.mpr ?_, Bool.eq_false_iff.mpr ?_⟩
  · intro down
    exact stays ⟨round, h, .inl down⟩
  · intro panics
    exact stays ⟨round, h, .inr (.inl panics)⟩
  · intro many
    exact stays ⟨round, h, .inr (.inr many)⟩

/-- As long as nothing ends the task, it has gone through a crash a round, and goes on from where
its window and its signals are by then. -/
theorem run_of_goesOn (le : k ≤ rounds.length) (h : GoesOn o w rounds k) :
    run o w s rounds = (run o (windowAfter w rounds k) (requested s (rounds.take k))
      (rounds.drop k)).afterCrashes k := by
  induction k with
  | zero => simp [windowAfter, CrashWindow.afterFirst, requested, Run.afterCrashes]
  | succ k ih =>
      rw [ih (Nat.le_of_succ_le le) fun j hj => h j (Nat.lt_succ_of_lt hj)]
      have inside : rounds[k]? = some rounds[k] := List.getElem?_eq_getElem le
      obtain ⟨up, heard, borne⟩ := crash_of_not_endsWith inside (h k (Nat.lt_succ_self k))
      rw [windowAfter_succ w inside] at borne
      rw [drop_of_getElem? inside, run_cons_of_crash up heard borne, Run.after_afterCrashes,
        windowAfter_succ w inside, requested_take_succ s inside]

/-! ## The account of a run -/

/-- What a run has done, by the first round that ends the task. -/
structure Accounts (o : Observer) (w : CrashWindow) (s : Signals) (rounds : List Round)
    (r : Run) : Prop where
  /-- Without such a round the task serves on. -/
  serves : GoesOn o w rounds rounds.length →
    r = ⟨rounds.length, List.replicate rounds.length .serverRestart, requested s rounds, none⟩
  /-- A round that is shut down is no crash, whatever failed in it, and no restart is asked for. -/
  shutDown : ∀ k round, GoesOn o w rounds k → rounds[k]? = some round → round.shutDown = true →
    r = ⟨k + 1, List.replicate k .serverRestart, requested s (rounds.take (k + 1)),
      some .shutDown⟩
  /-- A crash too many is told as a crash and as a crash loop, and asks once for a restart, which
  is accepted unless a stop was requested. -/
  escalates : ∀ k round, GoesOn o w rounds k → rounds[k]? = some round →
    round.shutDown = false → (windowAfter w rounds (k + 1)).escalates = true →
    o.panics .serverRestart = false → o.panics .crashLoop = false →
    r = ⟨k + 1, List.replicate (k + 1) .serverRestart ++ [.crashLoop],
      (requested s (rounds.take (k + 1))).requestRestart.1,
      some (.escalated (!(requested s (rounds.take (k + 1))).stopped))⟩
  /-- An observer that panics at a crash ends the task there. -/
  unheard : ∀ k round, GoesOn o w rounds k → rounds[k]? = some round →
    round.shutDown = false → o.panics .serverRestart = true →
    r = ⟨k + 1, List.replicate (k + 1) .serverRestart, requested s (rounds.take (k + 1)),
      some .panicked⟩
  /-- An observer that panics at a crash loop ends the task before it asks for a restart. -/
  unheeded : ∀ k round, GoesOn o w rounds k → rounds[k]? = some round →
    round.shutDown = false → (windowAfter w rounds (k + 1)).escalates = true →
    o.panics .serverRestart = false → o.panics .crashLoop = true →
    r = ⟨k + 1, List.replicate (k + 1) .serverRestart ++ [.crashLoop],
      requested s (rounds.take (k + 1)), some .panicked⟩

theorem requestRestart_snd (s : Signals) : s.requestRestart.2 = !s.stopped := by
  cases h : s.stopped <;> simp [Signals.requestRestart, h]

/-- A run that comes to a round is the run from that round on, after crashes only. -/
theorem run_at (on : GoesOn o w rounds k) (h : rounds[k]? = some round) :
    run o w s rounds = (run o (windowAfter w rounds k) (requested s (rounds.take k))
      (round :: rounds.drop (k + 1))).afterCrashes k := by
  obtain ⟨inside, -⟩ := List.getElem?_eq_some_iff.mp h
  rw [run_of_goesOn (Nat.le_of_lt inside) on, drop_of_getElem? h]

theorem accounts (o : Observer) (w : CrashWindow) (s : Signals) (rounds : List Round) :
    Accounts o w s rounds (run o w s rounds) where
  serves on := by
    rw [run_of_goesOn (Nat.le_refl _) on, List.drop_length, List.take_length]
    simp [run, Run.afterCrashes]
  shutDown k round on at_k down := by
    rw [run_at on at_k, requested_take_succ s at_k]
    simp [run, down, lastRound, Run.afterCrashes]
  escalates k round on at_k up many heard heeded := by
    rw [windowAfter_succ w at_k] at many
    rw [run_at on at_k, requested_take_succ s at_k]
    simp [run, up, heard, heeded, many, lastRound, Run.afterCrashes, requestRestart_snd,
      List.replicate_succ']
  unheard k round on at_k up panics := by
    rw [run_at on at_k, requested_take_succ s at_k]
    simp [run, up, panics, lastRound, Run.afterCrashes, List.replicate_succ']
  unheeded k round on at_k up many heard panics := by
    rw [windowAfter_succ w at_k] at many
    rw [run_at on at_k, requested_take_succ s at_k]
    simp [run, up, heard, panics, many, lastRound, Run.afterCrashes, List.replicate_succ']

/-! ## The count of crashes on the way -/

/-- As long as a task goes on, its window counts no more crashes than its threshold. -/
theorem consecutive_le_of_goesOn (inside : k < rounds.length)
    (on : GoesOn o w rounds (k + 1)) :
    (windowAfter w rounds (k + 1)).consecutive.toNat ≤ w.threshold.toNat := by
  have few := (crash_of_not_endsWith (List.getElem?_eq_getElem inside)
    (on k (Nat.lt_succ_self k))).2.2
  have same := (w.afterFirst_settings (rounds.map Round.endedAt) (k + 1)).2
  rw [CrashWindow.escalates, decide_eq_false_iff_not, UInt32.not_lt, UInt32.le_iff_toNat_le] at few
  rw [← same]
  exact few

/-- A serving task ends with the first round that is shut down or escalates, and accounts for the
rounds until then. Until then its count is that of the crashes in a row, which never wraps. -/
theorem run_accounts_for_rounds (o : Observer) (since resetAfter : Nat) (threshold : UInt32)
    (below : threshold.toNat < UInt32.size - 1) (s : Signals) (rounds : List Round) :
    Accounts o (.start since resetAfter threshold) s rounds
        (run o (.start since resetAfter threshold) s rounds) ∧
      ∀ k, k < rounds.length → GoesOn o (.start since resetAfter threshold) rounds k →
        ∃ j, CrashWindow.CountsFrom resetAfter (rounds.map Round.endedAt) (k + 1) j ∧
          (windowAfter (.start since resetAfter threshold) rounds (k + 1)).consecutive.toNat =
            k + 1 - j + 1 := by
  refine ⟨accounts o _ s rounds, ?_⟩
  intro k inside on
  apply CrashWindow.exists_countsFrom since resetAfter threshold
    (by rw [List.length_map]; exact inside)
  intro m hm
  have few := consecutive_le_of_goesOn (Nat.lt_trans hm inside)
    fun j hj => on j (Nat.lt_of_lt_of_le hj hm)
  change (windowAfter _ rounds (m + 1)).consecutive.toNat + 1 < UInt32.size
  change _ ≤ threshold.toNat at few
  omega

/-- The gap before the second crash starts the count anew, so the third is one too many. A stop
requested in that round refuses the restart. -/
theorem run_accounts_for_rounds_refused :
    (1 : UInt32).toNat < UInt32.size - 1 ∧
      run {} (.start 0 10 1) .quiet [⟨5, some "too many open files", false, []⟩,
          ⟨20, none, false, []⟩, ⟨30, none, false, [.stop]⟩, ⟨31, none, true, []⟩] =
        ⟨3, [.serverRestart, .serverRestart, .serverRestart, .crashLoop], Signals.quiet.requestStop,
          some (.escalated false)⟩ := by
  have below : (1 : UInt32).toNat < UInt32.size - 1 := by decide
  have on : GoesOn {} (.start 0 10 1) [⟨5, some "too many open files", false, []⟩,
      ⟨20, none, false, []⟩, ⟨30, none, false, [.stop]⟩, ⟨31, none, true, []⟩] 2 := by
    intro j hj
    have : j = 0 ∨ j = 1 := by omega
    rcases this with rfl | rfl
    all_goals
      rintro ⟨round, hround, ends⟩
      cases hround
      revert ends
      decide
  exact ⟨below, (run_accounts_for_rounds {} 0 10 1 below .quiet _).1.escalates 2 _ on rfl rfl
    (by decide) (by decide) (by decide)⟩

end Serving

end PluginKit
