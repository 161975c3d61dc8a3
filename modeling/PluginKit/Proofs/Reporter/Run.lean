import PluginKit.Plugin.ReporterStub

/-!
# Runs of a reporter stub

Things are done to a stub one after the other, and after each of them the tasks of its watches
run until they have nothing to do. The log of a run holds what was done, with the answers. After
each action the stub is at rest: those of its tasks that still forward have looked at every
update, and they are the ones whose token is the stub's own.
-/

namespace PluginKit

namespace ReporterStub

/-- What can be done to a stub. Updates that are sent in a row are one action. -/
inductive Action where
  | start
  | stop
  | update (batch : List Contents)
  | watch (id : String)
  | drop (id : String)
  | next (id : String)

inductive Answer where
  | done
  | counted (counts : List Nat)
  | opened
  | refused
  | dropped (existed : Bool)
  | got (item : Option WatchItem)

abbrev Entry := Action × Answer

/-- The stub after an action, before any task has run. -/
def act (s : ReporterStub) : Action → ReporterStub × Answer
  | .start => (s.start, .done)
  | .stop => (s.stop, .done)
  | .update batch => ((s.updateAll batch).1, .counted (s.updateAll batch).2)
  | .watch id =>
      match s.watch? id with
      | some s' => (s', .opened)
      | none => (s, .refused)
  | .drop id => ((s.drop id).1, .dropped (s.drop id).2)
  | .next id => ((s.next id).1, .got (s.next id).2)

def step (s : ReporterStub) (a : Action) : ReporterStub × Answer :=
  ((s.act a).1.settle, (s.act a).2)

def after (s : ReporterStub) : List Action → ReporterStub
  | [] => s
  | a :: rest => (s.step a).1.after rest

def log (s : ReporterStub) : List Action → List Entry
  | [] => []
  | a :: rest => (a, (s.step a).2) :: (s.step a).1.log rest

/-- What every step keeps of a log and the stub behind it, every run keeps. -/
theorem after_keeps {P : List Entry → ReporterStub → Prop}
    (hstep : ∀ {before : List Entry} {s : ReporterStub} (a : Action),
      P before s → P (before ++ [(a, (s.step a).2)]) (s.step a).1)
    {s : ReporterStub} (h : P [] s) (actions : List Action) :
    P (s.log actions) (s.after actions) := by
  suffices hlater : ∀ before : List Entry, P before s →
      P (before ++ s.log actions) (s.after actions) from hlater [] h
  clear h
  induction actions generalizing s with
  | nil => simp [log, after]
  | cons a rest ih =>
      intro before h
      have hnext := ih _ (hstep a h)
      simpa [log, after, List.append_assoc] using hnext

/-! ## The last items of a list -/

section Last

variable {α : Type} (n : Nat) (xs ys : List α)

theorem lastOf_zero : lastOf 0 xs = [] := by simp [lastOf]

theorem length_lastOf : (lastOf n xs).length = min n xs.length := by
  simp only [lastOf, List.length_drop]
  omega

theorem lastOf_of_length_le (h : xs.length ≤ n) : lastOf n xs = xs := by
  have hzero : xs.length - n = 0 := by omega
  simp [lastOf, hzero]

theorem lastOf_append_of_le (h : n ≤ ys.length) : lastOf n (xs ++ ys) = lastOf n ys := by
  have hskip : (xs ++ ys).length - n = xs.length + (ys.length - n) := by
    rw [List.length_append]
    omega
  rw [lastOf, hskip, List.drop_append]
  simp [lastOf]

theorem lastOf_lastOf (m : Nat) : lastOf m (lastOf n xs) = lastOf (min m n) xs := by
  simp only [lastOf, List.drop_drop, List.length_drop]
  congr 1
  omega

theorem lastOf_lastOf_append : lastOf n (lastOf n xs ++ ys) = lastOf n (xs ++ ys) := by
  by_cases h : xs.length ≤ n
  · rw [lastOf_of_length_le n xs h]
  · have hlength : (lastOf n xs).length = n := by
      rw [length_lastOf]
      omega
    -- What was cut off lies before the last `n` items of the longer list, too.
    have hsplit : xs.take (xs.length - n) ++ lastOf n xs = xs := List.take_append_drop _ _
    calc
      lastOf n (lastOf n xs ++ ys) =
          lastOf n (xs.take (xs.length - n) ++ (lastOf n xs ++ ys)) := by
            rw [lastOf_append_of_le n _ (lastOf n xs ++ ys)]
            rw [List.length_append]
            omega
      _ = lastOf n (xs ++ ys) := by rw [← List.append_assoc, hsplit]

end Last

/-! ## Updates -/

variable {s : ReporterStub} {w : Watch} {id : String}

theorem update_of_receivers (h : s.receivers ≠ 0) (contents : Contents) :
    s.update contents =
      ({ s with sent := s.sent + 1, buffer := lastOf bufferSize (s.buffer ++ [contents]) },
        s.receivers) := by
  simp [update, h]

theorem updateAll_of_no_receivers (h : s.receivers = 0) (batch : List Contents) :
    s.updateAll batch = (s, List.replicate batch.length 0) := by
  induction batch with
  | nil => rfl
  | cons contents rest ih => simp [updateAll, update, h, ih, List.replicate_succ]

/-- A batch is counted like one update, and as much of it is kept as the buffer holds. -/
theorem updateAll_of_receivers (h : s.receivers ≠ 0) (hkept : s.buffer.length ≤ bufferSize)
    (batch : List Contents) :
    s.updateAll batch =
      ({ s with sent := s.sent + batch.length, buffer := lastOf bufferSize (s.buffer ++ batch) },
        List.replicate batch.length s.receivers) := by
  induction batch generalizing s with
  | nil => simp [updateAll, lastOf_of_length_le _ _ hkept]
  | cons contents rest ih =>
      let s' : ReporterStub :=
        { s with sent := s.sent + 1, buffer := lastOf bufferSize (s.buffer ++ [contents]) }
      have hkept' : s'.buffer.length ≤ bufferSize := by
        rw [length_lastOf]
        omega
      have hrest := ih (s := s') h hkept'
      have hsum : s.sent + 1 + rest.length = s.sent + (rest.length + 1) := by omega
      rw [updateAll, update_of_receivers h]
      simp only [s'] at hrest
      simp only [hrest, lastOf_lastOf_append, List.append_assoc, List.cons_append,
        List.nil_append, List.length_cons, List.replicate_succ, hsum]
      rfl

theorem updateAll_counts (hkept : s.buffer.length ≤ bufferSize) (batch : List Contents) :
    (s.updateAll batch).2 = List.replicate batch.length s.receivers := by
  by_cases h : s.receivers = 0
  · rw [updateAll_of_no_receivers h, h]
  · rw [updateAll_of_receivers h hkept]

theorem updateAll_fst (s : ReporterStub) (batch : List Contents) :
    ∃ sent buffer, (s.updateAll batch).1 = { s with sent := sent, buffer := buffer } ∧
      (s.buffer.length ≤ bufferSize → buffer.length ≤ bufferSize) := by
  induction batch generalizing s with
  | nil => exact ⟨s.sent, s.buffer, rfl, id⟩
  | cons contents rest ih =>
      obtain ⟨sent, buffer, hrest, hkept⟩ := ih (s.update contents).1
      by_cases h : s.receivers = 0
      · rw [show s.update contents = (s, 0) by simp [update, h]] at hrest hkept
        exact ⟨sent, buffer, by simpa [updateAll, update, h] using hrest, hkept⟩
      · rw [update_of_receivers h] at hrest hkept
        refine ⟨sent, buffer, by simpa [updateAll, update, h] using hrest, fun _ => hkept ?_⟩
        rw [length_lastOf]
        omega

/-! ## The watch that is held under a name -/

def watchOf? (s : ReporterStub) (id : String) : Option Watch := s.watches.find? (isHeld id)

theorem isHeld_advance : isHeld id (s.advance w) = isHeld id w := by
  unfold advance
  split
  · rfl
  · split
    · rfl
    · dsimp only
      split <;> rfl

theorem watchOf?_settle (s : ReporterStub) (id : String) :
    s.settle.watchOf? id = (s.watchOf? id).map s.advance := by
  have hheld : (fun v : Watch => decide ((v.held || v.forwarding) = true ∧ isHeld id v = true)) =
      isHeld id := by
    funext v
    by_cases hid : v.id = id <;> cases hv : v.held <;> simp [isHeld, hv, hid]
  have hsame : isHeld id ∘ s.advance = isHeld id := funext fun _ => isHeld_advance
  simp only [watchOf?, settle, List.find?_filter, hheld, List.find?_map, hsame]

theorem isHeld_release_self (w : Watch) : isHeld id (release id w) = false := by
  by_cases h : w.id = id <;> simp [isHeld, release, h]

theorem find?_release_self (watches : List Watch) :
    (watches.map (release id)).find? (isHeld id) = none := by
  simp [List.find?_eq_none, isHeld_release_self]

theorem find?_release_of_ne {other : String} (h : other ≠ id) (watches : List Watch) :
    (watches.map (release other)).find? (isHeld id) = watches.find? (isHeld id) := by
  induction watches with
  | nil => rfl
  | cons v rest ih =>
      by_cases hv : v.id = other
      · have hne : v.id ≠ id := fun heq => h (hv.symm.trans heq)
        simpa [release, isHeld, hv, hne, h] using ih
      · simp [release, hv, List.find?_cons, ih]

theorem nextOf_self (id : String) (watches : List Watch) :
    (nextOf id watches).1.find? (isHeld id) =
        (watches.find? (isHeld id)).map (fun w => w.take.1) ∧
      (nextOf id watches).2 = (watches.find? (isHeld id)).map (fun w => w.take.2) := by
  induction watches with
  | nil => simp [nextOf]
  | cons v rest ih =>
      by_cases hv : isHeld id v = true
      · have htaken : isHeld id v.take.1 = true := by
          unfold Watch.take
          split <;> exact hv
        simp [nextOf, hv, htaken]
      · simp [nextOf, hv, ih]

theorem nextOf_of_ne {other : String} (h : other ≠ id) (watches : List Watch) :
    (nextOf other watches).1.find? (isHeld id) = watches.find? (isHeld id) := by
  induction watches with
  | nil => rfl
  | cons v rest ih =>
      by_cases hv : isHeld other v = true
      · have hid : v.id = other := by
          simp only [isHeld, Bool.and_eq_true, beq_iff_eq] at hv
          exact hv.2
        have hne : v.id ≠ id := fun heq => h (hid.symm.trans heq)
        have htaken : v.take.1.id = v.id := by
          unfold Watch.take
          split <;> rfl
        have hfirst : isHeld id v = false := by simp [isHeld, hne]
        have hfirst' : isHeld id v.take.1 = false := by simp [isHeld, htaken, hne]
        simp [nextOf, hv, hfirst, hfirst']
      · simp [nextOf, hv, List.find?_cons, ih]

/-! ## A stub at rest -/

/-- A watch whose task has nothing to do: it has looked at every update, or it has ended because
the stub was stopped. -/
structure AtRest (s : ReporterStub) (w : Watch) : Prop where
  held : w.held = true
  greeted : w.greeted = true
  issued : w.token < s.tokens
  forwarding_iff : w.forwarding = true ↔ s.token = some w.token
  caught_up : w.forwarding = true → w.cursor = s.sent

/-- What is true of a watch also before its task has run: only a watch whose token is no longer
the stub's own has a task that has ended. -/
structure Pending (s : ReporterStub) (w : Watch) : Prop where
  issued : w.token < s.tokens
  ended : w.forwarding = false → w.greeted = true ∧ s.token ≠ some w.token

structure Tokened (s : ReporterStub) : Prop where
  started : s.started = s.token.isSome
  issued : ∀ t, s.token = some t → t < s.tokens
  kept : s.buffer.length ≤ bufferSize

structure Settled (s : ReporterStub) : Prop extends Tokened s where
  rests : ∀ w ∈ s.watches, AtRest s w

theorem AtRest.pending (h : AtRest s w) : Pending s w := by
  refine ⟨h.issued, fun hended => ⟨h.greeted, fun htoken => ?_⟩⟩
  have hforwarding := h.forwarding_iff.mpr htoken
  simp [hended] at hforwarding

theorem AtRest.advance_eq (h : AtRest s w) : s.advance w = w := by
  obtain ⟨hheld, hgreeted, -, hiff, hcaught⟩ := h
  obtain ⟨id, token, cursor, greeted, held, forwarding, queue⟩ := w
  simp only at hheld hgreeted hiff hcaught
  subst hheld hgreeted
  cases forwarding with
  | false => rfl
  | true =>
      have hcursor : cursor = s.sent := hcaught rfl
      have htoken : s.token = some token := hiff.mp rfl
      simp [advance, htoken, hcursor, lastOf_zero]

theorem Pending.rests (h : Pending s w)
    (hkept : (s.advance w).held = true ∨ (s.advance w).forwarding = true) :
    AtRest s.settle (s.advance w) := by
  cases hforwarding : w.forwarding with
  | false =>
      have hsame : s.advance w = w := by simp [advance, hforwarding]
      have hheld : w.held = true := by simpa [hsame, hforwarding] using hkept
      obtain ⟨hgreeted, htoken⟩ := h.ended hforwarding
      rw [hsame]
      exact ⟨hheld, hgreeted, h.issued, by simp [hforwarding, settle, htoken],
        by simp [hforwarding]⟩
  | true =>
      cases hheld : w.held with
      | false => simp [advance, hforwarding, hheld] at hkept
      | true =>
          by_cases htoken : s.token = some w.token
          · simp only [advance, hforwarding, hheld, htoken, Bool.not_true, Bool.false_eq_true,
              if_false, ne_eq, not_true_eq_false]
            exact ⟨rfl, rfl, h.issued, by simp [settle, htoken], fun _ => rfl⟩
          · simp only [advance, hforwarding, hheld, Bool.not_true, Bool.false_eq_true, if_false,
              ne_eq, htoken, not_false_eq_true, if_true]
            exact ⟨rfl, rfl, h.issued, by simp [settle, htoken], by simp⟩

theorem Tokened.settled (h : Tokened s) (hpending : ∀ w ∈ s.watches, Pending s w) :
    Settled s.settle := by
  refine ⟨⟨h.started, h.issued, h.kept⟩, fun w hw => ?_⟩
  simp only [settle, List.mem_filter, List.mem_map, Bool.or_eq_true] at hw
  obtain ⟨⟨v, hv, rfl⟩, hkept⟩ := hw
  exact (hpending v hv).rests hkept

/-- Neither who reads a watch nor how much of it was read matters to its task. -/
theorem Pending.of_same {v : Watch} (h : Pending s v) (htoken : w.token = v.token)
    (hforwarding : w.forwarding = v.forwarding) (hgreeted : w.greeted = v.greeted) :
    Pending s w :=
  ⟨htoken ▸ h.issued, fun hended => by
    have hv := h.ended (hforwarding ▸ hended)
    exact ⟨hgreeted ▸ hv.1, htoken ▸ hv.2⟩⟩

theorem Pending.release (h : Pending s w) (id : String) : Pending s (release id w) := by
  unfold ReporterStub.release
  split
  · exact h.of_same rfl rfl rfl
  · exact h

theorem Pending.take (h : Pending s w) : Pending s w.take.1 := by
  unfold Watch.take
  split
  · exact h.of_same rfl rfl rfl
  · exact h

theorem mem_nextOf {watches : List Watch} (h : w ∈ (nextOf id watches).1) :
    w ∈ watches ∨ ∃ v ∈ watches, w = v.take.1 := by
  induction watches with
  | nil => simp [nextOf] at h
  | cons v rest ih =>
      by_cases hv : isHeld id v = true
      · simp only [nextOf, hv, if_true, List.mem_cons] at h
        rcases h with rfl | h
        · exact .inr ⟨v, List.mem_cons_self, rfl⟩
        · exact .inl (List.mem_cons_of_mem v h)
      · simp only [nextOf, hv, Bool.false_eq_true, if_false, List.mem_cons] at h
        rcases h with rfl | h
        · exact .inl List.mem_cons_self
        · rcases ih h with hmem | ⟨u, hu, rfl⟩
          · exact .inl (List.mem_cons_of_mem v hmem)
          · exact .inr ⟨u, List.mem_cons_of_mem v hu, rfl⟩

theorem Settled.token_eq_none (h : Settled s) (hstopped : s.started = false) : s.token = none := by
  have hsome := h.started
  rw [hstopped] at hsome
  cases htoken : s.token with
  | none => rfl
  | some t => simp [htoken] at hsome

theorem Settled.act (h : Settled s) (a : Action) :
    Tokened (s.act a).1 ∧ ∀ w ∈ (s.act a).1.watches, Pending (s.act a).1 w := by
  have hpending : ∀ w ∈ s.watches, Pending s w := fun w hw => (h.rests w hw).pending
  cases a with
  | start =>
      by_cases hstarted : s.started = true
      · simpa [ReporterStub.act, start, hstarted] using And.intro h.toTokened hpending
      · -- A new token is none of those given out before.
        simp only [ReporterStub.act, start, hstarted, Bool.false_eq_true, if_false]
        refine ⟨⟨rfl, by simp, h.kept⟩, fun w hw => ?_⟩
        have hissued := (h.rests w hw).issued
        refine ⟨by simp only; omega, fun _ => ⟨(h.rests w hw).greeted, ?_⟩⟩
        simp only [ne_eq, Option.some.injEq]
        omega
  | stop =>
      refine ⟨⟨rfl, by simp [ReporterStub.act, stop], h.kept⟩, fun w hw => ?_⟩
      exact ⟨(h.rests w hw).issued, fun _ => ⟨(h.rests w hw).greeted, by
        simp [ReporterStub.act, stop]⟩⟩
  | update batch =>
      obtain ⟨sent, buffer, hsent, hkept⟩ := s.updateAll_fst batch
      simp only [ReporterStub.act, hsent]
      exact ⟨⟨h.started, h.issued, hkept h.kept⟩, fun w hw =>
        ⟨(hpending w hw).issued, (hpending w hw).ended⟩⟩
  | watch id =>
      cases htoken : s.token with
      | none => simpa [ReporterStub.act, watch?, htoken] using And.intro h.toTokened hpending
      | some token =>
          simp only [ReporterStub.act, watch?, htoken, Option.map_some]
          refine ⟨⟨htoken ▸ h.started, htoken ▸ h.issued, h.kept⟩, fun w hw => ?_⟩
          simp only [List.mem_append, List.mem_map, List.mem_singleton] at hw
          rcases hw with ⟨v, hv, rfl⟩ | rfl
          · have hreleased := (hpending v hv).release id
            exact ⟨hreleased.issued, fun hended => htoken ▸ hreleased.ended hended⟩
          · exact ⟨h.issued token htoken, by simp⟩
  | drop id =>
      refine ⟨⟨h.started, h.issued, h.kept⟩, fun w hw => ?_⟩
      simp only [ReporterStub.act, ReporterStub.drop, List.mem_map] at hw
      obtain ⟨v, hv, rfl⟩ := hw
      have hreleased := (hpending v hv).release id
      exact ⟨hreleased.issued, hreleased.ended⟩
  | next id =>
      refine ⟨⟨h.started, h.issued, h.kept⟩, fun w hw => ?_⟩
      rcases mem_nextOf hw with hw | ⟨v, hv, rfl⟩
      · exact ⟨(hpending w hw).issued, (hpending w hw).ended⟩
      · have htaken := (hpending v hv).take
        exact ⟨htaken.issued, htaken.ended⟩

theorem Settled.step (h : Settled s) (a : Action) : Settled (s.step a).1 :=
  (h.act a).1.settled (h.act a).2

theorem settled_fresh (content : Contents) : Settled { content := content } :=
  ⟨⟨rfl, by simp, by simp [bufferSize]⟩, by simp⟩

theorem settled_after (content : Contents) (actions : List Action) :
    Settled (({ content := content } : ReporterStub).after actions) :=
  after_keeps (P := fun _ s => Settled s) (fun a h => h.step a)
    (settled_fresh content) actions

/-- A stub at rest stays as it is when its tasks run. -/
theorem Settled.settle_eq (h : Settled s) : s.settle = s := by
  have hmap : s.watches.map s.advance = s.watches := by
    rw [List.map_congr_left (g := id) fun w hw => (h.rests w hw).advance_eq, List.map_id]
  have hfilter : (s.watches.filter fun w => w.held || w.forwarding) = s.watches := by
    rw [List.filter_eq_self]
    intro w hw
    simp [(h.rests w hw).held]
  simp only [settle, hmap, hfilter]

end ReporterStub

end PluginKit
