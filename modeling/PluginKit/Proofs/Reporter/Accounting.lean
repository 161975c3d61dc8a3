import PluginKit.Plugin.Basic
import PluginKit.Proofs.Reporter.Delivery

/-!
# Who is counted

An update is counted for those watches that were opened since the stub was last stopped and that
nobody has dropped or replaced. A watch is opened exactly when the last start or stop was a start.
-/

namespace PluginKit

namespace ReporterStub

/-! ## What a log says of starts and watches -/

def Action.starts? : Action → Option Bool
  | .start => some true
  | .stop => some false
  | _ => none

def lastStarts (actions : List Action) : Bool :=
  (actions.filterMap Action.starts?).getLast?.getD false

def Entry.ends (id : String) (e : Entry) : Bool := e.stops || e.closes id

/-- The watches that were opened and that nothing has ended since, by their names. -/
def standing : List Entry → List String
  | [] => []
  | (.watch id, .opened) :: rest =>
      if rest.any (Entry.ends id) then standing rest else id :: standing rest
  | _ :: rest => standing rest

def Entry.opened? : Entry → Option String
  | (.watch id, .opened) => some id
  | _ => none

theorem standing_cons (e : Entry) (rest : List Entry) :
    standing (e :: rest) =
      (e.opened?.toList.filter fun id => !rest.any (Entry.ends id)) ++ standing rest := by
  obtain ⟨_ | _ | _ | id | _ | _, _ | _ | _ | _ | _ | _⟩ := e <;>
    simp only [standing, Entry.opened?, Option.toList_none, Option.toList_some, List.filter_nil,
      List.nil_append]
  cases hended : rest.any (Entry.ends id) <;> simp [hended]

theorem standing_append (before : List Entry) (e : Entry) :
    standing (before ++ [e]) =
      ((standing before).filter fun id => !e.ends id) ++ e.opened?.toList := by
  induction before with
  | nil => simp [standing_cons, standing]
  | cons first rest ih =>
      rw [List.cons_append, standing_cons, standing_cons, ih, List.filter_append,
        List.filter_filter, List.append_assoc]
      congr 1
      refine List.filter_congr fun id _ => ?_
      simp [Bool.and_comm]

/-! ## Watches whose tasks run -/

variable {s : ReporterStub} {w : Watch} {id : String}

/-- Whether the task of a watch still runs after it has looked at the stub's token. -/
def runsOn (token : Option Nat) (w : Watch) : Bool :=
  w.forwarding && w.held && decide (token = some w.token)

/-- The watches whose tasks run, by their names. -/
def live (s : ReporterStub) : List String :=
  (s.watches.filter fun w => w.forwarding).map Watch.id

theorem length_live (s : ReporterStub) : s.live.length = s.receivers := by
  simp [live, receivers]

theorem advance_forwarding (s : ReporterStub) (w : Watch) :
    (s.advance w).forwarding = runsOn s.token w ∧ (s.advance w).id = w.id := by
  cases hforwarding : w.forwarding with
  | false => simp [advance, runsOn, hforwarding]
  | true =>
      cases hheld : w.held with
      | false => simp [advance, runsOn, hforwarding, hheld]
      | true => by_cases htoken : s.token = some w.token <;>
          simp [advance, runsOn, hforwarding, hheld, htoken]

theorem live_settle (s : ReporterStub) :
    s.settle.live = (s.watches.filter (runsOn s.token)).map Watch.id := by
  have hkept : ∀ w : Watch, (w.forwarding && (w.held || w.forwarding)) = w.forwarding := by
    intro w
    cases hforwarding : w.forwarding <;> simp
  have hruns : (fun w : Watch => w.forwarding) ∘ s.advance = runsOn s.token :=
    funext fun w => (advance_forwarding s w).1
  have hid : Watch.id ∘ s.advance = Watch.id := funext fun w => (advance_forwarding s w).2
  rw [live, settle, List.filter_filter]
  simp only [hkept, List.filter_map, List.map_map, hruns, hid]

/-- A task that runs in a stub at rest goes on to run. -/
theorem Settled.live_eq (h : Settled s) :
    s.live = (s.watches.filter (runsOn s.token)).map Watch.id := by
  rw [live, List.filter_congr fun w hw => ?_]
  have hrest := h.rests w hw
  cases hforwarding : w.forwarding with
  | false => simp [runsOn, hforwarding]
  | true => simp [runsOn, hforwarding, hrest.held, hrest.forwarding_iff.mp hforwarding]

theorem Settled.live_of_stopped (h : Settled s) (hstopped : s.started = false) : s.live = [] := by
  simp [h.live_eq, h.token_eq_none hstopped, runsOn]

theorem runs_release (token : Option Nat) (w : Watch) :
    runsOn token (release id w) = (runsOn token w && !(id == w.id)) := by
  by_cases h : w.id = id
  · simp [release, runsOn, h]
  · simp [release, runsOn, h, Ne.symm h]

theorem live_release (token : Option Nat) (watches : List Watch) :
    ((watches.map (release id)).filter (runsOn token)).map Watch.id =
      ((watches.filter (runsOn token)).map Watch.id).filter fun other => !(id == other) := by
  have hid : Watch.id ∘ release id = Watch.id := by
    funext w
    by_cases h : w.id = id <;> simp [release, h]
  have hruns : runsOn token ∘ release id = fun w => runsOn token w && !(id == w.id) :=
    funext fun w => runs_release token w
  rw [List.filter_map, List.map_map, hid, hruns, List.filter_map, List.filter_filter]
  refine congrArg _ (List.filter_congr fun w _ => ?_)
  exact Bool.and_comm _ _

theorem live_nextOf (token : Option Nat) (watches : List Watch) :
    ((nextOf id watches).1.filter (runsOn token)).map Watch.id =
      (watches.filter (runsOn token)).map Watch.id := by
  have htake : ∀ w : Watch, runsOn token w.take.1 = runsOn token w ∧ w.take.1.id = w.id := by
    intro w
    unfold Watch.take
    split <;> exact ⟨rfl, rfl⟩
  induction watches with
  | nil => rfl
  | cons v rest ih =>
      by_cases hv : isHeld id v = true
      · simp only [nextOf, hv, if_true, List.filter_cons, (htake v).1]
        split <;> simp [(htake v).2]
      · simp only [nextOf, hv, Bool.false_eq_true, if_false, List.filter_cons]
        split <;> simp [ih]

theorem filter_unended {e : Entry} (h : ∀ id, e.ends id = false) (ids : List String) :
    (ids.filter fun id => !e.ends id) = ids := by
  simp [h]

/-- A start ends no watch, and none was opened under the token that it makes. -/
theorem Settled.live_start (h : Settled s) :
    (s.start.watches.filter (runsOn s.start.token)).map Watch.id = s.live := by
  by_cases hstarted : s.started = true
  · simp [start, hstarted, h.live_eq]
  · have hnone : ∀ w ∈ s.watches, runsOn (some s.tokens) w = false := by
      intro w hw
      have hissued := (h.rests w hw).issued
      have hne : s.tokens ≠ w.token := by omega
      simp [runsOn, hne]
    have hempty : s.watches.filter (runsOn (some s.tokens)) = [] := by
      simpa [List.filter_eq_nil_iff] using hnone
    simp [start, hstarted, hempty, h.live_of_stopped (by simpa using hstarted)]

/-- A watch that is opened takes the place of the one with its name. -/
theorem Settled.live_watch (h : Settled s) {token : Nat} (htoken : s.token = some token)
    (id : String) :
    let opened : Watch := { id := id, token := token, cursor := s.sent }
    ((s.watches.map (release id) ++ [opened]).filter (runsOn (some token))).map Watch.id =
      (s.live.filter fun other => !(id == other)) ++ [id] := by
  intro opened
  have hnew : runsOn (some token) opened = true := by simp [opened, runsOn]
  rw [List.filter_append, List.map_append, live_release, h.live_eq, htoken]
  simp [hnew, opened]

theorem Entry.ends_of_opens (id other : String) :
    Entry.ends other (.watch id, .opened) = (id == other) := by
  simp [ends, stops, closes, opens, drops]

theorem Entry.ends_of_drops (id other : String) (answer : Answer) :
    Entry.ends other (.drop id, answer) = (id == other) := by
  simp [ends, stops, closes, opens, drops]

/-- The tasks that run after an action are those of the watches that it does not end, and that of
a watch that it opens. -/
theorem Settled.live_step (h : Settled s) (a : Action) :
    (s.step a).1.live =
      (s.live.filter fun id => !Entry.ends id (a, (s.step a).2)) ++
        (Entry.opened? (a, (s.step a).2)).toList := by
  have hact : (s.step a).1.live =
      ((s.act a).1.watches.filter (runsOn (s.act a).1.token)).map Watch.id := live_settle _
  rw [hact]
  cases a with
  | start =>
      rw [filter_unended fun _ => rfl]
      exact h.live_start.trans (List.append_nil _).symm
  | stop =>
      have hnone : s.watches.filter (runsOn none) = [] :=
        List.filter_eq_nil_iff.mpr (by simp [runsOn])
      have hends : (s.live.filter fun id => !Entry.ends id (.stop, (s.step .stop).2)) = [] :=
        List.filter_eq_nil_iff.mpr (by simp [Entry.ends, Entry.stops])
      rw [hends]
      simp [ReporterStub.act, stop, hnone, Entry.opened?]
  | update batch =>
      obtain ⟨sent, buffer, hsent, -⟩ := s.updateAll_fst batch
      rw [filter_unended fun _ => rfl]
      simp [ReporterStub.act, hsent, h.live_eq, Entry.opened?]
  | watch id =>
      cases htoken : s.token with
      | none =>
          have hrefused : s.act (.watch id) = (s, .refused) := by
            simp [ReporterStub.act, watch?, htoken]
          rw [ReporterStub.step, hrefused, filter_unended fun _ => rfl, h.live_eq]
          simp [Entry.opened?]
      | some token =>
          have hopened : s.act (.watch id) =
              ({ s with
                watches := s.watches.map (release id) ++
                  [{ id := id, token := token, cursor := s.sent }] }, .opened) := by
            simp [ReporterStub.act, watch?, htoken]
          simp only [ReporterStub.step, hopened, Entry.ends_of_opens, htoken]
          exact h.live_watch htoken id
  | drop id =>
      simp only [ReporterStub.step, ReporterStub.act, Entry.ends_of_drops]
      rw [h.live_eq]
      simp [ReporterStub.drop, live_release, Entry.opened?]
  | next id =>
      rw [filter_unended fun _ => rfl]
      simp [ReporterStub.act, ReporterStub.next, live_nextOf, h.live_eq, Entry.opened?]

theorem live_after (content : Contents) (actions : List Action) :
    (({ content := content } : ReporterStub).after actions).live =
      standing (({ content := content } : ReporterStub).log actions) := by
  have hkept := after_keeps (P := fun log s => Settled s ∧ s.live = standing log)
    (fun a h => ⟨h.1.step a, by rw [h.1.live_step, h.2, standing_append]⟩)
    ⟨settled_fresh content, rfl⟩ actions
  exact hkept.2

/-! ## Starts and stops -/

theorem started_step (s : ReporterStub) (a : Action) :
    (s.step a).1.started = (Action.starts? a).getD s.started := by
  cases a with
  | start =>
      by_cases hstarted : s.started = true <;>
        simp [step, act, settle, start, hstarted, Action.starts?]
  | update batch =>
      obtain ⟨sent, buffer, hsent, -⟩ := s.updateAll_fst batch
      simp [step, act, settle, hsent, Action.starts?]
  | watch id => cases htoken : s.token <;>
      simp [step, act, watch?, htoken, settle, Action.starts?]
  | stop => rfl
  | drop id => rfl
  | next id => rfl

theorem lastStarts_append (before : List Action) (a : Action) :
    lastStarts (before ++ [a]) = (Action.starts? a).getD (lastStarts before) := by
  cases h : Action.starts? a <;> simp [lastStarts, h]

theorem fst_log (s : ReporterStub) (actions : List Action) :
    (s.log actions).map Prod.fst = actions := by
  induction actions generalizing s with
  | nil => rfl
  | cons a rest ih => simp [log, ih]

theorem started_after (content : Contents) (actions : List Action) :
    (({ content := content } : ReporterStub).after actions).started = lastStarts actions := by
  have hkept := after_keeps (P := fun log s => s.started = lastStarts (log.map Prod.fst))
    (fun a h => by rw [started_step, h, List.map_append, List.map_singleton, lastStarts_append])
    (s := { content := content }) rfl actions
  rw [fst_log] at hkept
  exact hkept

theorem Settled.started_iff (h : Settled s) : s.started = true ↔ ∃ token, s.token = some token := by
  rw [h.started, Option.isSome_iff_exists]

theorem Settled.step_of_act (h : Settled s) {a : Action} {answer : Answer}
    (hact : s.act a = (s, answer)) : s.step a = (s, answer) := by
  rw [ReporterStub.step, hact, h.settle_eq]

/-- At any time of a run each update is counted for the watches that stand, a watch is opened if
the last start or stop was a start and refused otherwise, what asks for a state that is there
changes nothing, and a stub is started as long as it has a token. -/
theorem counts_the_watches_that_stand (content : Contents) (name : String)
    (actions : List Action) :
    let log := ({ content := content } : ReporterStub).log actions
    let s := ({ content := content } : ReporterStub).after actions
    (∀ batch, (s.step (.update batch)).2 =
        .counted (List.replicate batch.length (standing log).length)) ∧
      (∀ id, if lastStarts actions then
          ∃ s', (Plugin.mk name (.stub s) none).watch id = .ok ⟨name, .stub s', none⟩ ∧
            s.step (.watch id) = (s'.settle, .opened)
        else
          (Plugin.mk name (.stub s) none).watch id =
              .error ⟨.failedPrecondition, "plugin " ++ name ++ " is not started"⟩ ∧
            s.step (.watch id) = (s, .refused)) ∧
      (if s.started then s.step .start = (s, .done) else s.step .stop = (s, .done)) ∧
      (s.started = true ↔ ∃ token, s.token = some token) := by
  intro log s
  have hsettled : Settled s := settled_after content actions
  have hlive : s.live = standing log := live_after content actions
  have hlast : s.started = lastStarts actions := started_after content actions
  refine ⟨fun batch => ?_, fun id => ?_, ?_, hsettled.started_iff⟩
  · rw [← hlive, length_live, step, act, updateAll_counts hsettled.kept]
  · rw [← hlast]
    cases hstarted : s.started with
    | true =>
        obtain ⟨token, htoken⟩ := hsettled.started_iff.mp hstarted
        simp [Plugin.watch, step, act, watch?, htoken]
    | false =>
        have htoken := hsettled.token_eq_none hstarted
        have hrefused : s.act (.watch id) = (s, .refused) := by simp [act, watch?, htoken]
        simp [Plugin.watch, watch?, htoken, hsettled.step_of_act hrefused]
  · cases hstarted : s.started with
    | true => exact hsettled.step_of_act (by simp [act, start, hstarted])
    | false =>
        have htoken := hsettled.token_eq_none hstarted
        have hsame : s.act .stop = (s, .done) := by rw [act, stop, ← hstarted, ← htoken]
        simpa using hsettled.step_of_act hsame

end ReporterStub

end PluginKit
