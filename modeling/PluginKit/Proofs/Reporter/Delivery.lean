import PluginKit.Proofs.Reporter.Run

/-!
# What a watch delivers

A reader of a watch gets the content of the stub, and then the updates that were sent since the
watch was opened and before the stub was stopped, each of them once and in their order. Of updates
that were sent in a row it gets as many of the last ones as the buffer holds.
-/

namespace PluginKit

namespace ReporterStub

/-! ## What was sent and what was read -/

def Entry.stops : Entry → Bool
  | (.stop, _) => true
  | _ => false

def Entry.opens (id : String) : Entry → Bool
  | (.watch other, .opened) => other == id
  | _ => false

def Entry.drops (id : String) : Entry → Bool
  | (.drop other, _) => other == id
  | _ => false

/-- Whether a reader loses its watch, by dropping it or opening another in its place. -/
def Entry.closes (id : String) (e : Entry) : Bool := e.opens id || e.drops id

def Entry.sent : Entry → List Contents
  | (.update batch, _) => lastOf bufferSize batch
  | _ => []

/-- All that is sent to a watch, given what has happened since it was opened. -/
def offered (content : Contents) (since : List Entry) : List Contents :=
  content :: (since.takeWhile fun e => !e.stops).flatMap Entry.sent

def Entry.read? (id : String) : Entry → Option Contents
  | (.next other, .got (some (.item contents))) => if other = id then some contents else none
  | _ => none

def received (id : String) (since : List Entry) : List Contents :=
  since.filterMap (Entry.read? id)

def due (content : Contents) (id : String) (since : List Entry) : WatchItem :=
  match (offered content since)[(received id since).length]? with
  | some contents => .item contents
  | none => if since.any Entry.stops then .ended else .pending

variable {s : ReporterStub} {w : Watch} {id : String} {content : Contents} {since : List Entry}
  {e : Entry} {a : Action}

theorem offered_of_stopped (h : since.any Entry.stops = true) (e : Entry) :
    offered content (since ++ [e]) = offered content since := by
  obtain ⟨stop, hmem, hstop⟩ := List.any_eq_true.mp h
  rw [offered, offered, List.takeWhile_append, if_neg]
  intro hlength
  have hself : (since.takeWhile fun e => !e.stops) = since :=
    (List.takeWhile_sublist _).eq_of_length hlength
  have hall : since.all (fun e => !e.stops) = true := hself ▸ List.all_takeWhile
  simpa [hstop] using List.all_eq_true.mp hall stop hmem

theorem offered_of_running (h : since.any Entry.stops = false) (e : Entry) :
    offered content (since ++ [e]) = offered content since ++ e.sent := by
  have hall : ∀ x ∈ since, (!x.stops) = true := by
    intro x hx
    simpa using List.any_eq_false.mp h x hx
  have hself : (since.takeWhile fun e => !e.stops) = since := by
    have hwhole : (since ++ []).takeWhile (fun e => !e.stops) = since ++ [].takeWhile _ :=
      List.takeWhile_append_of_pos hall
    simpa using hwhole
  have hstop : e.stops = true → e.sent = [] := by
    obtain ⟨_ | _ | _ | _ | _ | _, answer⟩ := e <;> simp [Entry.stops, Entry.sent]
  rw [offered, offered, List.takeWhile_append_of_pos hall, hself]
  cases hstops : e.stops with
  | true => simp [hstops, hstop hstops]
  | false => simp [hstops]

theorem offered_of_silent (h : e.sent = []) :
    offered content (since ++ [e]) = offered content since := by
  cases hstopped : since.any Entry.stops with
  | true => exact offered_of_stopped hstopped e
  | false => rw [offered_of_running hstopped e, h, List.append_nil]

/-! ## Delivery -/

/-- What a watch still holds is what its reader has not got yet of all that was sent to it. -/
structure Delivers (content : Contents) (id : String) (since : List Entry) (s : ReporterStub)
    (w : Watch) : Prop where
  found : s.watchOf? id = some w
  owed : received id since ++ w.queue = offered content since
  runs : w.forwarding = !since.any Entry.stops

theorem Settled.at_rest (h : Settled s) (hw : s.watchOf? id = some w) : AtRest s w :=
  h.rests w (List.mem_of_find?_eq_some hw)

theorem watchOf?_step {v : Watch} (hact : (s.act a).1.watchOf? id = some v) :
    (s.step a).1.watchOf? id = some ((s.act a).1.advance v) := by
  rw [ReporterStub.step, watchOf?_settle, hact, Option.map_some]

/-- What is done to others leaves a watch alone, until tasks run. -/
theorem watchOf?_act (hopen : Entry.closes id (a, (s.act a).2) = false)
    (hnext : ∀ other, a = .next other → other ≠ id) :
    (s.act a).1.watchOf? id = s.watchOf? id := by
  cases a with
  | start =>
      simp only [act, ReporterStub.start]
      split <;> rfl
  | stop => rfl
  | update batch =>
      obtain ⟨sent, buffer, hsent, -⟩ := s.updateAll_fst batch
      simp only [act, hsent]
      rfl
  | watch other =>
      cases htoken : s.token with
      | none => simp [act, watch?, htoken]
      | some token =>
          have hne : other ≠ id := by
            simpa [Entry.closes, Entry.opens, Entry.drops, act, watch?, htoken] using hopen
          have hnew : isHeld id { id := other, token := token, cursor := s.sent } = false := by
            simp [isHeld, hne]
          simp only [act, watch?, htoken, Option.map_some, watchOf?, List.find?_append,
            find?_release_of_ne hne, List.find?_cons, hnew, List.find?_nil, Option.or_none]
  | drop other =>
      have hne : other ≠ id := by simpa [Entry.closes, Entry.opens, Entry.drops, act] using hopen
      exact find?_release_of_ne hne s.watches
  | next other => exact nextOf_of_ne (hnext other rfl) s.watches

/-- An action that neither sends to a watch nor reads from it leaves it as it is. -/
theorem Delivers.of_same (h : Delivers content id since s w) (hsettled : Settled s)
    (hact : (s.act a).1.watchOf? id = s.watchOf? id)
    (hadvance : (s.act a).1.advance w = s.advance w) (hstops : e.stops = false)
    (hsent : e.sent = []) (hread : e.read? id = none) :
    Delivers content id (since ++ [e]) (s.step a).1 w := by
  have hfound := watchOf?_step (hact.trans h.found)
  rw [hadvance, (hsettled.at_rest h.found).advance_eq] at hfound
  refine ⟨hfound, ?_, ?_⟩
  · rw [offered_of_silent hsent, ← h.owed]
    simp [received, hread]
  · simp [h.runs, hstops]

theorem Delivers.start (h : Delivers content id since s w) (hsettled : Settled s) :
    Delivers content id (since ++ [(.start, .done)]) (s.step .start).1 w := by
  refine h.of_same hsettled (watchOf?_act rfl (by simp)) ?_ rfl rfl rfl
  by_cases hstarted : s.started = true
  · simp [act, ReporterStub.start, hstarted]
  · -- Without a token no watch has a task left that could look at the new one.
    have htoken := hsettled.token_eq_none (by simpa using hstarted)
    have hended : w.forwarding = false := by
      have hiff := (hsettled.at_rest h.found).forwarding_iff
      simpa [htoken] using hiff
    simp [advance, hended]

theorem Delivers.stop (h : Delivers content id since s w) (hsettled : Settled s) :
    Delivers content id (since ++ [(.stop, .done)]) (s.step .stop).1
      { w with forwarding := false } := by
  have hrest := hsettled.at_rest h.found
  have hadvance : (s.act .stop).1.advance w = { w with forwarding := false } := by
    cases hforwarding : w.forwarding with
    | false =>
        have hsame : { w with forwarding := false } = w := by rw [← hforwarding]
        rw [hsame]
        simp [advance, hforwarding]
    | true => simp [act, ReporterStub.stop, advance, hforwarding, hrest.held, hrest.greeted]
  have hfound := watchOf?_step (a := .stop) (s := s) h.found
  rw [hadvance] at hfound
  refine ⟨hfound, ?_, by simp [Entry.stops]⟩
  rw [offered_of_silent rfl, ← h.owed]
  simp [received, Entry.read?]

theorem receivers_ne_zero (h : s.watchOf? id = some w) (hforwarding : w.forwarding = true) :
    s.receivers ≠ 0 := by
  have hmem : w ∈ s.watches.filter fun w => w.forwarding :=
    List.mem_filter.mpr ⟨List.mem_of_find?_eq_some h, hforwarding⟩
  exact Nat.ne_of_gt (List.length_pos_of_mem hmem)

/-- A watch whose task runs gets the last updates of a batch. -/
theorem AtRest.advance_update (h : AtRest s w) (hforwarding : w.forwarding = true)
    (hreceivers : s.receivers ≠ 0) (hkept : s.buffer.length ≤ bufferSize)
    (batch : List Contents) :
    (s.act (.update batch)).1.advance w =
      { w with
        cursor := s.sent + batch.length
        queue := w.queue ++ lastOf bufferSize batch } := by
  have htoken := h.forwarding_iff.mp hforwarding
  have hnew : s.sent + batch.length - w.cursor = batch.length := by
    rw [h.caught_up hforwarding]
    omega
  have hlast : lastOf batch.length (lastOf bufferSize (s.buffer ++ batch)) =
      lastOf bufferSize batch := by
    rw [lastOf_lastOf, lastOf_append_of_le _ _ _ (Nat.min_le_left _ _), ← lastOf_lastOf,
      lastOf_of_length_le]
    rw [length_lastOf]
    omega
  simp only [act, updateAll_of_receivers hreceivers hkept, advance, hforwarding, h.held, h.greeted,
    htoken, hnew, hlast]
  simp

theorem Delivers.update (h : Delivers content id since s w) (hsettled : Settled s)
    (batch : List Contents) (answer : Answer) :
    ∃ v, Delivers content id (since ++ [(.update batch, answer)]) (s.step (.update batch)).1 v := by
  have hrest := hsettled.at_rest h.found
  have hact : (s.act (.update batch)).1.watchOf? id = s.watchOf? id :=
    watchOf?_act rfl (by simp)
  have hfound := watchOf?_step (hact.trans h.found)
  have hread : received id (since ++ [(.update batch, answer)]) = received id since := by
    simp [received, Entry.read?]
  cases hforwarding : w.forwarding with
  | false =>
      have hstopped : since.any Entry.stops = true := by simpa [hforwarding] using h.runs
      rw [show (s.act (.update batch)).1.advance w = w by simp [advance, hforwarding]] at hfound
      refine ⟨w, hfound, ?_, by simp [hforwarding, hstopped]⟩
      rw [hread, offered_of_stopped hstopped, h.owed]
  | true =>
      have hrunning : since.any Entry.stops = false := by simpa [hforwarding] using h.runs
      have hreceivers := receivers_ne_zero h.found hforwarding
      rw [hrest.advance_update hforwarding hreceivers hsettled.kept] at hfound
      refine ⟨_, hfound, ?_, by simp [hforwarding, hrunning, Entry.stops]⟩
      rw [hread, offered_of_running hrunning, ← h.owed, List.append_assoc]
      rfl

theorem Delivers.watch (h : Delivers content id since s w) (hsettled : Settled s) (other : String)
    (hopen : Entry.closes id (.watch other, (s.step (.watch other)).2) = false) :
    Delivers content id (since ++ [(.watch other, (s.step (.watch other)).2)])
      (s.step (.watch other)).1 w := by
  refine h.of_same hsettled (watchOf?_act hopen (by simp)) ?_ rfl rfl rfl
  cases htoken : s.token <;> simp [act, watch?, htoken, advance]

theorem Delivers.drop (h : Delivers content id since s w) (hsettled : Settled s) (other : String)
    (answer : Answer) (hopen : Entry.closes id (.drop other, answer) = false) :
    Delivers content id (since ++ [(.drop other, answer)]) (s.step (.drop other)).1 w :=
  h.of_same hsettled (watchOf?_act hopen (by simp)) rfl rfl rfl rfl

theorem next_of_found (h : s.watchOf? id = some w) :
    (s.act (.next id)).1.watchOf? id = some w.take.1 ∧
      (s.act (.next id)).2 = .got (some w.take.2) := by
  obtain ⟨hwatch, hitem⟩ := nextOf_self id s.watches
  simp only [watchOf?] at h
  rw [h] at hwatch hitem
  exact ⟨hwatch, by simp [act, ReporterStub.next, hitem]⟩

/-- The reader of a watch gets what is due to it. -/
theorem Delivers.take_eq (h : Delivers content id since s w) :
    w.take.2 = due content id since := by
  have hat : (offered content since)[(received id since).length]? = w.queue[0]? := by
    rw [← h.owed, List.getElem?_append_right (Nat.le_refl _), Nat.sub_self]
  unfold due Watch.take
  rw [hat, h.runs]
  cases w.queue with
  | nil => cases since.any Entry.stops <;> rfl
  | cons contents rest => rfl

theorem Delivers.next (h : Delivers content id since s w) (hsettled : Settled s) (other : String) :
    ∃ v, Delivers content id (since ++ [(.next other, (s.step (.next other)).2)])
      (s.step (.next other)).1 v := by
  by_cases hne : other = id
  · subst hne
    obtain ⟨hact, hanswer⟩ := next_of_found h.found
    have hrest : AtRest s w.take.1 := by
      have hrest := hsettled.at_rest h.found
      unfold Watch.take
      split
      · exact ⟨hrest.held, hrest.greeted, hrest.issued, hrest.forwarding_iff, hrest.caught_up⟩
      · exact hrest
    have hfound := watchOf?_step hact
    rw [show (s.act (.next other)).1.advance w.take.1 = w.take.1 from hrest.advance_eq] at hfound
    refine ⟨w.take.1, hfound, ?_, ?_⟩
    · rw [offered_of_silent rfl, ← h.owed, ReporterStub.step, hanswer]
      cases hqueue : w.queue with
      | nil => cases hforwarding : w.forwarding <;>
          simp [received, Entry.read?, Watch.take, hqueue, hforwarding]
      | cons contents rest => simp [received, Entry.read?, Watch.take, hqueue]
    · have hsame : w.take.1.forwarding = w.forwarding := by
        unfold Watch.take
        split <;> rfl
      simp [hsame, h.runs, Entry.stops]
  · refine ⟨w, h.of_same hsettled (nextOf_of_ne hne s.watches) rfl rfl rfl ?_⟩
    simp only [Entry.read?]
    split <;> simp_all

theorem Delivers.step (h : Delivers content id since s w) (hsettled : Settled s) (a : Action)
    (hopen : Entry.closes id (a, (s.step a).2) = false) :
    ∃ v, Delivers content id (since ++ [(a, (s.step a).2)]) (s.step a).1 v := by
  cases a with
  | start => exact ⟨w, h.start hsettled⟩
  | stop => exact ⟨_, h.stop hsettled⟩
  | update batch => exact h.update hsettled batch _
  | watch other => exact ⟨w, h.watch hsettled other hopen⟩
  | drop other => exact ⟨w, h.drop hsettled other _ hopen⟩
  | next other => exact h.next hsettled other

/-! ## Every watch of a run -/

/-- A watch that is opened on a started stub holds the content of the stub. -/
theorem delivers_opened (hsettled : Settled s) (hstarted : s.started = true) (id : String) :
    (s.step (.watch id)).2 = .opened ∧
      ∃ v, Delivers s.content id [] (s.step (.watch id)).1 v := by
  cases htoken : s.token with
  | none => simp [hsettled.started, htoken] at hstarted
  | some token =>
      have hopened : (s.act (.watch id)).1.watchOf? id =
          some { id := id, token := token, cursor := s.sent } := by
        simp only [act, watch?, htoken, Option.map_some, watchOf?, List.find?_append,
          find?_release_self, Option.none_or]
        simp [isHeld]
      have hanswer : (s.step (.watch id)).2 = .opened := by
        simp [ReporterStub.step, act, watch?, htoken]
      refine ⟨hanswer, _, watchOf?_step hopened, ?_, ?_⟩ <;>
        simp [act, watch?, htoken, advance, received, offered, lastOf_zero]

theorem content_step (s : ReporterStub) (a : Action) : (s.step a).1.content = s.content := by
  cases a with
  | start =>
      simp only [ReporterStub.step, act, settle, ReporterStub.start]
      split <;> rfl
  | update batch =>
      obtain ⟨sent, buffer, hsent, -⟩ := s.updateAll_fst batch
      simp [ReporterStub.step, act, settle, hsent]
  | watch id => cases htoken : s.token <;> simp [ReporterStub.step, act, watch?, htoken, settle]
  | stop => rfl
  | drop id => rfl
  | next id => rfl

theorem content_after (content : Contents) (actions : List Action) :
    (({ content := content } : ReporterStub).after actions).content = content :=
  after_keeps (P := fun _ s => s.content = content)
    (fun a h => (content_step _ a).trans h) rfl actions

theorem Delivers.after (h : Delivers content id [] s w) (hsettled : Settled s)
    (since : List Action) (hopen : ∀ e ∈ s.log since, Entry.closes id e = false) :
    ∃ v, Delivers content id (s.log since) (s.after since) v := by
  have hkept := after_keeps (P := fun log s => Settled s ∧
      ((∀ e ∈ log, Entry.closes id e = false) → ∃ v, Delivers content id log s v))
    (fun a hnow => by
      refine ⟨hnow.1.step a, fun hopen => ?_⟩
      have hbefore := hnow.2 fun e he => hopen e (List.mem_append_left _ he)
      obtain ⟨v, hv⟩ := hbefore
      exact hv.step hnow.1 a (hopen _ (by simp)))
    ⟨hsettled, fun _ => ⟨w, h⟩⟩ since
  exact hkept.2 hopen

theorem unwatched_of_drop (s : ReporterStub) (id : String) :
    (s.step (.drop id)).1.watchOf? id = none := by
  rw [ReporterStub.step, watchOf?_settle, Option.map_eq_none_iff]
  exact find?_release_self s.watches

theorem unwatched_step (h : s.watchOf? id = none) (a : Action)
    (hopen : Entry.opens id (a, (s.step a).2) = false) : (s.step a).1.watchOf? id = none := by
  by_cases hdrop : a = .drop id
  · exact hdrop ▸ unwatched_of_drop s id
  · rw [ReporterStub.step, watchOf?_settle, Option.map_eq_none_iff]
    by_cases hnext : a = .next id
    · subst hnext
      have htaken := (nextOf_self id s.watches).1
      simp only [watchOf?] at h
      rw [h] at htaken
      exact htaken
    · have hkept : Entry.drops id (a, (s.act a).2) = false := by
        cases a with
        | drop other =>
            have hne : other ≠ id := fun heq => hdrop (heq ▸ rfl)
            simp [Entry.drops, hne]
        | _ => rfl
      have hclosed : Entry.closes id (a, (s.act a).2) = false := by
        rw [Entry.closes, hkept, Bool.or_false]
        exact hopen
      rw [watchOf?_act hclosed (by rintro other rfl rfl; exact hnext rfl), h]

theorem unwatched_after (h : s.watchOf? id = none) (later : List Action)
    (hopen : ∀ e ∈ s.log later, Entry.opens id e = false) :
    ((s.after later).step (.next id)).2 = .got none := by
  have hkept := after_keeps (P := fun log s =>
      (∀ e ∈ log, Entry.opens id e = false) → s.watchOf? id = none)
    (fun a hnow hopen => by
      have hbefore := hnow fun e he => hopen e (List.mem_append_left _ he)
      exact unwatched_step hbefore a (hopen _ (by simp)))
    (fun _ => h) later
  have hnone := (nextOf_self id (s.after later).watches).2
  have hwatch : (s.after later).watches.find? (isHeld id) = none := hkept hopen
  rw [hwatch] at hnone
  simp [ReporterStub.step, act, ReporterStub.next, hnone]

/-- The reader of a watch that was opened on a started stub has got the first of what was sent to
it, and what it asks for next is the first that it has not got. After it has dropped the watch
there is nothing to ask for until it opens another. -/
theorem reader_gets_all_that_is_sent (content : Contents) (before : List Action) (id : String)
    (hstarted : (({ content := content } : ReporterStub).after before).started = true) :
    let asked := (({ content := content } : ReporterStub).after before).step (.watch id)
    asked.2 = .opened ∧
      ∀ since : List Action, (∀ e ∈ asked.1.log since, Entry.closes id e = false) →
        received id (asked.1.log since) <+: offered content (asked.1.log since) ∧
          ((asked.1.after since).step (.next id)).2 =
            .got (some (due content id (asked.1.log since))) ∧
          ∀ later : List Action,
            let left := ((asked.1.after since).step (.drop id)).1
            (∀ e ∈ left.log later, Entry.opens id e = false) →
              ((left.after later).step (.next id)).2 = .got none := by
  intro asked
  have hsettled := settled_after content before
  obtain ⟨hopened, w, hw⟩ := delivers_opened hsettled hstarted id
  rw [content_after] at hw
  refine ⟨hopened, fun since hopen => ?_⟩
  obtain ⟨v, hv⟩ := hw.after (hsettled.step _) since hopen
  refine ⟨⟨v.queue, hv.owed⟩, ?_, ?_⟩
  · rw [← hv.take_eq]
    exact (next_of_found hv.found).2
  · intro later left hunopened
    exact unwatched_after (unwatched_of_drop _ id) later hunopened

def numbered (count : Nat) : List Contents :=
  (List.range count).map fun i => List.replicate i (none, [], ())

/-- Of eighteen updates in a row a watch gets the last sixteen, the third first, also after the
stub was stopped and started again. -/
theorem reader_gets_all_that_is_sent_burst :
    let stub : ReporterStub := { content := [] }
    let asked := (stub.after [.start]).step (.watch "w")
    let since : List Action := [.next "w", .update (numbered 18), .stop, .start]
    (stub.after [.start]).started = true ∧
      (∀ e ∈ asked.1.log since, Entry.closes "w" e = false) ∧
      received "w" (asked.1.log since) = [[]] ∧
      ((asked.1.after since).step (.next "w")).2 =
        .got (some (.item [(none, [], ()), (none, [], ())])) := by
  intro stub asked since
  have hopen : ∀ e ∈ asked.1.log since, Entry.closes "w" e = false := by decide
  obtain ⟨-, hread⟩ := reader_gets_all_that_is_sent [] [.start] "w" rfl
  exact ⟨rfl, hopen, rfl, (hread since hopen).2.1⟩

end ReporterStub

end PluginKit
