import PluginKit.Proofs.Lifecycle.Sound

/-!
# The calls of the plugin

The plugin is called at two places only. A start cycle begins with a stop and a start, and a
section that has stopped all servers ends with a stop, if the socket files could be removed. At
both places nothing is bound.
-/

namespace PluginKit

/-- Whether the plugin is to be called at a turn: a start cycle begins that is not refused, or all
servers were stopped. -/
def Turn.handles (s : Supervisor) : Turn → Bool
  | enters (.cycle .start) => decide (s.state ≠ .permanentlyStopped ∧ s.sockets ≠ [])
  | advances _ (.draining _) => Supervisor.allStopped s.servers
  | _ => false

namespace Supervisor

variable {s s' : Supervisor}

/-- The calls of the plugin after a turn. -/
inductive TurnCalls (s : Supervisor) : Turn → List Event → Prop
  | keeps {t : Turn} (h : t.handles s = false) : TurnCalls s t s.calls
  | starts (h : (Turn.enters (.cycle .start)).handles s = true) :
      TurnCalls s (.enters (.cycle .start)) (.start s.nextStart :: .stop s.nextStop :: s.calls)
  | stops {sec : Section} {purpose : Purpose} (h : allStopped s.servers = true)
      (clears : s.clears = true) :
      TurnCalls s (.advances sec (.draining purpose)) (.stop s.nextStop :: s.calls)
  | fails {sec : Section} {purpose : Purpose} (h : allStopped s.servers = true)
      (clears : s.clears = false) : TurnCalls s (.advances sec (.draining purpose)) s.calls

theorem enterStart_calls (s : Supervisor) :
    TurnCalls s (.enters (.cycle .start)) s.enterStart.1.calls := by
  generalize hp : s.enterStart = p
  have hopens := enterStart_cases hp
  cases hopens with
  | refused hperm => exact .keeps (by simp [Turn.handles, hperm])
  | bare hperm hnone => exact .keeps (by simp [Turn.handles, hnone])
  | failed hperm hsome hfails => exact .starts (by simp [Turn.handles, hperm, hsome])
  | unprepared hperm hsome hstarts hfails => exact .starts (by simp [Turn.handles, hperm, hsome])
  | prepared hperm hsome hstarts hworks => exact .starts (by simp [Turn.handles, hperm, hsome])

theorem advance_calls (s : Supervisor) (sec : Section) (stage : Stage) :
    TurnCalls s (.advances sec stage) (s.advance stage).1.calls := by
  generalize hp : s.advance stage = p
  have hadv := advance_cases hp
  cases hadv with
  | drains hleft => exact .keeps hleft
  | @drained purpose t outcome hall hend =>
      cases hclears : s.clears with
      | true =>
          have hcalls : t.calls = .stop s.nextStop :: s.calls := by
            rw [calls, hend.history, hclears]
            rfl
          exact hcalls ▸ .stops hall hclears
      | false =>
          have hcalls : t.calls = s.calls := by
            rw [calls, hend.history, hclears]
            rfl
          exact hcalls ▸ .fails hall hclears
  | _ => exact .keeps rfl

theorem take_calls (s : Supervisor) (t : Turn) : TurnCalls s t (t.take s).1.calls := by
  cases t with
  | advances sec stage => exact s.advance_calls sec stage
  | enters sec =>
      by_cases hsec : sec = .cycle .start
      · subst hsec
        exact s.enterStart_calls
      · have hquiet : (Turn.enters sec).handles s = false := by
          rcases sec with (_ | _) | _ <;> first | contradiction | rfl
        have hsame : (s.enter sec).1.calls = s.calls := by
          by_cases hperm : s.state = .permanentlyStopped
          · rw [enter_of_stopped hperm]
          · obtain ⟨purpose, henter⟩ := enter_of_not_stopped hperm hsec
            rw [henter]
            rfl
        exact hsame ▸ .keeps hquiet

/-- Every start in a list of calls, the latest first, comes right after a stop. -/
def Paired (calls : List Event) : Prop :=
  ∀ later outcome earlier, calls = later ++ .start outcome :: earlier →
    ∃ outcome' rest, earlier = .stop outcome' :: rest

theorem Paired.stop {calls : List Event} (h : Paired calls) (outcome : CallOutcome) :
    Paired (.stop outcome :: calls) := by
  intro later o earlier heq
  cases later with
  | nil => cases heq
  | cons head later =>
      cases heq
      exact h later o earlier rfl

theorem Paired.start {calls : List Event} (h : Paired calls) (outcome outcome' : CallOutcome) :
    Paired (.start outcome :: .stop outcome' :: calls) := by
  intro later o earlier heq
  cases later with
  | nil =>
      cases heq
      exact ⟨outcome', calls, rfl⟩
  | cons head later =>
      obtain ⟨-, hrest⟩ := List.cons.inj heq
      exact h.stop outcome' later o earlier hrest

theorem Paired.not_adjacent {calls : List Event} (h : Paired calls) {later earlier : List Event}
    {first second : CallOutcome} : calls ≠ later ++ .start second :: .start first :: earlier := by
  intro heq
  obtain ⟨outcome, rest, hearlier⟩ := h later second _ heq
  cases hearlier

end Supervisor

namespace Supervision

variable {sys sys' : Supervision} {who : Holder} {a : Action}

/-- No server is bound: those of the supervisor were stopped, and no task is at one of its own. -/
structure Down (sys : Supervision) : Prop where
  stopped : Supervisor.allStopped sys.supervisor.servers = true
  draining : ∀ {who : Holder} {sec : Section} {stage : Stage},
    sys.stage? who = some (sec, stage) → ∃ purpose, stage = .draining purpose

/-- What a step calls the plugin for: nothing, the stop and the start that a start cycle begins
with, or the stop at the end of a section. -/
inductive PluginCalls (sys : Supervision) (a : Action) (sys' : Supervision) : Prop
  | none (calls : sys'.supervisor.calls = sys.supervisor.calls)
  | starts (turn : sys.turnOf? a = some (.enters (.cycle .start))) (down : sys.Down)
      (calls : sys'.supervisor.calls =
        .start sys.supervisor.nextStart :: .stop sys.supervisor.nextStop :: sys.supervisor.calls)
  | stops {sec : Section} {purpose : Purpose}
      (turn : sys.turnOf? a = some (.advances sec (.draining purpose))) (down : sys.Down)
      (calls : sys'.supervisor.calls = .stop sys.supervisor.nextStop :: sys.supervisor.calls)

theorem Sound.down_of_start (h : sys.Sound)
    (hturn : sys.turn? who = some (.enters (.cycle .start))) : sys.Down := by
  obtain ⟨hfree, hnone⟩ := h.servers_of_start hturn
  refine ⟨by rw [hnone]; rfl, fun {other sec' stage} hstage => ?_⟩
  have hheld := (h.orderly.held other).mp (by rw [hstage]; rfl)
  rw [hfree] at hheld
  contradiction

theorem Orderly.down_of_draining (h : sys.Orderly) {sec : Section} {purpose : Purpose}
    (hturn : sys.turn? who = some (.advances sec (.draining purpose)))
    (hall : Supervisor.allStopped sys.supervisor.servers = true) : sys.Down := by
  refine ⟨hall, fun {other sec' stage} hstage => ?_⟩
  by_cases hother : other = who
  · subst hother
    rcases turn?_cases hturn with ⟨sec'', heq, -, -⟩ | ⟨sec'', stage', heq, hplace⟩
    · cases heq
    · cases heq
      rw [stage?, hplace] at hstage
      cases hstage
      exact ⟨purpose, rfl⟩
  · rw [h.others_outside hturn hother] at hstage
    contradiction

theorem Sound.pluginCalls (h : sys.Sound) (hstep : sys.act? a = some sys') :
    PluginCalls sys a sys' := by
  cases act?_kind hstep with
  | @turn who t hactor hturn hturned =>
      have hof : sys.turnOf? a = some t := turnOf?_of_actor hactor hturn
      have hcalls := sys.supervisor.take_calls t
      rw [← hturned.supervisor] at hcalls
      generalize hafter : sys'.supervisor.calls = calls at hcalls
      cases hcalls with
      | keeps hquiet => exact .none hafter
      | starts hhandles => exact .starts hof (h.down_of_start hturn) hafter
      | stops hall hclears => exact .stops hof (h.orderly.down_of_draining hturn hall) hafter
      | fails hall hclears => exact .none hafter
  | queues hidle hqueued => exact .none (by rw [hqueued.supervisor])
  | aside hidle haside => exact .none haside.supervisor.calls
  | fades hidle hfaded => exact .none (by rw [hfaded.supervisor]; rfl)

theorem PluginCalls.paired (h : PluginCalls sys a sys')
    (hpaired : Supervisor.Paired sys.supervisor.calls) :
    Supervisor.Paired sys'.supervisor.calls := by
  cases h with
  | none hcalls => rw [hcalls]; exact hpaired
  | starts hturn hdown hcalls => rw [hcalls]; exact hpaired.start _ _
  | stops hturn hdown hcalls => rw [hcalls]; exact hpaired.stop _

section Created

variable {plugin : Plugin} {starts stops : List CallOutcome} {dirs : List Path}
  {settings : Settings} {observer : Observer} {files : FileSystem} {s : Supervisor}
  {actions : List Action}

/-- Along every run each start of the plugin comes right after a stop of the same start cycle, so
never after another start, and the plugin is not called while a server is bound. -/
theorem calls_disciplined
    (created : Supervisor.create plugin starts stops dirs settings observer files = .ok s)
    (hrun : (unstarted s).run? actions = some sys) :
    Supervisor.Paired sys.supervisor.calls ∧
      (∀ later second first earlier,
        sys.supervisor.calls ≠ later ++ .start second :: .start first :: earlier) ∧
      ∀ {a sys'}, sys.act? a = some sys' → PluginCalls sys a sys' := by
  have huntouched := (Supervisor.create_eq created).1
  have hempty : Supervisor.Paired (unstarted s).supervisor.calls := by
    intro later outcome earlier heq
    simp [unstarted, Supervisor.calls, huntouched.history] at heq
  have hkept : sys.Sound ∧ Supervisor.Paired sys.supervisor.calls := by
    refine run?_keeps (P := fun sys => sys.Sound ∧ Supervisor.Paired sys.supervisor.calls) ?_
      ⟨sound_unstarted huntouched, hempty⟩ hrun
    intro now next a hnow hstep
    exact ⟨hnow.1.step hstep, (hnow.1.pluginCalls hstep).paired hnow.2⟩
  obtain ⟨hsound, hpaired⟩ := hkept
  exact ⟨hpaired, fun _ _ _ _ => hpaired.not_adjacent, fun hstep => hsound.pluginCalls hstep⟩

/-- A plugin that is started, restarted and about to be served again. -/
theorem calls_disciplined_lone :
    ∃ sys, (unstarted lone).run? [.start true, .call 0, .loop 0, .loop 0, .loop 0, .loop 0,
        .loop 0, .loop 0, .restart, .call 1, .loop 0, .loop 0, .loop 0, .loop 0, .loop 0,
        .loop 0] = some sys ∧
      sys.supervisor.calls = [.start .ok, .stop .ok, .stop .ok, .start .ok, .stop .ok] ∧
      Supervisor.Paired sys.supervisor.calls ∧
      ∀ {a sys'}, sys.act? a = some sys' → PluginCalls sys a sys' := by
  let actions : List Action := [.start true, .call 0, .loop 0, .loop 0, .loop 0, .loop 0,
    .loop 0, .loop 0, .restart, .call 1, .loop 0, .loop 0, .loop 0, .loop 0, .loop 0, .loop 0]
  have hcalls : ((unstarted lone).run? actions).map (·.supervisor.calls) =
      some [.start .ok, .stop .ok, .stop .ok, .start .ok, .stop .ok] := by decide +kernel
  obtain ⟨sys, hrun, hsys⟩ := Option.map_eq_some_iff.mp hcalls
  obtain ⟨hpaired, -, hsteps⟩ := calls_disciplined create_lone hrun
  exact ⟨sys, hrun, hsys, hpaired, hsteps⟩

end Created

end Supervision

end PluginKit
