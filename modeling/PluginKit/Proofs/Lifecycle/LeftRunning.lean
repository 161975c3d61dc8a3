import PluginKit.Proofs.Lifecycle.Discipline

/-!
# Plugins left running

A start cycle that fails after it has started the plugin should stop it again, and so should the
last stop. Both remove the socket files first and leave the plugin alone when that fails. This
is the only way in which a supervisor that is idle or stopped for good has a plugin that runs.
-/

namespace PluginKit

def Supervisor.pluginRuns (s : Supervisor) : Bool := s.calls.head? == some (.start .ok)

namespace Supervision

variable {sys sys' : Supervision} {who : Holder} {a : Action}
  {found : Option (Supervision × Action)}

def handles (sys : Supervision) (a : Action) : Bool :=
  (sys.turnOf? a).any (Turn.handles sys.supervisor)

/-- Of the latest action at which the plugin was to be called: it was the end of a section that
had stopped all servers, the plugin ran, and the socket files could not be removed. -/
def LeftRunning (found : Option (Supervision × Action)) : Prop :=
  ∃ mid a sec purpose, found = some (mid, a) ∧
    mid.turnOf? a = some (.advances sec (.draining purpose)) ∧
    mid.supervisor.pluginRuns = true ∧ mid.supervisor.clears = false

/-- How a run and the latest such action in it go together: a plugin runs if it was left running,
or else in a start cycle and while it is served. -/
structure Traced (found : Option (Supervision × Action)) (sys : Supervision) : Prop where
  runs_of_left : LeftRunning found → sys.supervisor.pluginRuns = true
  of_runs : sys.supervisor.pluginRuns = true →
    LeftRunning found ∨ (sys.lock = none → sys.supervisor.state = .serving)

theorem traced_unstarted {s : Supervisor} (h : s.history = []) : Traced none (unstarted s) where
  runs_of_left := fun ⟨_, _, _, _, hfound, _⟩ => by cases hfound
  of_runs hruns := by simp [unstarted, Supervisor.pluginRuns, Supervisor.calls, h] at hruns

theorem Traced.of_same (h : Traced found sys)
    (hcalls : sys'.supervisor.calls = sys.supervisor.calls)
    (hserved : (sys.lock = none → sys.supervisor.state = .serving) →
      sys'.lock = none → sys'.supervisor.state = .serving) : Traced found sys' := by
  have hruns : sys'.supervisor.pluginRuns = sys.supervisor.pluginRuns := by
    rw [Supervisor.pluginRuns, hcalls, Supervisor.pluginRuns]
  constructor
  · intro hleft
    rw [hruns]
    exact h.runs_of_left hleft
  · intro hnow
    rw [hruns] at hnow
    exact (h.of_runs hnow).imp id hserved

/-- A turn at which the plugin is not to be called gives the lock back only to a served plugin,
if only served plugins were found with the lock free. -/
theorem served_of_quiet {t : Turn} (hturn : sys.turn? who = some t)
    (hstep : Turned sys who t sys') (hquiet : t.handles sys.supervisor = false)
    (hserved : sys.lock = none → sys.supervisor.state = .serving) (hfree : sys'.lock = none) :
    sys'.supervisor.state = .serving := by
  rw [hstep.lock] at hfree
  rw [hstep.supervisor]
  obtain ⟨outcome, hover⟩ := lockAfter_eq_none hfree
  rcases turn?_cases hturn with ⟨sec, rfl, hlock, -⟩ | ⟨sec, stage, rfl, -⟩
  · have hserving := hserved hlock
    have hperm : sys.supervisor.state ≠ .permanentlyStopped := by rw [hserving]; decide
    simp only [Turn.take] at hover ⊢
    by_cases hsec : sec = .cycle .start
    · subst hsec
      have hnone : sys.supervisor.sockets = [] := by
        simpa [Turn.handles, hperm] using hquiet
      rw [Supervisor.enter, Supervisor.enterStart, if_neg hperm, if_pos hnone]
      exact hserving
    · obtain ⟨purpose, henter⟩ := Supervisor.enter_of_not_stopped hperm hsec
      rw [henter] at hover
      contradiction
  · simp only [Turn.take] at hover ⊢
    generalize hp : sys.supervisor.advance stage = p at hover ⊢
    have hadv := Supervisor.advance_cases hp
    cases hadv with
    | serves => rfl
    | drained hall hend => rw [Turn.handles, hall] at hquiet; contradiction
    | _ => simp at hover

/-- A start cycle that has started the plugin goes on under the lock. -/
theorem held_of_start (hstep : Turned sys who (.enters (.cycle .start)) sys')
    (hhandles : (Turn.enters (.cycle .start)).handles sys.supervisor = true)
    (hstarts : sys.supervisor.nextStart = .ok) : sys'.lock ≠ none := by
  rw [hstep.lock]
  simp only [Turn.take, Supervisor.enter]
  generalize hp : sys.supervisor.enterStart = p
  have hopens := Supervisor.enterStart_cases hp
  cases hopens with
  | refused hperm => simp [Turn.handles, hperm] at hhandles
  | bare hperm hnone => simp [Turn.handles, hnone] at hhandles
  | failed hperm hsome hfails => exact absurd hstarts hfails
  | unprepared hperm hsome hok hfails => simp [lockAfter]
  | prepared hperm hsome hok hworks => simp [lockAfter]

theorem Traced.turned {t : Turn} (h : Traced found sys) (hof : sys.turnOf? a = some t)
    (hturn : sys.turn? who = some t) (hstep : Turned sys who t sys') :
    Traced (if sys.handles a then some (sys, a) else found) sys' := by
  have hhandles : sys.handles a = t.handles sys.supervisor := by
    rw [handles, hof, Option.any_some]
  rw [hhandles]
  have hcalls := sys.supervisor.take_calls t
  rw [← hstep.supervisor] at hcalls
  generalize hafter : sys'.supervisor.calls = calls at hcalls
  cases hcalls with
  | keeps hquiet =>
      rw [hquiet]
      exact h.of_same hafter fun hserved => served_of_quiet hturn hstep hquiet hserved
  | starts hstarts =>
      rw [hstarts]
      constructor
      · rintro ⟨mid, b, sec, purpose, hfound, hdraining, -, -⟩
        cases hfound
        rw [hof] at hdraining
        cases hdraining
      · intro hruns
        have hok : sys.supervisor.nextStart = .ok := by
          simpa [Supervisor.pluginRuns, hafter] using hruns
        exact .inr fun hfree => absurd hfree (held_of_start hstep hstarts hok)
  | stops hall hclears =>
      rw [Turn.handles, hall]
      constructor
      · rintro ⟨mid, b, sec, purpose, hfound, -, -, hblocked⟩
        cases hfound
        rw [hclears] at hblocked
        contradiction
      · intro hruns
        simp [Supervisor.pluginRuns, hafter] at hruns
  | fails hall hclears =>
      have hruns : sys'.supervisor.pluginRuns = sys.supervisor.pluginRuns := by
        rw [Supervisor.pluginRuns, hafter, Supervisor.pluginRuns]
      rw [Turn.handles, hall]
      constructor
      · rintro ⟨mid, b, sec, purpose, hfound, -, hbefore, -⟩
        cases hfound
        rw [hruns]
        exact hbefore
      · intro hnow
        rw [hruns] at hnow
        exact .inl ⟨sys, a, _, _, rfl, hof, hnow, hclears⟩

theorem Traced.step (h : Traced found sys) (hstep : sys.act? a = some sys') :
    Traced (if sys.handles a then some (sys, a) else found) sys' := by
  have hquiet : sys.turnOf? a = none → sys.handles a = false := by
    intro hidle
    rw [handles, hidle, Option.any_none]
  cases act?_kind hstep with
  | turn hactor hturn hturned =>
      exact h.turned (turnOf?_of_actor hactor hturn) hturn hturned
  | queues hidle hqueued =>
      rw [hquiet hidle]
      refine h.of_same (by rw [hqueued.supervisor]) fun hserved => ?_
      rw [hqueued.supervisor, hqueued.lock]
      exact hserved
  | aside hidle haside =>
      rw [hquiet hidle]
      refine h.of_same haside.supervisor.calls fun hserved => ?_
      rw [haside.supervisor.state, haside.lock]
      exact hserved
  | fades hidle hfaded =>
      rw [hquiet hidle]
      refine h.of_same (by rw [hfaded.supervisor]; rfl) fun hserved => ?_
      rw [hfaded.supervisor, hfaded.lock]
      exact hserved

section Created

variable {plugin : Plugin} {starts stops : List CallOutcome} {dirs : List Path}
  {settings : Settings} {observer : Observer} {files : FileSystem} {s : Supervisor}
  {actions : List Action}

/-- With the lock free and the supervisor idle or stopped for good, the plugin runs exactly if it
ran when a section last came to its end, and that section could not remove the socket files. -/
theorem runs_iff_leftRunning
    (created : Supervisor.create plugin starts stops dirs settings observer files = .ok s)
    (hrun : (unstarted s).run? actions = some sys) (hfree : sys.lock = none)
    (hstate : sys.supervisor.state = .idle ∨ sys.supervisor.state = .permanentlyStopped) :
    sys.supervisor.pluginRuns = true ↔ LeftRunning (latest? handles none (unstarted s) actions) := by
  have hempty := (Supervisor.create_eq created).1.history
  have htraced : Traced (latest? handles none (unstarted s) actions) sys :=
    run?_keeps_latest (fun h hstep => h.step hstep) (traced_unstarted hempty) hrun
  constructor
  · intro hruns
    rcases htraced.of_runs hruns with hleft | hserved
    · exact hleft
    · rcases hstate with hidle | hstopped
      · rw [hserved hfree] at hidle
        contradiction
      · rw [hserved hfree] at hstopped
        contradiction
  · exact htraced.runs_of_left

/-- A supervisor whose one registration directory is a file. -/
def blocked : Supervisor :=
  { lone with
    files := FileSystem.fresh.put ["f".toList, "work".toList, "tmp".toList] ⟨.file [], 0o644⟩
    sockets := [⟨"f/x.sock".toList⟩] }

theorem create_blocked :
    Supervisor.create (.dummy .reporter (some "x") none) [] [] [⟨['f']⟩] {} {} blocked.files =
      .ok blocked := rfl

def blockedStart : List Action := [.start true, .call 0, .loop 0, .loop 0]

theorem blockedStart_run :
    ((unstarted blocked).run? blockedStart).map
        (fun sys => (sys.lock, sys.supervisor.state, sys.supervisor.calls)) =
      some (none, .idle, [.start .ok, .stop .ok]) := by decide +kernel

theorem runs_iff_leftRunning_blocked :
    ∃ sys, (unstarted blocked).run? blockedStart = some sys ∧ sys.lock = none ∧
      sys.supervisor.state = .idle ∧
      (sys.supervisor.pluginRuns = true ↔
        LeftRunning (latest? handles none (unstarted blocked) blockedStart)) := by
  obtain ⟨sys, hrun, hsys⟩ := Option.map_eq_some_iff.mp blockedStart_run
  obtain ⟨hfree, hrest⟩ := Prod.mk.inj hsys
  obtain ⟨hidle, -⟩ := Prod.mk.inj hrest
  exact ⟨sys, hrun, hfree, hidle, runs_iff_leftRunning create_blocked hrun hfree (.inl hidle)⟩

/-- Not every idle supervisor has stopped its plugin: the directory that cannot be made keeps the
socket file from being removed as well. -/
theorem blocked_runs :
    ∃ sys, (unstarted blocked).run? blockedStart = some sys ∧ sys.lock = none ∧
      sys.supervisor.state = .idle ∧ sys.supervisor.pluginRuns = true := by
  obtain ⟨sys, hrun, hsys⟩ := Option.map_eq_some_iff.mp blockedStart_run
  obtain ⟨hfree, hrest⟩ := Prod.mk.inj hsys
  obtain ⟨hidle, hcalls⟩ := Prod.mk.inj hrest
  exact ⟨sys, hrun, hfree, hidle, by rw [Supervisor.pluginRuns, hcalls]; rfl⟩

end Created

end Supervision

end PluginKit
