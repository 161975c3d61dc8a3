import PluginKit.Proofs.Lifecycle.Loops
import PluginKit.Proofs.Lifecycle.Queue

/-!
# Everything that is kept

Outside of sections only a served plugin has servers. With the order of the lock, the loop at
work and the queue, this is what every supervision keeps that a new supervisor comes to.
-/

namespace PluginKit

namespace Supervisor

variable {plugin : Plugin} {starts stops : List CallOutcome} {dirs : List Path}
  {settings : Settings} {observer : Observer} {files : FileSystem} {s : Supervisor}

structure Untouched (s : Supervisor) : Prop where
  state : s.state = .idle
  servers : s.servers = []
  signals : s.signals = .quiet
  history : s.history = []
  transport : s.transport = .works

theorem create_eq (h : create plugin starts stops dirs settings observer files = .ok s) :
    s.Untouched ∧ s.sockets = Socket.paths dirs s.name := by
  unfold create at h
  cases hres : plugin.resolve with
  | error r => rw [hres] at h; cases h
  | ok descriptor =>
      rw [hres] at h
      cases h
      exact ⟨⟨rfl, rfl, rfl, rfl, rfl⟩, rfl⟩

theorem create_given (h : create plugin starts stops dirs settings observer files = .ok s) :
    s.startScript = starts ∧ s.stopScript = stops ∧ s.observer = observer := by
  unfold create at h
  cases hres : plugin.resolve with
  | error r => rw [hres] at h; cases h
  | ok descriptor =>
      rw [hres] at h
      cases h
      exact ⟨rfl, rfl, rfl⟩

end Supervisor

namespace Supervision

variable {sys sys' : Supervision} {who : Holder} {a : Action}

theorem Attended.unserved (h : sys.Attended)
    (hturn : sys.turn? who = some (.enters (.cycle .start))) :
    sys.supervisor.state ≠ .serving := by
  intro hserving
  have hperm : sys.supervisor.state ≠ .permanentlyStopped := by rw [hserving]; decide
  rcases turn?_cases hturn with ⟨sec, hsec, hlock, hplace⟩ | ⟨sec, stage, hsec, -⟩
  · cases hsec
    have hsome : ∃ access, sys.place who = some (.cycle .start, access) := by
      rcases hplace with ⟨hasking, -⟩ | ⟨hqueued, -⟩
      · exact ⟨_, hasking⟩
      · exact ⟨_, hqueued⟩
    obtain ⟨access, hplace⟩ := hsome
    obtain ⟨k, tender, hlaunched, htender, htends⟩ := h.tended hlock hserving
    obtain ⟨i, rfl, hloop⟩ := h.loop_of_place hplace
    -- it is the one loop at work, and that has the plugin in its care
    have heq : k = i := Option.some.inj (hlaunched.symm.trans (h.alone hperm hloop rfl))
    subst heq
    rw [hloop] at htender
    cases htender
    simp [Loop.tends] at htends
  · cases hsec

/-- Outside of sections only a served plugin has servers. -/
def Vacant (sys : Supervision) : Prop :=
  sys.lock = none → sys.supervisor.state ≠ .serving → sys.supervisor.servers = []

theorem Vacant.turned {t : Turn} (ha : sys.Attended) (h : sys.Vacant)
    (hturn : sys.turn? who = some t) (hstep : Turned sys who t sys') : sys'.Vacant := by
  intro hfree hstate
  rw [hstep.lock] at hfree
  rw [hstep.supervisor] at hstate ⊢
  obtain ⟨outcome, hover⟩ := lockAfter_eq_none hfree
  rcases turn?_cases hturn with ⟨sec, rfl, hlock, -⟩ | ⟨sec, stage, rfl, -⟩
  · simp only [Turn.take] at hover hstate ⊢
    by_cases hperm : sys.supervisor.state = .permanentlyStopped
    · rw [Supervisor.enter_of_stopped hperm] at hstate ⊢
      exact h hlock hstate
    · by_cases hsec : sec = .cycle .start
      · subst hsec
        have hidle := h hlock (ha.unserved hturn)
        simp only [Supervisor.enter] at hover hstate ⊢
        generalize hp : sys.supervisor.enterStart = p at hover hstate ⊢
        have hopens := Supervisor.enterStart_cases hp
        cases hopens with
        | unprepared _ _ _ _ => simp at hover
        | prepared _ _ _ _ => simp at hover
        | _ => exact hidle
      · obtain ⟨purpose, henter⟩ := Supervisor.enter_of_not_stopped hperm hsec
        rw [henter] at hover
        contradiction
  · simp only [Turn.take] at hover hstate ⊢
    generalize hp : sys.supervisor.advance stage = p at hover hstate ⊢
    have hadv := Supervisor.advance_cases hp
    cases hadv with
    | serves => simp at hstate
    | drained hall hend => exact hend.servers
    | _ => simp at hover

theorem Vacant.step (ha : sys.Attended) (h : sys.Vacant)
    (hstep : sys.act? a = some sys') : sys'.Vacant := by
  cases act?_kind hstep with
  | turn hactor hturn hturned => exact h.turned ha hturn hturned
  | queues hidle hqueued =>
      intro hfree hstate
      rw [hqueued.supervisor] at hstate ⊢
      exact h (hqueued.lock ▸ hfree) hstate
  | aside hidle haside =>
      intro hfree hstate
      rw [haside.supervisor.state] at hstate
      rw [haside.supervisor.servers]
      exact h (haside.lock ▸ hfree) hstate
  | fades hidle hfaded =>
      intro hfree hstate
      rw [hfaded.supervisor] at hstate ⊢
      have hnone : sys.supervisor.servers = [] := h (hfaded.lock ▸ hfree) hstate
      simp [endTask, hnone]

/-- What every supervision keeps. -/
structure Sound (sys : Supervision) : Prop where
  orderly : sys.Orderly
  attended : sys.Attended
  lined : sys.Lined
  vacant : sys.Vacant

theorem sound_unstarted {s : Supervisor} (h : s.Untouched) : (unstarted s).Sound where
  orderly := orderly_unstarted h.state (by rw [h.signals]; rfl)
  attended := attended_unstarted h.state
  lined := lined_unstarted s
  vacant _ _ := h.servers

theorem Sound.step (h : sys.Sound) (hstep : sys.act? a = some sys') : sys'.Sound where
  orderly := h.orderly.step hstep
  attended := h.attended.step h.orderly hstep
  lined := h.lined.step hstep
  vacant := h.vacant.step h.attended hstep

theorem Sound.servers_of_start (h : sys.Sound)
    (hturn : sys.turn? who = some (.enters (.cycle .start))) :
    sys.lock = none ∧ sys.supervisor.servers = [] := by
  rcases turn?_cases hturn with ⟨sec, -, hfree, -⟩ | ⟨sec, stage, heq, -⟩
  · exact ⟨hfree, h.vacant hfree (h.attended.unserved hturn)⟩
  · cases heq

/-- Every supervision that a new supervisor comes to is sound. -/
theorem sound_of_run {s : Supervisor} {actions : List Action} (h : s.Untouched)
    (hrun : (unstarted s).run? actions = some sys) : sys.Sound :=
  run?_keeps (fun hsound hstep => hsound.step hstep) (sound_unstarted h) hrun

/-- A supervisor with one registration directory, that is not there yet. -/
def lone : Supervisor :=
  { handshake := ⟨⟨"x", "x", .reporter, ["v1alpha1"]⟩, none⟩
    settings := {}
    observer := {}
    plugin := .dummy .reporter (some "x") none
    startScript := []
    stopScript := []
    files := .fresh
    sockets := [⟨"d/x.sock".toList⟩] }

theorem create_lone :
    Supervisor.create (.dummy .reporter (some "x") none) [] [] [⟨['d']⟩] {} {} .fresh =
      .ok lone := rfl

end Supervision

end PluginKit
