import PluginKit.Proofs.Lifecycle.Coherence

/-!
# The servers that a stop finds

A stop cycle and the last stop bind nothing and forget no server. So the servers that are bound
when the last of them was stopped are those that the stop has found, each of them stopped.
-/

namespace PluginKit

def Server.halted (server : Server) : Server := { server with task := .stopped }

namespace Supervisor

theorem map_halted_stopFirst (servers : List Server) :
    (stopFirst servers).map Server.halted = servers.map Server.halted := by
  induction servers with
  | nil => rfl
  | cons server rest ih =>
      simp only [stopFirst]
      split
      · rw [List.map_cons, List.map_cons, ih]
      · rfl

theorem map_halted_of_allStopped {servers : List Server} (h : allStopped servers = true) :
    servers.map Server.halted = servers := by
  have hsame : ∀ server ∈ servers, server.halted = server := by
    intro server hmem
    have hstopped : server.task = .stopped := by
      simpa using (List.all_eq_true.mp h) server hmem
    rw [Server.halted, ← hstopped]
  rw [List.map_congr_left hsame, List.map_id']

end Supervisor

namespace Supervision

variable {sys sys' : Supervision} {who : Holder} {a : Action}
  {found : Option (Supervision × Action)}

def begins (sys : Supervision) (a : Action) : Bool :=
  match sys.turnOf? a with
  | some (.enters _) => true
  | _ => false

/-- The latest section that has begun is that of the task that has the lock. If it is none in
which servers are bound, these are the servers it has found, up to their tasks. -/
def Halting (found : Option (Supervision × Action)) (sys : Supervision) : Prop :=
  ∀ who sec stage, sys.stage? who = some (sec, stage) → sec ≠ .cycle .start →
    ∃ entry a, found = some (entry, a) ∧ a.actor? = some who ∧
      entry.turn? who = some (.enters sec) ∧
      sys.supervisor.servers.map Server.halted = entry.supervisor.servers.map Server.halted

theorem Halting.of_same (h : Halting found sys)
    (hstage : ∀ who sec stage, sys'.stage? who = some (sec, stage) →
      ∃ old, sys.stage? who = some (sec, old))
    (hservers : sys'.supervisor.servers.map Server.halted =
      sys.supervisor.servers.map Server.halted) : Halting found sys' := by
  intro who sec stage hs hsec
  obtain ⟨old, hold⟩ := hstage who sec stage hs
  obtain ⟨entry, a, hfound, hactor, hturn, hsame⟩ := h who sec old hold hsec
  exact ⟨entry, a, hfound, hactor, hturn, hservers.trans hsame⟩

theorem Halting.turned {t : Turn} (hs : sys.Sound) (h : Halting found sys)
    (hactor : a.actor? = some who) (hturn : sys.turn? who = some t)
    (hstep : Turned sys who t sys') :
    Halting (if sys.begins a then some (sys, a) else found) sys' := by
  have hof := turnOf?_of_actor hactor hturn
  intro other sec stage hstage hsec
  obtain ⟨hsection, hprogress⟩ := hs.orderly.stage_of_turned hturn hstep hstage
  have hown : other = who := by
    by_cases hother : other = who
    · exact hother
    · have hwhere := hs.orderly.stage?_turned hturn hstep other
      rw [if_neg hother, hstage] at hwhere
      contradiction
  subst hown
  rw [hstep.supervisor]
  rcases turn?_cases hturn with ⟨sec', rfl, -, -⟩ | ⟨sec', old, rfl, hplace⟩
  · obtain rfl : sec' = sec := hsection
    have hbegins : sys.begins a = true := by rw [begins, hof]
    rw [if_pos hbegins]
    refine ⟨sys, a, rfl, hactor, hturn, ?_⟩
    by_cases hperm : sys.supervisor.state = .permanentlyStopped
    · rw [Turn.take, Supervisor.enter_of_stopped hperm]
    · obtain ⟨purpose, henter⟩ := Supervisor.enter_of_not_stopped hperm hsec
      rw [Turn.take, henter]
  · obtain rfl : sec' = sec := hsection
    have hbegins : sys.begins a = false := by rw [begins, hof]
    rw [hbegins]
    obtain ⟨entry, b, hfound, hactor', hturn', hsame⟩ :=
      h _ _ _ (stage?_of_place hplace) hsec
    refine ⟨entry, b, hfound, hactor', hturn', Eq.trans ?_ hsame⟩
    have hoccurs := (hs.orderly.staged (stage?_of_place hplace)).2
    simp only [Turn.take] at hprogress ⊢
    generalize hp : sys.supervisor.advance old = p at hprogress ⊢
    have hadv := Supervisor.advance_cases hp
    cases hadv with
    | drains hleft => exact Supervisor.map_halted_stopFirst _
    | drained hall hend => simp at hprogress
    | _ => rcases sec' with (_ | _) | _ <;> simp_all [Stage.occursIn]

theorem Halting.step (hs : sys.Sound) (h : Halting found sys) (hstep : sys.act? a = some sys') :
    Halting (if sys.begins a then some (sys, a) else found) sys' := by
  have hquiet : sys.turnOf? a = none → sys.begins a = false := by
    intro hidle
    simp [begins, hidle]
  cases act?_kind hstep with
  | turn hactor hturn hturned => exact h.turned hs hactor hturn hturned
  | queues hidle hqueued =>
      rw [hquiet hidle]
      refine h.of_same (fun who sec stage hstage => ?_) (by rw [hqueued.supervisor])
      exact ⟨stage, (hqueued.stage? who).symm.trans hstage⟩
  | aside hidle haside =>
      rw [hquiet hidle]
      refine h.of_same (fun who sec stage hstage => ?_) (by rw [haside.supervisor.servers])
      exact ⟨stage, (haside.stage? who).symm.trans hstage⟩
  | @fades id hidle hfaded =>
      rw [hquiet hidle]
      refine h.of_same (fun who sec stage hstage => ?_) ?_
      · rcases hfaded.stage?_eq who with heq | ⟨kind, old, hbefore, hafter⟩
        · exact ⟨stage, heq.symm.trans hstage⟩
        · rw [hafter] at hstage
          cases hstage
          exact ⟨old, hbefore⟩
      · rw [hfaded.supervisor]
        exact map_endTask (fun _ => rfl) id _

theorem halting_unstarted (s : Supervisor) : Halting none (unstarted s) := by
  intro who sec stage hs
  cases who <;> simp [unstarted, stage?, place, Place.stage?] at hs

theorem halting_of_run {s : Supervisor} {actions : List Action} (h : s.Untouched)
    (hrun : (unstarted s).run? actions = some sys) :
    Halting (latest? begins none (unstarted s) actions) sys := by
  have hkept : sys.Sound ∧ Halting (latest? begins none (unstarted s) actions) sys := by
    refine run?_keeps_latest (P := fun found now => now.Sound ∧ Halting found now)
      (fun hnow hmove => ?_) ⟨sound_unstarted h, halting_unstarted s⟩ hrun
    obtain ⟨hsound, hhalting⟩ := hnow
    exact ⟨hsound.step hmove, hhalting.step hsound hmove⟩
  exact hkept.2

end Supervision

end PluginKit
