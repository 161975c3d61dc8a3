import PluginKit.Proofs.Lifecycle.Turn

/-!
# The lock and the state

At most one task has the lock, and the state tells what is done under it. The state is that of
the last stop exactly if no further request is accepted.
-/

namespace PluginKit

def Section.during : Section → LifecycleState
  | .cycle .start => .starting
  | .cycle .stop => .stopping
  | .farewell => .stopping

def Stage.occursIn : Section → Stage → Bool
  | .cycle .start, .draining (.rollback _) => true
  | .cycle .start, .draining _ => false
  | .cycle .start, _ => true
  | .cycle .stop, .draining .cycle => true
  | .farewell, .draining .farewell => true
  | _, _ => false

theorem Section.during_ne_stopped (sec : Section) : sec.during ≠ .permanentlyStopped := by
  rcases sec with (_ | _) | _ <;> decide

namespace Supervisor

variable {s : Supervisor}

/-- No further request is accepted exactly after the last stop. -/
def Tokened (s : Supervisor) : Prop :=
  s.signals.stopped = true ↔ s.state = .permanentlyStopped

/-- What a turn of a section leaves: the state of the section with one of its stages, or a state
that is not that of a start cycle. -/
structure Keeps (sec : Section) (p : Supervisor × Progress) : Prop where
  tokened : p.1.Tokened
  holding : ∀ stage, p.2 = .inl stage → p.1.state = sec.during ∧ stage.occursIn sec = true
  ended : ∀ outcome, p.2 = .inr outcome → p.1.state ≠ .starting

theorem Tokened.of_eq {t : Supervisor} (h : s.Tokened) (hs : t.signals.stopped = s.signals.stopped)
    (hstate : t.state = .permanentlyStopped ↔ s.state = .permanentlyStopped) : t.Tokened := by
  unfold Tokened at h ⊢
  rw [hs, h, hstate]

theorem Tokened.of_not_stopped {t : Supervisor} (h : s.Tokened)
    (hs : t.signals.stopped = s.signals.stopped) (hperm : s.state ≠ .permanentlyStopped)
    (hstate : t.state ≠ .permanentlyStopped) : t.Tokened :=
  h.of_eq hs ⟨fun heq => (hstate heq).elim, fun heq => (hperm heq).elim⟩

theorem keeps_over {t : Supervisor} {outcome : LifecycleOutcome} {sec : Section}
    (htoken : t.Tokened) (hstate : t.state ≠ .starting) : Keeps sec (t, .inr outcome) :=
  ⟨htoken, nofun, fun _ _ => hstate⟩

theorem keeps_holding {t : Supervisor} {stage : Stage} {sec : Section} (htoken : t.Tokened)
    (hstate : t.state = sec.during) (hstage : stage.occursIn sec = true) :
    Keeps sec (t, .inl stage) :=
  ⟨htoken, fun _ h => by cases h; exact ⟨hstate, hstage⟩, nofun⟩

theorem enterStart_keeps (htoken : s.Tokened) (hstate : s.state ≠ .starting) :
    Keeps (.cycle .start) s.enterStart := by
  generalize hp : s.enterStart = p
  have hopens := enterStart_cases hp
  cases hopens with
  | refused hperm => exact keeps_over htoken hstate
  | bare hperm hnone => exact keeps_over htoken hstate
  | failed hperm hsome hfails =>
      exact keeps_over (htoken.of_not_stopped rfl hperm (by simp)) (by simp)
  | unprepared hperm hsome hstarts hfails =>
      exact keeps_holding (htoken.of_not_stopped rfl hperm (by simp)) rfl rfl
  | prepared hperm hsome hstarts hworks =>
      exact keeps_holding (htoken.of_not_stopped rfl hperm (by simp)) rfl rfl

theorem enter_keeps (sec : Section) (htoken : s.Tokened) (hstate : s.state ≠ .starting) :
    Keeps sec (s.enter sec) := by
  rcases sec with (_ | _) | _
  · exact enterStart_keeps htoken hstate
  · by_cases hperm : s.state = .permanentlyStopped
    · simp only [enter, enterStop_of_stopped hperm]
      exact keeps_over htoken hstate
    · simp only [enter, enterStop_of_not_stopped hperm]
      exact keeps_holding (htoken.of_not_stopped rfl hperm (by simp)) rfl rfl
  · by_cases hperm : s.state = .permanentlyStopped
    · simp only [enter, enterFarewell_of_stopped hperm]
      exact keeps_over htoken hstate
    · simp only [enter, enterFarewell_of_not_stopped hperm]
      exact keeps_holding (htoken.of_not_stopped rfl hperm (by simp)) rfl rfl

theorem Drained.tokened {purpose : Purpose} {t : Supervisor} {outcome : LifecycleOutcome}
    (h : Drained s purpose t outcome) (htoken : s.Tokened)
    (hperm : s.state ≠ .permanentlyStopped) : t.Tokened := by
  have hstopped : s.signals.stopped = false := by
    simpa using fun hs => hperm (htoken.mp hs)
  unfold Tokened
  rw [h.stopped, h.state, hstopped]
  cases purpose with
  | rollback cause => simp [leaves]
  | cycle =>
      simp only [leaves]
      split <;> simp [hperm]
  | farewell => simp [leaves]

theorem advance_keeps {sec : Section} {stage : Stage} (htoken : s.Tokened)
    (hstate : s.state = sec.during) (hstage : stage.occursIn sec = true) :
    Keeps sec (s.advance stage) := by
  have hperm : s.state ≠ .permanentlyStopped := hstate ▸ sec.during_ne_stopped
  generalize hp : s.advance stage = p
  have hadv := advance_cases hp
  have hstart : (∀ purpose, stage ≠ .draining purpose) → sec = .cycle .start := by
    intro hne
    rcases sec with (_ | _) | _ <;> cases stage <;> simp_all [Stage.occursIn]
  cases hadv with
  | serves => exact keeps_over (htoken.of_not_stopped rfl hperm (by simp)) (by simp)
  | binds =>
      rw [hstart nofun] at hstate ⊢
      exact keeps_holding (htoken.of_eq rfl Iff.rfl) hstate rfl
  | unbound =>
      rw [hstart nofun] at hstate ⊢
      exact keeps_holding htoken hstate rfl
  | dialed =>
      rw [hstart nofun] at hstate ⊢
      exact keeps_holding (htoken.of_eq rfl Iff.rfl) hstate rfl
  | undialed =>
      rw [hstart nofun] at hstate ⊢
      exact keeps_holding htoken hstate rfl
  | givesUp =>
      rw [hstart nofun] at hstate ⊢
      exact keeps_holding htoken hstate rfl
  | drains hleft => exact keeps_holding (htoken.of_eq rfl Iff.rfl) hstate hstage
  | @drained purpose t outcome hall hend =>
      refine keeps_over (hend.tokened htoken hperm) ?_
      rw [hend.state]
      rcases sec with (_ | _) | _ <;> cases purpose <;>
        simp_all [Stage.occursIn, leaves, Section.during]
      split <;> simp

end Supervisor

namespace Supervision

variable {sys sys' : Supervision} {who : Holder} {a : Action}

/-- The lock, the stages and the state go together. -/
structure Orderly (sys : Supervision) : Prop where
  held : ∀ who, (sys.stage? who).isSome = true ↔ sys.lock = some who
  staged : ∀ {who sec stage}, sys.stage? who = some (sec, stage) →
    sys.supervisor.state = sec.during ∧ stage.occursIn sec = true
  settled : sys.lock = none → sys.supervisor.state ≠ .starting
  tokened : sys.supervisor.Tokened

theorem orderly_unstarted {s : Supervisor} (hstate : s.state = .idle)
    (hstopped : s.signals.stopped = false) : (unstarted s).Orderly where
  held who := by cases who <;> simp [unstarted, stage?, place, Place.stage?]
  staged {who} _ _ h := by cases who <;> simp [unstarted, stage?, place, Place.stage?] at h
  settled _ := by simp [unstarted, hstate]
  tokened := by simp [unstarted, Supervisor.Tokened, hstate, hstopped]

theorem turn?_cases {t : Turn} (h : sys.turn? who = some t) :
    (∃ sec, t = .enters sec ∧ sys.lock = none ∧
      (sys.place who = some (sec, .asking) ∧ sys.queue = [] ∨
        sys.place who = some (sec, .queued) ∧ sys.queue.head? = some who)) ∨
    ∃ sec stage, t = .advances sec stage ∧ sys.place who = some (sec, .holding stage) := by
  unfold turn? at h
  split at h
  · contradiction
  · rename_i sec stage hplace
    cases h
    exact .inr ⟨sec, stage, rfl, hplace⟩
  · rename_i sec hplace
    split at h
    · rename_i hfree
      cases h
      exact .inl ⟨sec, rfl, hfree.1, .inl ⟨hplace, hfree.2⟩⟩
    · contradiction
  · rename_i sec hplace
    split at h
    · rename_i hfree
      cases h
      exact .inl ⟨sec, rfl, hfree.1, .inr ⟨hplace, hfree.2⟩⟩
    · contradiction

theorem Orderly.turn_keeps {t : Turn} (h : sys.Orderly) (hturn : sys.turn? who = some t) :
    Supervisor.Keeps t.section_ (t.take sys.supervisor) := by
  rcases turn?_cases hturn with ⟨sec, rfl, hlock, -⟩ | ⟨sec, stage, rfl, hplace⟩
  · exact Supervisor.enter_keeps sec h.tokened (h.settled hlock)
  · have hstage := stage?_of_place hplace
    obtain ⟨hstate, hoccurs⟩ := h.staged hstage
    exact Supervisor.advance_keeps h.tokened hstate hoccurs

/-- The others have no stage when a task makes a turn. -/
theorem Orderly.others_outside {t : Turn} (h : sys.Orderly) (hturn : sys.turn? who = some t)
    {other : Holder} (hother : other ≠ who) : sys.stage? other = none := by
  rcases turn?_cases hturn with ⟨sec, rfl, hlock, -⟩ | ⟨sec, stage, rfl, hplace⟩
  · cases hs : sys.stage? other with
    | none => rfl
    | some held =>
        have hheld := (h.held other).mp (by rw [hs]; rfl)
        simp [hlock] at hheld
  · have hstage := stage?_of_place hplace
    have hlock := (h.held who).mp (by rw [hstage]; rfl)
    cases hs : sys.stage? other with
    | none => rfl
    | some held =>
        have hheld := (h.held other).mp (by rw [hs]; rfl)
        rw [hlock] at hheld
        exact absurd (Option.some.inj hheld).symm hother

theorem stage?_after (sec : Section) (p : Progress) :
    (Place.after sec p).stage? =
      match p with
      | .inl stage => some (sec, stage)
      | .inr _ => none := by
  cases p <;> rfl

/-- The one stage after a turn is that of the task that made it. -/
theorem Orderly.stage?_turned {t : Turn} (h : sys.Orderly) (hturn : sys.turn? who = some t)
    (hstep : Turned sys who t sys') (other : Holder) :
    sys'.stage? other =
      if other = who then (Place.after t.section_ (t.take sys.supervisor).2).stage? else none := by
  by_cases hother : other = who
  · rw [if_pos hother, hother, stage?, hstep.place]
  · rw [if_neg hother, stage?, hstep.others other hother]
    exact h.others_outside hturn hother

theorem Orderly.stage_of_turned {t : Turn} (h : sys.Orderly) (hturn : sys.turn? who = some t)
    (hstep : Turned sys who t sys') {other : Holder} {sec : Section} {stage : Stage}
    (hstage : sys'.stage? other = some (sec, stage)) :
    t.section_ = sec ∧ (t.take sys.supervisor).2 = .inl stage := by
  rw [h.stage?_turned hturn hstep] at hstage
  split at hstage
  · rw [stage?_after] at hstage
    split at hstage
    · rename_i stage' hprogress
      cases hstage
      exact ⟨rfl, hprogress⟩
    · contradiction
  · contradiction

theorem Orderly.turned {t : Turn} (h : sys.Orderly) (hturn : sys.turn? who = some t)
    (hstep : Turned sys who t sys') : sys'.Orderly := by
  have hkeeps := h.turn_keeps hturn
  refine ⟨fun other => ?_, fun {other sec stage} hstage => ?_, fun hfree => ?_, ?_⟩
  · rw [h.stage?_turned hturn hstep, hstep.lock]
    generalize (t.take sys.supervisor).2 = p
    by_cases hother : other = who
    · subst hother
      cases p <;> simp [stage?_after, lockAfter]
    · cases p <;> simp [hother, lockAfter, Ne.symm hother]
  · obtain ⟨rfl, hprogress⟩ := h.stage_of_turned hturn hstep hstage
    rw [hstep.supervisor]
    exact hkeeps.holding stage hprogress
  · rw [hstep.lock] at hfree
    obtain ⟨outcome, hover⟩ := lockAfter_eq_none hfree
    rw [hstep.supervisor]
    exact hkeeps.ended outcome hover
  · rw [hstep.supervisor]
    exact hkeeps.tokened

theorem Queued.stage? (h : Queued sys who sys') (other : Holder) :
    sys'.stage? other = sys.stage? other := by
  by_cases hother : other = who
  · subst hother
    obtain ⟨sec, hbefore, hafter⟩ := h.place
    simp [Supervision.stage?, hbefore, hafter, Place.stage?]
  · rw [Supervision.stage?, h.others other hother, Supervision.stage?]

theorem Aside.stage? (h : Aside sys sys') (who : Holder) : sys'.stage? who = sys.stage? who := by
  rcases h.places who with heq | ⟨hbefore, hafter⟩
  · rw [Supervision.stage?, heq, Supervision.stage?]
  · rw [Supervision.stage?, Supervision.stage?, Place.stage?_of_outside hbefore,
      Place.stage?_of_outside hafter]

/-- A step that keeps the lock and the stages, up to tasks that end, keeps the order. -/
theorem Orderly.of_same (h : sys.Orderly) (hlock : sys'.lock = sys.lock)
    (hstage : ∀ who, sys'.stage? who = sys.stage? who)
    (hstate : sys'.supervisor.state = sys.supervisor.state)
    (hstopped : sys'.supervisor.signals.stopped = sys.supervisor.signals.stopped) :
    sys'.Orderly where
  held who := by rw [hstage, hlock]; exact h.held who
  staged {who _ _} hs := by rw [hstate]; exact h.staged ((hstage who).symm.trans hs)
  settled hfree := by rw [hstate]; exact h.settled (hlock.symm.trans hfree)
  tokened := h.tokened.of_eq hstopped (by rw [hstate])

theorem occursIn_endTaskIn (id : Nat) (stage : Stage) (sec : Section) :
    (endTaskIn id stage).occursIn sec = stage.occursIn sec := by
  rcases sec with (_ | _) | _ <;> cases stage <;> rfl

theorem Faded.stage?_eq {id : Nat} (h : Faded sys id sys') (who : Holder) :
    sys'.stage? who = sys.stage? who ∨ ∃ kind stage, sys.stage? who = some (.cycle kind, stage) ∧
      sys'.stage? who = some (.cycle kind, endTaskIn id stage) := by
  simp only [stage?, h.places who]
  rcases sys.place who with _ | ⟨kind | _, access⟩
  · exact .inl rfl
  · cases access with
    | asking => exact .inl rfl
    | queued => exact .inl rfl
    | holding stage => exact .inr ⟨kind, stage, rfl, rfl⟩
  · exact .inl rfl

theorem Orderly.faded {id : Nat} (h : sys.Orderly) (hstep : Faded sys id sys') :
    sys'.Orderly where
  held who := by
    rw [hstep.lock, ← h.held who]
    rcases hstep.stage?_eq who with heq | ⟨kind, stage, hbefore, hafter⟩
    · rw [heq]
    · simp [hbefore, hafter]
  staged {who sec stage} hs := by
    have hstate : sys'.supervisor.state = sys.supervisor.state := by rw [hstep.supervisor]
    rw [hstate]
    rcases hstep.stage?_eq who with heq | ⟨kind, old, hbefore, hafter⟩
    · exact h.staged (heq.symm.trans hs)
    · rw [hafter] at hs
      cases hs
      obtain ⟨hduring, hoccurs⟩ := h.staged hbefore
      exact ⟨hduring, (occursIn_endTaskIn id old _).trans hoccurs⟩
  settled hfree := by
    rw [hstep.supervisor]
    exact h.settled (hstep.lock.symm.trans hfree)
  tokened := by
    refine h.tokened.of_eq ?_ (by rw [hstep.supervisor])
    rw [hstep.supervisor]
    exact Signals.requestRestart_stopped _

theorem Orderly.step (h : sys.Orderly) (hstep : sys.act? a = some sys') : sys'.Orderly := by
  cases act?_kind hstep with
  | turn hactor hturn hturned => exact h.turned hturn hturned
  | queues hidle hqueued =>
      exact h.of_same hqueued.lock hqueued.stage? (by rw [hqueued.supervisor])
        (by rw [hqueued.supervisor])
  | aside hidle haside =>
      exact h.of_same haside.lock haside.stage? haside.supervisor.state haside.supervisor.stopped
  | fades hidle hfaded => exact h.faded hfaded

end Supervision

end PluginKit
