import PluginKit.Proofs.Lifecycle.Rest

/-!
# A stop comes to its end

A section is over after a bounded number of steps, and the lock is handed on in the order of the
queue. So wherever a supervision stands when a stop is called for, the steps of loops and calls
alone bring it to the last stop, and to the end of all that is left then.
-/

namespace PluginKit

/-- How many steps a section has left, at most, with a number of servers not stopped yet. -/
def Stage.remaining (unstopped : Nat) : Stage → Nat
  | binding left => 3 * left.length + unstopped + 1
  | dialing _ left => 3 * left.length + unstopped + 3
  | giveUp _ _ => unstopped + 2
  | draining _ => unstopped + 1

namespace Supervisor

variable {s s' : Supervisor}

def unstopped : List Server → Nat := total fun server => if server.task = .stopped then 0 else 1

@[simp] theorem unstopped_nil : unstopped [] = 0 := rfl

theorem unstopped_append (servers servers' : List Server) :
    unstopped (servers ++ servers') = unstopped servers + unstopped servers' :=
  total_append _ _ _

theorem unstopped_singleton_le (server : Server) : unstopped [server] ≤ 1 := by
  simp only [unstopped, total]
  split <;> omega

theorem unstopped_stopFirst {servers : List Server} (h : allStopped servers = false) :
    unstopped (stopFirst servers) < unstopped servers := by
  induction servers with
  | nil => contradiction
  | cons server rest ih =>
      by_cases hstopped : server.task = .stopped
      · have hrest : allStopped rest = false := by simpa [allStopped, hstopped] using h
        have hless := ih hrest
        simp only [stopFirst, if_pos hstopped]
        simpa [unstopped, total, hstopped] using hless
      · simp only [stopFirst, if_neg hstopped]
        simp [unstopped, total, hstopped]

/-- Every stage brings the section closer to its end. -/
theorem Advances.fewer {stage next : Stage} (h : Advances s stage (s', .inl next)) :
    next.remaining (unstopped s'.servers) < stage.remaining (unstopped s.servers) := by
  cases h with
  | binds =>
      simp only [Stage.remaining, List.length_cons]
      omega
  | unbound =>
      simp only [Stage.remaining, List.length_cons]
      omega
  | @dialed server left =>
      have hone := unstopped_singleton_le server
      simp only [Stage.remaining, unstopped_append]
      omega
  | undialed =>
      simp only [Stage.remaining]
      omega
  | givesUp =>
      simp only [Stage.remaining]
      omega
  | drains hleft =>
      have hless := unstopped_stopFirst hleft
      simp only [Stage.remaining]
      omega

end Supervisor

namespace Supervision

variable {sys sys' mid : Supervision} {who : Holder} {a : Action}

/-! ## Steps of loops and calls alone -/

/-- The steps of loops and calls lead from one supervision to another, without anything from
outside. -/
def Leads (sys sys' : Supervision) : Prop :=
  ∃ actions, (∀ a ∈ actions, a.actor?.isSome = true) ∧ sys.run? actions = some sys'

theorem Leads.refl (sys : Supervision) : sys.Leads sys := ⟨[], by simp, rfl⟩

theorem Leads.head (hactor : a.actor?.isSome = true) (hstep : sys.act? a = some mid)
    (h : mid.Leads sys') : sys.Leads sys' := by
  obtain ⟨actions, hactors, hrun⟩ := h
  refine ⟨a :: actions, List.forall_mem_cons.mpr ⟨hactor, hactors⟩, ?_⟩
  rw [run?_cons, hstep, Option.bind_some, hrun]

theorem Leads.trans (h : sys.Leads mid) (h' : mid.Leads sys') : sys.Leads sys' := by
  obtain ⟨actions, hactors, hrun⟩ := h
  induction actions generalizing sys with
  | nil =>
      cases hrun
      exact h'
  | cons a rest ih =>
      rw [run?_cons] at hrun
      obtain ⟨next, hnext, hrest⟩ := Option.bind_eq_some_iff.mp hrun
      obtain ⟨hfirst, hothers⟩ := List.forall_mem_cons.mp hactors
      exact .head hfirst hnext (ih hothers hrest)

theorem Sound.leads (h : sys.Sound) (hleads : sys.Leads sys') : sys'.Sound := by
  obtain ⟨actions, -, hrun⟩ := hleads
  exact run?_keeps (fun hsound hstep => hsound.step hstep) h hrun

/-- Whoever could make a turn makes it. -/
theorem Leads.of_turn {t : Turn} (hturn : sys.turn? who = some t) :
    ∃ mid, sys.Leads mid ∧ Turned sys who t mid := by
  obtain ⟨a, hactor, hstep⟩ := act?_of_turn hturn
  obtain ⟨mid, hmid⟩ := Option.ne_none_iff_exists'.mp hstep
  have hof := turnOf?_of_actor hactor hturn
  have hleads : sys.Leads mid := .head (by rw [hactor]; rfl) hmid (.refl mid)
  refine ⟨mid, hleads, ?_⟩
  cases act?_kind hmid with
  | @turn who' t' hactor' hturn' hturned =>
      obtain rfl : who' = who := Option.some.inj (hactor'.symm.trans hactor)
      obtain rfl : t' = t := Option.some.inj (hturn'.symm.trans hturn)
      exact hturned
  | queues hidle hqueued => rw [hof] at hidle; contradiction
  | aside hidle haside => rw [hof] at hidle; contradiction
  | fades hidle hfaded => rw [hof] at hidle; contradiction

/-! ## The lock is given back -/

/-- A task is through with its section and has given the lock back, the others are where they
were, and a last stop has been made. -/
structure Released (sys : Supervision) (who : Holder) (sec : Section) (sys' : Supervision) :
    Prop where
  lock : sys'.lock = none
  queue : sys'.queue = if (sys.place who).queued then sys.queue.tail else sys.queue
  others : ∀ other, other ≠ who → sys'.place other = sys.place other
  last : sec = .farewell → sys'.supervisor.state = .permanentlyStopped

/-- What comes after a turn that keeps the lock is what comes of the turn. -/
theorem Turned.then_released {t : Turn} {sec : Section} {stage : Stage}
    (h : Turned sys who t mid) (hplace : mid.place who = some (sec, .holding stage))
    (hreleased : Released mid who sec sys') : Released sys who sec sys' where
  lock := hreleased.lock
  queue := by
    have hqueue : sys'.queue = mid.queue := by
      simpa [hplace, Place.queued] using hreleased.queue
    exact hqueue.trans h.queue
  others other hother := (hreleased.others other hother).trans (h.others other hother)
  last := hreleased.last

/-- Whoever has the lock gives it back. -/
theorem Sound.releases {sec : Section} {stage : Stage} (h : sys.Sound)
    (hplace : sys.place who = some (sec, .holding stage)) :
    ∃ sys', sys.Leads sys' ∧ Released sys who sec sys' := by
  generalize hcount : stage.remaining (Supervisor.unstopped sys.supervisor.servers) = count
  induction count using Nat.strongRecOn generalizing sys stage with
  | ind count ih =>
      have hturn : sys.turn? who = some (.advances sec stage) := by simp [turn?, hplace]
      obtain ⟨mid, hleads, hturned⟩ := Leads.of_turn hturn
      have hsupervisor : mid.supervisor = (sys.supervisor.advance stage).1 := hturned.supervisor
      have hlock : mid.lock = lockAfter who (sys.supervisor.advance stage).2 := hturned.lock
      have hwhere : mid.place who = .after sec (sys.supervisor.advance stage).2 := hturned.place
      cases hprogress : (sys.supervisor.advance stage).2 with
      | inr outcome =>
          refine ⟨mid, hleads, by rw [hlock, hprogress]; rfl, hturned.queue, hturned.others, ?_⟩
          rintro rfl
          have hstage := (h.orderly.staged (stage?_of_place hplace)).2
          rw [hsupervisor]
          exact Supervisor.stopped_of_advance hstage hprogress
      | inl next =>
          have hadv := Supervisor.advance_cases (rfl : sys.supervisor.advance stage = _)
          have hpair : sys.supervisor.advance stage = (mid.supervisor, .inl next) :=
            Prod.ext hsupervisor.symm hprogress
          rw [hpair] at hadv
          have hless := hadv.fewer
          rw [hprogress] at hwhere
          obtain ⟨sys', hleads', hreleased⟩ :=
            ih _ (hcount ▸ hless) (h.leads hleads) hwhere rfl
          exact ⟨sys', hleads.trans hleads', hturned.then_released hwhere hreleased⟩

/-- A section that can begin comes to its end. -/
theorem Sound.enters {sec : Section} (h : sys.Sound) (hturn : sys.turn? who = some (.enters sec)) :
    ∃ sys', sys.Leads sys' ∧ Released sys who sec sys' := by
  obtain ⟨mid, hleads, hturned⟩ := Leads.of_turn hturn
  have hsupervisor : mid.supervisor = (sys.supervisor.enter sec).1 := hturned.supervisor
  have hlock : mid.lock = lockAfter who (sys.supervisor.enter sec).2 := hturned.lock
  have hwhere : mid.place who = .after sec (sys.supervisor.enter sec).2 := hturned.place
  cases hprogress : (sys.supervisor.enter sec).2 with
  | inr outcome =>
      refine ⟨mid, hleads, by rw [hlock, hprogress]; rfl, hturned.queue, hturned.others, ?_⟩
      rintro rfl
      rw [hsupervisor]
      exact Supervisor.stopped_of_enter hprogress
  | inl stage =>
      rw [hprogress] at hwhere
      obtain ⟨sys', hleads', hreleased⟩ := (h.leads hleads).releases hwhere
      exact ⟨sys', hleads.trans hleads', hturned.then_released hwhere hreleased⟩

/-! ## The last stop gets its turn -/

/-- With the lock free, a stop comes to its turn once those before it had theirs. -/
theorem Sound.stops_of_free {j : Nat} {access : Access} (h : sys.Sound) (hfree : sys.lock = none)
    (hplace : sys.place (.call j) = some (.farewell, access)) :
    ∃ sys', sys.Leads sys' ∧ sys'.supervisor.state = .permanentlyStopped := by
  -- the induction is on those who wait
  generalize hcount : sys.queue.length = count
  induction count generalizing sys with
  | zero =>
      have hqueue : sys.queue = [] := List.eq_nil_of_length_eq_zero hcount
      cases access with
      | asking =>
          have hturn : sys.turn? (.call j) = some (.enters .farewell) := by
            simp [turn?, hplace, hfree, hqueue]
          obtain ⟨sys', hleads, hreleased⟩ := h.enters hturn
          exact ⟨sys', hleads, hreleased.last rfl⟩
      | queued =>
          have hmem := (h.lined.mem_iff (.call j)).mpr (by rw [hplace]; rfl)
          rw [hqueue] at hmem
          contradiction
      | holding stage =>
          have hheld := (h.orderly.held (.call j)).mp (by rw [stage?_of_place hplace]; rfl)
          rw [hfree] at hheld
          contradiction
  | succ count ih =>
      obtain ⟨first, rest, hqueue⟩ := List.exists_cons_of_length_eq_add_one hcount
      have hhead : sys.queue.head? = some first := by rw [hqueue]; rfl
      obtain ⟨sec, hturn⟩ := h.lined.turn_of_head hfree hhead
      have hqueued : (sys.place first).queued = true :=
        (h.lined.mem_iff first).mp (List.mem_of_mem_head? hhead)
      obtain ⟨mid, hleads, hreleased⟩ := h.enters hturn
      by_cases hfirst : Holder.call j = first
      · subst hfirst
        have hsec : sec = .farewell := by
          rcases turn?_cases hturn with ⟨sec', heq, -, hat⟩ | ⟨sec', stage, heq, -⟩
          · cases heq
            rcases hat with ⟨hat, -⟩ | ⟨hat, -⟩ <;> (rw [hplace] at hat; cases hat; rfl)
          · cases heq
        exact ⟨mid, hleads, hreleased.last hsec⟩
      · have hkept : mid.place (.call j) = some (.farewell, access) :=
          (hreleased.others _ hfirst).trans hplace
        have hshorter : mid.queue.length = count := by
          rw [hreleased.queue, if_pos hqueued, List.length_tail, hcount, Nat.add_sub_cancel]
        obtain ⟨sys', hleads', hperm⟩ := ih (h.leads hleads) hreleased.lock hkept hshorter
        exact ⟨sys', hleads.trans hleads', hperm⟩

/-- A stop that is called for comes to its turn. -/
theorem Sound.stops {j : Nat} {access : Access} (h : sys.Sound)
    (hcall : sys.calls[j]? = some (.stop access)) :
    ∃ sys', sys.Leads sys' ∧ sys'.supervisor.state = .permanentlyStopped := by
  have hplace : sys.place (.call j) = some (.farewell, access) := by
    simp [place, hcall, Call.section?]
  cases hlock : sys.lock with
  | none => exact h.stops_of_free hlock hplace
  | some who =>
      have hsome := (h.orderly.held who).mpr hlock
      obtain ⟨⟨sec, stage⟩, hstage⟩ := Option.isSome_iff_exists.mp hsome
      have hholds : sys.place who = some (sec, .holding stage) := place_of_stage? hstage
      obtain ⟨mid, hleads, hreleased⟩ := h.releases hholds
      by_cases hwho : Holder.call j = who
      · subst hwho
        rw [hplace] at hholds
        cases hholds
        exact ⟨mid, hleads, hreleased.last rfl⟩
      · have hkept : mid.place (.call j) = some (.farewell, access) :=
          (hreleased.others _ hwho).trans hplace
        obtain ⟨sys', hleads', hperm⟩ := (h.leads hleads).stops_of_free hreleased.lock hkept
        exact ⟨sys', hleads.trans hleads', hperm⟩

/-! ## All that is left comes to its end -/

/-- Nothing is left of loops and calls after the last stop. -/
structure Concluded (sys : Supervision) : Prop where
  state : sys.supervisor.state = .permanentlyStopped
  loops : ∀ loop ∈ sys.loops, loop.isOver = true
  calls : ∀ call ∈ sys.calls, call.isDone = true

/-- After the last stop all loops and calls come to their end. -/
theorem Sound.concludes (h : sys.Sound) (hperm : sys.supervisor.state = .permanentlyStopped) :
    ∃ sys', sys.Leads sys' ∧ sys'.Concluded := by
  generalize hcount : sys.pending = count
  induction count using Nat.strongRecOn generalizing sys with
  | ind count ih =>
      by_cases hquiet : ∀ a, a.actor?.isSome = true → sys.act? a = none
      · obtain ⟨hloops, hcalls⟩ := (h.stoppedForGood hperm).ends hquiet
        exact ⟨sys, .refl sys, hperm, hloops, hcalls⟩
      · obtain ⟨a, hmoves⟩ := Classical.not_forall.mp hquiet
        obtain ⟨hactor, hstep⟩ := Classical.not_imp.mp hmoves
        obtain ⟨mid, hmid⟩ := Option.ne_none_iff_exists'.mp hstep
        have hfewer := h.fewer_step hperm hmid
        have htakes : a.takes = 1 ∧ a.adds = 0 := by
          cases a <;> first | exact ⟨rfl, rfl⟩ | contradiction
        obtain ⟨sys', hleads, hconcluded⟩ :=
          ih mid.pending (by omega) (h.step hmid) (h.orderly.stays_stopped hmid hperm) rfl
        exact ⟨sys', .head hactor hmid hleads, hconcluded⟩

end Supervision

end PluginKit
