import PluginKit.Proofs.Lifecycle.AllOrNone
import PluginKit.Proofs.Lifecycle.Restart
import PluginKit.Proofs.Socket.Rebinding

/-!
# A loop that is left to itself

When nobody else acts, the loop of a supervision has one step to take at any time, until it waits.
If the sockets can be bound the first time, they can be bound each time, so all that can fail are
the calls of the plugin.
-/

namespace PluginKit

open Socket (Laid Ready)

def Event.start? : Event → Option CallOutcome
  | start outcome => some outcome
  | _ => none

def Event.stop? : Event → Option CallOutcome
  | stop outcome => some outcome
  | _ => none

def Loop.holds : Loop → Bool
  | attempting _ (.holding _) => true
  | _ => false

namespace Supervision

variable {made : List Call} {s s' : Supervisor} {loop loop' : Loop}

/-! ## The steps of the loop -/

/-- The next action of the first loop, whose sleeps all come to their end. -/
def nextAction (sys : Supervision) : Action :=
  match sys.loops.head? with
  | some (.sleeping _) => .wake 0
  | _ => .loop 0

/-- The supervision after the next step of the first loop, if there is one to take. -/
def proceed? (sys : Supervision) : Option Supervision := sys.act? sys.nextAction

def alone (made : List Call) (s : Supervisor) (loop : Loop) : Supervision :=
  { supervisor := s
    lock := if loop.holds then some (.loop 0) else none
    loops := [loop]
    launched := some 0
    calls := made }

theorem proceed?_asking (kind : CycleKind) :
    (alone made s (.attempting kind .asking)).proceed? =
      some (alone made (s.enter (.cycle kind)).1
        (Loop.after kind (outcomeOf (s.enter (.cycle kind)).2))) := by
  generalize hp : s.enter (.cycle kind) = p
  obtain ⟨s', stage | outcome⟩ := p <;>
    simp [proceed?, nextAction, alone, act?, loopStep?, access?, Loop.holds, hp, goOn, setLoop,
      Loop.after, outcomeOf]

theorem proceed?_holding (kind : CycleKind) (stage : Stage) :
    (alone made s (.attempting kind (.holding stage))).proceed? =
      some (alone made (s.advance stage).1
        (Loop.after kind (outcomeOf (s.advance stage).2))) := by
  generalize hp : s.advance stage = p
  obtain ⟨s', next | outcome⟩ := p <;>
    simp [proceed?, nextAction, alone, act?, loopStep?, access?, Loop.holds, hp, goOn, setLoop,
      Loop.after, outcomeOf]

theorem proceed?_sleeping (kind : CycleKind) :
    (alone made s (.sleeping kind)).proceed? =
      some (alone made s (.attempting kind .asking)) := rfl

theorem proceed?_served :
    (alone made s (.finished .start (.ok ()))).proceed? = some (alone made s .waiting) := rfl

theorem proceed?_cleared :
    (alone made s (.finished .stop (.ok ()))).proceed? =
      some (alone made s (.attempting .start .asking)) := rfl

theorem proceed?_failed {kind : CycleKind} {r : LifecycleReport}
    (hstopped : s.signals.stopped = false) (hcalm : s.observer.panics kind.failure = false) :
    (alone made s (.finished kind (.error r))).proceed? =
      some (alone made (s.tell kind.failure).1 (.sleeping kind)) := by
  have hbears : (s.tell kind.failure).2 = false := hcalm
  cases kind <;>
    simp_all [proceed?, nextAction, alone, act?, loopStep?, Loop.holds, setLoop, CycleKind.failure]

/-- The calls of the plugin that a step of the first loop makes, each with its section. -/
def called (sys sys' : Supervision) : List (Section × Event) :=
  match sys.turnOf? sys.nextAction with
  | none => []
  | some t =>
      let count := sys'.supervisor.calls.length - sys.supervisor.calls.length
      (sys'.supervisor.calls.take count).reverse.map fun e => (t.section_, e)

/-- What the loop does next, with the calls of the plugin that it makes for it. -/
inductive Advance (s : Supervisor) :
    Loop → List (Section × Event) → Supervisor → Loop → Prop
  | fails {r : LifecycleReport} (fails : s.nextStart ≠ .ok) :
      Advance s (.attempting .start .asking)
        [(.cycle .start, .stop s.nextStop), (.cycle .start, .start s.nextStart)]
        { s.reset with state := .idle } (.finished .start (.error r))
  | starts {files : FileSystem} {sockets : List Path} (starts : s.nextStart = .ok) :
      Advance s (.attempting .start .asking)
        [(.cycle .start, .stop s.nextStop), (.cycle .start, .start s.nextStart)]
        { s.reset with files := files, sockets := sockets }
        (.attempting .start (.holding (.binding sockets)))
  | binds {socket : Path} {left : List Path} {files : FileSystem} :
      Advance s (.attempting .start (.holding (.binding (socket :: left)))) []
        { s with files := files, nextServer := s.nextServer + 1 }
        (.attempting .start (.holding (.dialing { id := s.nextServer, socket := socket } left)))
  | dials {server : Server} {left : List Path} :
      Advance s (.attempting .start (.holding (.dialing server left))) []
        { s with servers := s.servers ++ [server] }
        (.attempting .start (.holding (.binding left)))
  | serves :
      Advance s (.attempting .start (.holding (.binding []))) [] { s with state := .serving }
        (.finished .start (.ok ()))
  | settles (absent : s.signals.waiter = .absent) :
      Advance s (.finished .start (.ok ())) [] s .waiting
  | parks {signals : Signals} (absent : s.signals.waiter = .absent)
      (parked : signals.waiter = .parked) :
      Advance s .waiting [] { s with signals := signals } .waiting
  | restarts {signals : Signals} (notified : s.signals.waiter = .notified) :
      Advance s .waiting [] { s with signals := signals } (.attempting .stop .asking)
  | enters :
      Advance s (.attempting .stop .asking) [] { s with state := .stopping }
        (.attempting .stop (.holding (.draining .cycle)))
  | drains (more : Supervisor.allStopped s.servers = false) :
      Advance s (.attempting .stop (.holding (.draining .cycle))) []
        { s with servers := Supervisor.stopFirst s.servers }
        (.attempting .stop (.holding (.draining .cycle)))
  | stays {files : FileSystem} {r : LifecycleReport} (fails : s.nextStop ≠ .ok) :
      Advance s (.attempting .stop (.holding (.draining .cycle)))
        [(.cycle .stop, .stop s.nextStop)]
        ({ s with servers := [], files := files } : Supervisor).callStop.1
        (.finished .stop (.error r))
  | clears {files : FileSystem} (works : s.nextStop = .ok) :
      Advance s (.attempting .stop (.holding (.draining .cycle)))
        [(.cycle .stop, .stop s.nextStop)]
        { ({ s with servers := [], files := files } : Supervisor).callStop.1 with state := .idle }
        (.finished .stop (.ok ()))
  | turns : Advance s (.finished .stop (.ok ())) [] s (.attempting .start .asking)
  | tells {kind : CycleKind} {r : LifecycleReport} :
      Advance s (.finished kind (.error r)) [] (s.tell kind.failure).1 (.sleeping kind)
  | wakes {kind : CycleKind} : Advance s (.sleeping kind) [] s (.attempting kind .asking)

theorem called_of_turn {sys sys' : Supervision} {t : Turn}
    (hturn : sys.turnOf? sys.nextAction = some t) (events : List Event)
    (h : sys'.supervisor.calls = events.reverse ++ sys.supervisor.calls) :
    sys.called sys' = events.map fun e => (t.section_, e) := by
  simp [called, hturn, h]

theorem turnOf?_asking (kind : CycleKind) :
    (alone made s (.attempting kind .asking)).turnOf?
      (alone made s (.attempting kind .asking)).nextAction = some (.enters (.cycle kind)) := rfl

theorem turnOf?_holding (kind : CycleKind) (stage : Stage) :
    (alone made s (.attempting kind (.holding stage))).turnOf?
      (alone made s (.attempting kind (.holding stage))).nextAction =
        some (.advances (.cycle kind) stage) := rfl

theorem Advance.called {new : List (Section × Event)} (h : Advance s loop new s' loop') :
    (alone made s loop).called (alone made s' loop') = new := by
  cases h with
  | fails fails =>
      exact called_of_turn (turnOf?_asking .start) [.stop s.nextStop, .start s.nextStart] rfl
  | starts starts =>
      exact called_of_turn (turnOf?_asking .start) [.stop s.nextStop, .start s.nextStart] rfl
  | enters => exact called_of_turn (turnOf?_asking .stop) [] rfl
  | stays fails => exact called_of_turn (turnOf?_holding .stop _) [.stop s.nextStop] rfl
  | clears works => exact called_of_turn (turnOf?_holding .stop _) [.stop s.nextStop] rfl
  | binds => exact called_of_turn (turnOf?_holding .start _) [] rfl
  | dials => exact called_of_turn (turnOf?_holding .start _) [] rfl
  | serves => exact called_of_turn (turnOf?_holding .start _) [] rfl
  | drains more => exact called_of_turn (turnOf?_holding .stop _) [] rfl
  | _ => rfl

theorem Advance.calls {new : List (Section × Event)} (h : Advance s loop new s' loop') :
    s'.calls = (new.map Prod.snd).reverse ++ s.calls := by
  cases h with
  | @tells kind r =>
      rw [Supervisor.tell_fst]
      cases s.observer.listens <;> rfl
  | _ => rfl

/-! ## Where the loop is -/

end Supervision

namespace Supervisor

variable {s t : Supervisor} {base : FileSystem} {spots : List (Path × Location)}
  {further : List Server} {left : List Path}

/-- The paths of the sockets can be prepared, and a server bound to each socket and dialed. -/
structure Fits (s : Supervisor) : Prop where
  some : s.sockets ≠ []
  prepares : s.prepared.outcome = .ok ()
  binds : Socket.Bindable s.prepared.files s.nextServer s.prepared.sockets

/-- Preparing the sockets would leave them at their spots. -/
structure Poised (base : FileSystem) (spots : List (Path × Location)) (s : Supervisor) : Prop where
  state : s.state ≠ .permanentlyStopped
  some : s.sockets ≠ []
  servers : s.servers = []
  prepared : s.prepared = ⟨base, spots.map Prod.fst, .ok ()⟩

/-- The servers, the `further` ones included, are bound at the first spots. -/
structure Placed (base : FileSystem) (spots : List (Path × Location)) (s : Supervisor)
    (further : List Server) (left : List Path) : Prop where
  state : s.state ≠ .permanentlyStopped
  sockets : s.sockets = spots.map Prod.fst
  listed : s.sockets = ((s.servers ++ further).map Server.binding).map Prod.fst ++ left
  laid : Laid base ((s.servers ++ further).map Server.binding) s.files

structure Leaving (base : FileSystem) (spots : List (Path × Location)) (s : Supervisor) :
    Prop where
  state : s.state ≠ .permanentlyStopped
  sockets : s.sockets = spots.map Prod.fst
  laid : ∃ bound left, s.sockets = bound.map Prod.fst ++ left ∧ Laid base bound s.files

/-- What holds at each place where a loop by itself can be. -/
def Stands (base : FileSystem) (spots : List (Path × Location)) (s : Supervisor) : Loop → Prop
  | .attempting .start .asking => s.Poised base spots
  | .attempting .start (.holding (.binding left)) => s.Placed base spots [] left
  | .attempting .start (.holding (.dialing server left)) =>
      s.Placed base spots [server] left ∧ s.dial [server] server.socket = .ok ()
  | .attempting .stop .asking => s.Leaving base spots
  | .attempting .stop (.holding (.draining .cycle)) => s.Leaving base spots
  | .finished .start (.ok ()) => s.state = .serving ∧ s.Leaving base spots
  | .finished .start (.error _) => s.Poised base spots
  | .finished .stop (.ok ()) => s.Poised base spots
  | .finished .stop (.error _) => s.Leaving base spots
  | .sleeping .start => s.Poised base spots
  | .sleeping .stop => s.Leaving base spots
  | .waiting => s.state = .serving ∧ s.Leaving base spots
  | _ => False

/-- A supervisor whose loop is by itself, and that can bind its sockets. -/
structure Phase (base : FileSystem) (spots : List (Path × Location)) (s : Supervisor)
    (loop : Loop) : Prop where
  stands : s.Stands base spots loop
  stopped : s.signals.stopped = false
  stored : s.signals.stored = false
  waiter : loop.waits = false → s.signals.waiter = .absent
  calm : ∀ kind : CycleKind, s.observer.panics kind.failure = false
  transport : s.transport = .works

theorem Placed.leaving (h : s.Placed base spots further left) : s.Leaving base spots :=
  ⟨h.state, h.sockets, _, left, h.listed, h.laid⟩

/-- What a step to another place keeps that does not touch the requests. -/
theorem Phase.moved {loop loop' : Loop} (h : Phase base spots s loop)
    (habsent : s.signals.waiter = .absent) (hstands : t.Stands base spots loop')
    (hsignals : t.signals = s.signals) (hobserver : t.observer = s.observer)
    (htransport : t.transport = s.transport) : Phase base spots t loop' := by
  refine ⟨hstands, ?_, ?_, fun _ => ?_, ?_, htransport.trans h.transport⟩
  · rw [hsignals]
    exact h.stopped
  · rw [hsignals]
    exact h.stored
  · rw [hsignals]
    exact habsent
  · rw [hobserver]
    exact h.calm

theorem Phase.signals {loop : Loop} (h : Phase base spots s loop) :
    s.signals = ⟨false, false, s.signals.waiter⟩ := by
  have hsame : s.signals = ⟨s.signals.stopped, s.signals.stored, s.signals.waiter⟩ := rfl
  rwa [h.stopped, h.stored] at hsame

theorem stopPlugin_cases (s : Supervisor) :
    s.nextStop ≠ .ok ∧ (∃ r, s.stopPlugin = (s.callStop.1, .error r)) ∨
      s.nextStop = .ok ∧ s.stopPlugin = (s.callStop.1, .ok ()) := by
  have hanswer : s.callStop.2 = s.nextStop := rfl
  rw [← hanswer]
  unfold stopPlugin
  rcases s.callStop with ⟨s', _ | message | payload⟩
  · exact .inr ⟨rfl, rfl⟩
  · exact .inl ⟨by simp, _, rfl⟩
  · exact .inl ⟨by simp, _, rfl⟩

/-- A start cycle either fails with the plugin's own start, or goes on to bind all sockets. -/
theorem Poised.enter (h : s.Poised base spots) :
    s.nextStart ≠ .ok ∧
        (∃ r, s.enter (.cycle .start) =
          ({ s.reset with state := .idle }, .inr (.error r))) ∨
      s.nextStart = .ok ∧ s.enter (.cycle .start) =
        ({ s.reset with files := base, sockets := spots.map Prod.fst },
          .inl (.binding (spots.map Prod.fst))) := by
  have henter : s.enter (.cycle .start) = s.enterStart := rfl
  rw [henter]
  generalize hp : s.enterStart = p
  have hopens := enterStart_cases hp
  have hprepared := h.prepared
  cases hopens with
  | refused hperm => exact absurd hperm h.state
  | bare hperm hnone => exact absurd hnone h.some
  | failed hperm hsome hfails => exact .inl ⟨hfails, _, rfl⟩
  | unprepared hperm hsome hstarts hfails => simp [hprepared] at hfails
  | prepared hperm hsome hstarts hworks =>
      rw [hprepared]
      exact .inr ⟨hstarts, rfl⟩

theorem Placed.bind {socket : Path} (h : s.Placed base spots [] (socket :: left))
    (hready : Ready base spots) (hworks : s.transport = .works) :
    ∃ files, s.files.bindSocket socket (some s.nextServer) = .ok files ∧
      Placed base spots { s with files := files, nextServer := s.nextServer + 1 }
        [{ id := s.nextServer, socket := socket }] left ∧
      ({ s with files := files, nextServer := s.nextServer + 1 } : Supervisor).dial
        [{ id := s.nextServer, socket := socket }] socket = .ok () := by
  have hlisted := h.listed
  rw [h.sockets] at hlisted
  obtain ⟨files, hbind, hconnect, hlaid⟩ :=
    h.laid.bind_next hready.free hready.opens hlisted s.nextServer
  refine ⟨files, hbind, ⟨h.state, h.sockets, ?_, ?_⟩, ?_⟩
  · simpa [Server.binding] using h.listed
  · simpa [Server.binding] using hlaid
  · simp [dial, reach, Transport.dial, hworks, hconnect, listens]

theorem Poised.of_same (h : s.Poised base spots) (hstate : t.state ≠ .permanentlyStopped)
    (hsockets : t.sockets = s.sockets) (hservers : t.servers = s.servers)
    (hprepared : t.prepared = s.prepared) : t.Poised base spots :=
  ⟨hstate, by rw [hsockets]; exact h.some, hservers.trans h.servers, hprepared.trans h.prepared⟩

theorem Poised.begun (h : s.Poised base spots) :
    Placed base spots { s.reset with files := base, sockets := spots.map Prod.fst } []
      (spots.map Prod.fst) := by
  refine ⟨by simp, rfl, ?_, ?_⟩
  · simp [h.servers]
  · simpa [h.servers] using Laid.nil base

theorem Placed.dialed {server : Server} (h : s.Placed base spots [server] left) :
    Placed base spots { s with servers := s.servers ++ [server] } [] left :=
  ⟨h.state, h.sockets, by simpa using h.listed, by simpa using h.laid⟩

/-- The socket files can be removed, and the files are then as preparing has left them. -/
theorem Leaving.removeAll (h : s.Leaving base spots) (hready : Ready base spots) :
    Socket.removeAll s.name s.files s.sockets = (base, .ok ()) := by
  obtain ⟨bound, left, hlisted, hlaid⟩ := h.laid
  rw [hlisted]
  refine hlaid.removeAll s.name fun q hq => ?_
  have hmem : q ∈ spots.map Prod.fst := by
    rw [← h.sockets, hlisted]
    exact List.mem_append_right _ hq
  exact hready.absent hmem

theorem Leaving.of_same (h : s.Leaving base spots) (hstate : t.state ≠ .permanentlyStopped)
    (hfiles : t.files = s.files) (hsockets : t.sockets = s.sockets) : t.Leaving base spots := by
  obtain ⟨bound, left, hlisted, hlaid⟩ := h.laid
  exact ⟨hstate, hsockets.trans h.sockets, bound, left, hsockets.trans hlisted, hfiles ▸ hlaid⟩

/-- The end of a stop cycle is what the plugin's own stop makes of it. -/
theorem Leaving.drained (h : s.Leaving base spots) (hready : Ready base spots)
    (hall : allStopped s.servers = true) :
    s.nextStop ≠ .ok ∧ (∃ r, s.advance (.draining .cycle) =
        (({ s with servers := [], files := base } : Supervisor).callStop.1, .inr (.error r))) ∨
      s.nextStop = .ok ∧ s.advance (.draining .cycle) =
        ({ ({ s with servers := [], files := base } : Supervisor).callStop.1 with state := .idle },
          .inr (.ok ())) := by
  have hremoved := h.removeAll hready
  have hname : ({ s with servers := [] } : Supervisor).name = s.name := rfl
  have hstop := ({ s with servers := [], files := base } : Supervisor).stopPlugin_cases
  rcases hstop with ⟨hfails, r, hstop⟩ | ⟨hworks, hstop⟩
  · exact .inl ⟨hfails, r, by simp [advance, hall, tearDown, hname, hremoved, hstop, conclude]⟩
  · exact .inr ⟨hworks, by simp [advance, hall, tearDown, hname, hremoved, hstop, conclude]⟩

theorem Leaving.stays (h : s.Leaving base spots) :
    Leaving base spots ({ s with servers := [], files := base } : Supervisor).callStop.1 :=
  ⟨h.state, h.sockets, [], s.sockets, rfl, .nil base⟩

/-- A stop cycle that has succeeded leaves all ready for the next start cycle. -/
theorem Leaving.cleared (h : s.Leaving base spots) (hready : Ready base spots) :
    Poised base spots
      { ({ s with servers := [], files := base } : Supervisor).callStop.1 with state := .idle } := by
  refine ⟨by simp, ?_, rfl, ?_⟩
  · have hsome := hready.some
    intro hnone
    have hsockets : s.sockets = [] := hnone
    rw [h.sockets] at hsockets
    exact hsome (List.map_eq_nil_iff.mp hsockets)
  · have hagain := hready.again s.name
    rw [← h.sockets] at hagain ⊢
    exact hagain

end Supervisor

namespace Supervision

open Supervisor (Phase)

variable {made : List Call} {s : Supervisor} {loop : Loop} {base : FileSystem}
  {spots : List (Path × Location)}

/-- A step of a loop by itself, after which it can still bind its sockets. -/
def GoesOn (base : FileSystem) (spots : List (Path × Location)) (s : Supervisor) (loop : Loop) :
    Prop :=
  ∀ made, ∃ new s' loop', (alone made s loop).proceed? = some (alone made s' loop') ∧
    Advance s loop new s' loop' ∧ Phase base spots s' loop'

variable {kind : CycleKind} {p : Supervisor × Progress} {new : List (Section × Event)}

theorem goesOn_of_enter (henter : s.enter (.cycle kind) = p)
    (hadvance : Advance s (.attempting kind .asking) new p.1 (Loop.after kind (outcomeOf p.2)))
    (hphase : Phase base spots p.1 (Loop.after kind (outcomeOf p.2))) :
    GoesOn base spots s (.attempting kind .asking) := by
  subst henter
  exact fun made => ⟨new, _, _, proceed?_asking kind, hadvance, hphase⟩

theorem goesOn_of_advance {stage : Stage} (hstage : s.advance stage = p)
    (hadvance : Advance s (.attempting kind (.holding stage)) new p.1
      (Loop.after kind (outcomeOf p.2)))
    (hphase : Phase base spots p.1 (Loop.after kind (outcomeOf p.2))) :
    GoesOn base spots s (.attempting kind (.holding stage)) := by
  subst hstage
  exact fun made => ⟨new, _, _, proceed?_holding kind stage, hadvance, hphase⟩

theorem goesOn_of_start {access : Access} (h : Phase base spots s (.attempting .start access))
    (hready : Ready base spots) : GoesOn base spots s (.attempting .start access) := by
  have hstands := h.stands
  have habsent := h.waiter rfl
  cases access with
  | asking =>
      have hpoised : s.Poised base spots := hstands
      have hidle : Supervisor.Poised base spots { s.reset with state := .idle } :=
        hpoised.of_same (by simp) rfl rfl rfl
      rcases hpoised.enter with ⟨hfails, r, henter⟩ | ⟨hstarts, henter⟩
      · exact goesOn_of_enter henter (.fails hfails) (h.moved habsent hidle rfl rfl rfl)
      · exact goesOn_of_enter henter (.starts hstarts) (h.moved habsent hpoised.begun rfl rfl rfl)
  | queued => contradiction
  | holding stage =>
      cases stage with
      | binding left =>
          cases left with
          | nil =>
              have hserves : Supervisor.Leaving base spots { s with state := .serving } :=
                (Supervisor.Placed.leaving hstands).of_same (by simp) rfl rfl
              exact goesOn_of_advance rfl .serves (h.moved habsent ⟨rfl, hserves⟩ rfl rfl rfl)
          | cons socket left =>
              obtain ⟨files, hbind, hplaced, hdial⟩ :=
                Supervisor.Placed.bind hstands hready h.transport
              have hstage : s.advance (.binding (socket :: left)) =
                  ({ s with files := files, nextServer := s.nextServer + 1 },
                    .inl (.dialing { id := s.nextServer, socket := socket } left)) := by
                simp only [Supervisor.advance, hbind]
              exact goesOn_of_advance hstage .binds
                (h.moved habsent ⟨hplaced, hdial⟩ rfl rfl rfl)
      | dialing server left =>
          obtain ⟨hplaced, hdial⟩ := hstands
          have hstage : s.advance (.dialing server left) =
              ({ s with servers := s.servers ++ [server] }, .inl (.binding left)) := by
            simp only [Supervisor.advance, hdial]
          exact goesOn_of_advance hstage .dials (h.moved habsent hplaced.dialed rfl rfl rfl)
      | giveUp server cause => contradiction
      | draining purpose => contradiction

theorem goesOn_of_stop {access : Access} (h : Phase base spots s (.attempting .stop access))
    (hready : Ready base spots) : GoesOn base spots s (.attempting .stop access) := by
  have hstands := h.stands
  have habsent := h.waiter rfl
  cases access with
  | asking =>
      have hleaving : s.Leaving base spots := hstands
      have hstopping : Supervisor.Leaving base spots { s with state := .stopping } :=
        hleaving.of_same (by simp) rfl rfl
      exact goesOn_of_enter (Supervisor.enterStop_of_not_stopped hleaving.state) .enters
        (h.moved habsent hstopping rfl rfl rfl)
  | queued => contradiction
  | holding stage =>
      cases stage with
      | draining purpose =>
          cases purpose with
          | cycle =>
              have hleaving : s.Leaving base spots := hstands
              cases hall : Supervisor.allStopped s.servers with
              | false =>
                  have hstage : s.advance (.draining .cycle) =
                      ({ s with servers := Supervisor.stopFirst s.servers },
                        .inl (.draining .cycle)) := by
                    simp [Supervisor.advance, hall]
                  have hdrains : Supervisor.Leaving base spots
                      { s with servers := Supervisor.stopFirst s.servers } :=
                    hleaving.of_same hleaving.state rfl rfl
                  exact goesOn_of_advance hstage (.drains hall)
                    (h.moved habsent hdrains rfl rfl rfl)
              | true =>
                  rcases hleaving.drained hready hall with ⟨hfails, r, hstage⟩ | ⟨hworks, hstage⟩
                  · exact goesOn_of_advance hstage (.stays hfails)
                      (h.moved habsent hleaving.stays rfl rfl rfl)
                  · exact goesOn_of_advance hstage (.clears hworks)
                      (h.moved habsent (hleaving.cleared hready) rfl rfl rfl)
          | rollback cause => contradiction
          | farewell => contradiction
      | binding left => contradiction
      | dialing server left => contradiction
      | giveUp server cause => contradiction

/-- A loop that waits goes on waiting, or to a stop cycle once a restart was handed to it. -/
theorem waits_or_goesOn (h : Phase base spots s .waiting) :
    s.signals.waiter = .parked ∨ GoesOn base spots s .waiting := by
  obtain ⟨hserving, hleaving⟩ := h.stands
  have hsame : ∀ signals : Signals, Supervisor.Leaving base spots { s with signals := signals } :=
    fun signals => hleaving.of_same hleaving.state rfl rfl
  have hsignals := h.signals
  cases hwaiter : s.signals.waiter with
  | parked => exact .inl rfl
  | absent =>
      rw [hwaiter] at hsignals
      have hstep : ∀ made, (alone made s .waiting).proceed? =
          some (alone made { s with signals := ⟨false, false, .parked⟩ } .waiting) := by
        intro made
        simp [proceed?, nextAction, alone, act?, loopStep?, Signals.poll, hsignals, Loop.holds]
      exact .inr fun made => ⟨[], _, _, hstep made, .parks hwaiter rfl,
        ⟨⟨hserving, hsame _⟩, rfl, rfl, by rintro ⟨⟩, h.calm, h.transport⟩⟩
  | notified =>
      rw [hwaiter] at hsignals
      have hstep : ∀ made, (alone made s .waiting).proceed? =
          some (alone made { s with signals := ⟨false, false, .absent⟩ }
            (.attempting .stop .asking)) := by
        intro made
        simp [proceed?, nextAction, alone, act?, loopStep?, Signals.poll, hsignals, Loop.holds,
          setLoop]
      exact .inr fun made => ⟨[], _, _, hstep made, .restarts hwaiter,
        ⟨hsame _, rfl, rfl, fun _ => rfl, h.calm, h.transport⟩⟩

theorem proceed?_parked (h : Phase base spots s .waiting) (hparked : s.signals.waiter = .parked) :
    (alone made s .waiting).proceed? = none := by
  have hsignals := h.signals
  rw [hparked] at hsignals
  simp [proceed?, nextAction, alone, act?, loopStep?, Signals.poll, hsignals]

/-- A loop by itself takes its next step and keeps being able to bind its sockets, until it waits
with nothing pending. -/
theorem next_of_phase (h : Phase base spots s loop) (hready : Ready base spots) :
    (loop = .waiting ∧ s.signals.waiter = .parked) ∨ GoesOn base spots s loop := by
  have hstands := h.stands
  cases loop with
  | attempting kind access =>
      cases kind with
      | start => exact .inr (goesOn_of_start h hready)
      | stop => exact .inr (goesOn_of_stop h hready)
  | finished kind outcome =>
      right
      intro made
      have habsent := h.waiter rfl
      rcases outcome with r | u
      · refine ⟨_, _, _, proceed?_failed h.stopped (h.calm kind), .tells, ?_⟩
        rw [Supervisor.tell_fst]
        cases kind with
        | start =>
            have hpoised : s.Poised base spots := hstands
            exact h.moved habsent (hpoised.of_same hpoised.state rfl rfl rfl) rfl rfl rfl
        | stop =>
            have hleaving : s.Leaving base spots := hstands
            exact h.moved habsent (hleaving.of_same hleaving.state rfl rfl) rfl rfl rfl
      · cases kind with
        | start => exact ⟨_, _, _, proceed?_served, .settles habsent,
            h.moved habsent hstands rfl rfl rfl⟩
        | stop => exact ⟨_, _, _, proceed?_cleared, .turns, h.moved habsent hstands rfl rfl rfl⟩
  | sleeping kind =>
      right
      intro made
      refine ⟨_, _, _, proceed?_sleeping kind, .wakes, ?_⟩
      cases kind with
      | start => exact h.moved (h.waiter rfl) hstands rfl rfl rfl
      | stop => exact h.moved (h.waiter rfl) hstands rfl rfl rfl
  | waiting =>
      rcases waits_or_goesOn h with hparked | hgoes
      · exact .inl ⟨rfl, hparked⟩
      · exact .inr hgoes
  | ended => contradiction
  | panicked => contradiction

end Supervision

end PluginKit
