import PluginKit.Proofs.Socket.Binding
import PluginKit.Proofs.Socket.Placing

/-!
# Binding sockets again

Sockets that were prepared and could all be bound are ready for good: once they are removed, preparing
them again changes nothing, and they can be bound again, whoever listens on them.
-/

namespace PluginKit

namespace FileSystem

variable {fs fs' : FileSystem} {p : Path} {loc : Location}

/-- A location at which a socket can be bound with a path. -/
structure Spot (fs : FileSystem) (p : Path) (loc : Location) : Prop where
  address : socketPathError? p = none
  named : p.chars ≠ []
  vacant : ∃ dir name, loc = name :: dir ∧ fs.arrive false p = .ok ⟨.vacant dir name, false⟩ ∧
    fs.mayChange dir = true

theorem Spot.free (h : Spot fs p loc) : fs.get? loc = none := by
  obtain ⟨dir, name, rfl, hvacant, -⟩ := h.vacant
  exact (arrive_holds hvacant).1

theorem Spot.bind (h : Spot fs p loc) (listener : Nat) :
    fs.bindSocket p (some listener) = .ok (fs.put loc (fs.socketEntry listener)) := by
  obtain ⟨dir, name, rfl, hvacant, hmay⟩ := h.vacant
  simp [bindSocket, h.address, h.named, createAt, hvacant, create, hmay, socketEntry]

theorem spot_of_bind {listener : Nat} (h : fs.bindSocket p (some listener) = .ok fs')
    (named : p.chars ≠ []) :
    ∃ loc, Spot fs p loc ∧ fs' = fs.put loc (fs.socketEntry listener) := by
  have haddress : socketPathError? p = none := by
    unfold bindSocket at h
    split at h
    · contradiction
    · assumption
  obtain ⟨dir, name, hvacant, hmay, rfl⟩ := bindSocket_ok h named
  exact ⟨name :: dir, ⟨haddress, named, dir, name, rfl, hvacant, hmay⟩, rfl⟩

/-- A socket that is bound elsewhere leaves a spot as it is. -/
theorem Spot.put {other : Location} {e : Entry} (h : Spot fs p loc) (hfree : fs.get? other = none)
    (hne : loc ≠ other) : Spot (fs.put other e) p loc := by
  obtain ⟨dir, name, rfl, hvacant, hmay⟩ := h.vacant
  have hgrows := grows_put e hfree
  obtain ⟨hthere, parent, hparent, -⟩ := arrive_holds hvacant
  refine ⟨h.address, h.named, dir, name, rfl, ?_, ?_⟩
  · refine hgrows.arrive_unfilled hvacant ?_
    rw [get?_put_of_ne fs e hne]
    exact hthere
  · rw [mayChange, hgrows.entries hparent]
    rwa [mayChange, hparent] at hmay

/-- A spot beside a socket was one before that socket was bound. -/
theorem Spot.of_put {other : Location} {e : Entry} (h : Spot (fs.put other e) p loc)
    (hfree : fs.get? other = none) (hleaf : e.isLeaf = true) : Spot fs p loc ∧ loc ≠ other := by
  have hne : loc ≠ other := by
    rintro rfl
    have hthere := h.free
    rw [get?_put_self] at hthere
    contradiction
  obtain ⟨dir, name, rfl, hvacant, hmay⟩ := h.vacant
  have hbefore := (grows_put e hfree).arrive_vacant (onlyLeaves_put hleaf) hvacant
  refine ⟨⟨h.address, h.named, dir, name, rfl, hbefore, ?_⟩, hne⟩
  obtain ⟨-, parent, hparent, hdirectory⟩ := arrive_holds hbefore
  have hdir : dir ≠ other := by
    rintro rfl
    rw [hfree] at hparent
    contradiction
  rwa [mayChange, get?_put_of_ne fs e hdir] at hmay

def opensSockets (fs : FileSystem) : Bool := (fs.granted 0o777).testBit 7

theorem named_of_connect {listener : Nat} (h : fs.connect p = .ok listener) : p.chars ≠ [] := by
  intro hempty
  unfold connect at h
  split at h
  · contradiction
  · simp [hempty] at h

theorem Spot.arrive_put (h : Spot fs p loc) {e : Entry} (hleaf : e.isLeaf = true) :
    (fs.put loc e).arrive false p = .ok ⟨.entry loc e, false⟩ := by
  obtain ⟨dir, name, rfl, hvacant, -⟩ := h.vacant
  exact (grows_put e h.free).arrive_filled hvacant (get?_put_self ..) (Entry.isLeaf_iff.mp hleaf).2

/-- A socket that was just bound can be connected to as far as new sockets can be. -/
theorem Spot.connect (h : Spot fs p loc) (listener : Nat) :
    (fs.put loc (fs.socketEntry listener)).connect p =
      if fs.opensSockets then .ok listener else .error .permissionDenied := by
  have hlookup := lookupLink_of_leaf (h.arrive_put (isLeaf_socketEntry fs listener))
    (isLeaf_socketEntry ..) true
  have hwritable : (fs.socketEntry listener).writable = fs.opensSockets := rfl
  simp only [FileSystem.connect, h.address, h.named, if_false, lookup, hlookup, hwritable]
  cases fs.opensSockets <;> rfl

end FileSystem

namespace Socket

open FileSystem

/-- Each of the sockets can be bound after those before it, and then be dialed. -/
def Bindable (fs : FileSystem) (id : Nat) : List Path → Prop
  | [] => True
  | socket :: rest => ∃ fs', fs.bindSocket socket (some id) = .ok fs' ∧
      fs'.connect socket = .ok id ∧ Bindable fs' (id + 1) rest

theorem bindable_singleton {fs : FileSystem} {id : Nat} {socket : Path}
    (h : ((fs.bindSocket socket (some id)).bind fun fs' => fs'.connect socket).toOption =
      some id) : Bindable fs id [socket] := by
  cases hbind : fs.bindSocket socket (some id) with
  | error e =>
      rw [hbind] at h
      contradiction
  | ok fs' =>
      rw [hbind] at h
      have hdialed : (fs'.connect socket).toOption = some id := h
      cases hconnect : fs'.connect socket with
      | error e =>
          rw [hconnect] at hdialed
          contradiction
      | ok found =>
          rw [hconnect] at hdialed
          cases hdialed
          exact ⟨fs', hbind, hconnect, trivial⟩

/-- Spots for several sockets, no two the same. -/
structure Free (fs : FileSystem) (spots : List (Path × Location)) : Prop where
  spot : ∀ item ∈ spots, Spot fs item.1 item.2
  distinct : (spots.map Prod.snd).Nodup

variable {base fs mid : FileSystem} {bound : List (Path × Nat)} {spots : List (Path × Location)}
  {plugin : String} {sockets : List Path} {placed : List (Path × Location)}

/-! ## Spots -/

/-- Spots beside a socket were spots before that socket was bound. -/
theorem Free.of_put {loc : Location} {e : Entry} (h : Free (fs.put loc e) spots)
    (hfree : fs.get? loc = none) (hleaf : e.isLeaf = true) :
    Free fs spots ∧ loc ∉ spots.map Prod.snd := by
  refine ⟨⟨fun item hitem => ((h.spot item hitem).of_put hfree hleaf).1, h.distinct⟩, ?_⟩
  intro hmem
  obtain ⟨item, hitem, rfl⟩ := List.mem_map.mp hmem
  exact ((h.spot item hitem).of_put hfree hleaf).2 rfl

theorem Free.bind {p : Path} {loc : Location} (h : Free fs ((p, loc) :: spots)) (e : Entry) :
    Free (fs.put loc e) spots := by
  have hfirst := h.spot (p, loc) List.mem_cons_self
  have hdistinct := h.distinct
  rw [List.map_cons, List.nodup_cons] at hdistinct
  refine ⟨fun item hitem => ?_, hdistinct.2⟩
  have hne : item.2 ≠ loc := by
    rintro heq
    exact hdistinct.1 (List.mem_map.mpr ⟨item, hitem, heq⟩)
  exact (h.spot item (List.mem_cons_of_mem _ hitem)).put hfirst.free hne

theorem free_of_bindable {id : Nat} (h : Bindable fs id sockets) :
    ∃ spots, spots.map Prod.fst = sockets ∧ Free fs spots := by
  induction sockets generalizing fs id with
  | nil => exact ⟨[], rfl, ⟨nofun, List.nodup_nil⟩⟩
  | cons socket rest ih =>
      obtain ⟨fs', hbind, hconnect, hrest⟩ := h
      obtain ⟨loc, hspot, rfl⟩ := spot_of_bind hbind (named_of_connect hconnect)
      obtain ⟨spots, hsockets, hfree⟩ := ih hrest
      obtain ⟨hfree, hnew⟩ := hfree.of_put hspot.free (isLeaf_socketEntry ..)
      refine ⟨(socket, loc) :: spots, by rw [List.map_cons, hsockets], ?_, ?_⟩
      · intro item hitem
        rcases List.mem_cons.mp hitem with rfl | hmem
        · exact hspot
        · exact hfree.spot item hmem
      · exact List.nodup_cons.mpr ⟨hnew, hfree.distinct⟩

theorem opensSockets_of_bindable {id : Nat} (h : Bindable fs id sockets) (hsome : sockets ≠ []) :
    fs.opensSockets = true := by
  cases sockets with
  | nil => contradiction
  | cons socket rest =>
      obtain ⟨fs', hbind, hconnect, -⟩ := h
      obtain ⟨loc, hspot, rfl⟩ := spot_of_bind hbind (named_of_connect hconnect)
      rw [hspot.connect] at hconnect
      by_cases hopens : fs.opensSockets = true
      · exact hopens
      · simp [hopens] at hconnect

/-- The next of the sockets can be bound and dialed, whoever listens on those before it. -/
theorem Laid.bind_next {p : Path} {left : List Path} (h : Laid base bound fs)
    (hfree : Free base spots) (hopens : base.opensSockets = true)
    (hsockets : spots.map Prod.fst = bound.map Prod.fst ++ p :: left) (id : Nat) :
    ∃ fs', fs.bindSocket p (some id) = .ok fs' ∧ fs'.connect p = .ok id ∧
      Laid base (bound ++ [(p, id)]) fs' := by
  have hspot : fs.opensSockets = true ∧ ∃ loc, Spot fs p loc := by
    induction h generalizing spots with
    | nil fs =>
        obtain ⟨⟨q, loc⟩, rest, rfl, rfl, -⟩ := List.map_eq_cons_iff.mp hsockets
        exact ⟨hopens, loc, hfree.spot _ List.mem_cons_self⟩
    | @cons base fs q listener dir name bound hvacant hmay hlater ih =>
        obtain ⟨⟨q, loc⟩, rest, rfl, rfl, hrest⟩ := List.map_eq_cons_iff.mp hsockets
        obtain ⟨dir', name', rfl, hvacant', -⟩ :=
          (hfree.spot (q, loc) List.mem_cons_self).vacant
        rw [hvacant] at hvacant'
        cases hvacant'
        exact ih (hfree.bind _) hopens hrest
  obtain ⟨hopens, loc, hspot⟩ := hspot
  refine ⟨_, hspot.bind id, ?_, h.concat (hspot.bind id) hspot.named⟩
  rw [hspot.connect, if_pos hopens]

/-! ## Preparing again -/

/-- Sockets that can be bound over and over: preparing them again leaves all as it is. -/
structure Ready (base : FileSystem) (spots : List (Path × Location)) : Prop where
  free : Free base spots
  opens : base.opensSockets = true
  some : spots ≠ []
  again : ∀ plugin, prepare plugin base (spots.map Prod.fst) =
    ⟨base, spots.map Prod.fst, .ok ()⟩

theorem Ready.absent (h : Ready base spots) {p : Path} (hp : p ∈ spots.map Prod.fst) :
    Absent base p := by
  obtain ⟨spot, hspot, rfl⟩ := List.mem_map.mp hp
  obtain ⟨dir, name, -, hvacant, -⟩ := (h.free.spot spot hspot).vacant
  exact absent_iff.mpr (.inr ⟨dir, name, false, hvacant⟩)

theorem ready_of_prepare {id : Nat} (hsome : sockets ≠ [])
    (h : (prepare plugin fs sockets).outcome = .ok ())
    (hbindable : Bindable (prepare plugin fs sockets).files id
      (prepare plugin fs sockets).sockets) :
    ∃ spots, spots.map Prod.fst = (prepare plugin fs sockets).sockets ∧
      Ready (prepare plugin fs sockets).files spots := by
  have hkept : (prepare plugin fs sockets).sockets ≠ [] := prepare_ne_nil hsome
  obtain ⟨spots, hspots, hfree⟩ := free_of_bindable hbindable
  refine ⟨spots, hspots, hfree, opensSockets_of_bindable hbindable hkept, ?_, fun plugin' => ?_⟩
  · rintro rfl
    exact hkept hspots.symm
  · rw [hspots, prepare_again h]
    intro p hp
    rw [← hspots] at hp
    obtain ⟨spot, hspot, rfl⟩ := List.mem_map.mp hp
    obtain ⟨dir, name, -, hvacant, -⟩ := (hfree.spot spot hspot).vacant
    obtain ⟨e, hlookup, hdirectory⟩ := lookup_directory hvacant
    simp [isDirectory, hlookup, hdirectory]

end Socket

end PluginKit
