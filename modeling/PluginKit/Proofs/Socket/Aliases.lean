import PluginKit.Proofs.Socket.Placing

/-!
# Directories that are the same place

Several registration directories can be one, by links, by nesting or by being written differently.
Of the sockets in them the first is kept, wherever the others stand in the list.
-/

namespace PluginKit

namespace Socket

open FileSystem

variable {fs made : FileSystem} {sockets : List Path} {placed : List (Path × Location)}

def locationOf (fs : FileSystem) (socket : Path) : Option Location :=
  (fs.lookup socket.directory).toOption.map Prod.fst

/-- Whether a socket, given with its index, lies where none of those before it lies. -/
def comesFirst (location : Path → Option Location) (sockets : List Path) (item : Path × Nat) :
    Bool :=
  (sockets.take item.2).all fun earlier => location earlier != location item.1

/-- The locations seen so far are those of the sockets before. -/
theorem firstOfEach_eq_filter {location : Path → Option Location} {seen : List Location}
    {before : List Path} (hplaced : ∀ item ∈ placed, location item.1 = some item.2)
    (hseen : ∀ loc, loc ∈ seen ↔ ∃ p ∈ before, location p = some loc) :
    firstOfEach seen placed =
      (((placed.map Prod.fst).zipIdx before.length).filter
        (comesFirst location (before ++ placed.map Prod.fst))).map Prod.fst := by
  induction placed generalizing seen before with
  | nil => rfl
  | cons item rest ih =>
      obtain ⟨socket, loc⟩ := item
      have hlocation : location socket = some loc := hplaced (socket, loc) List.mem_cons_self
      have hrest : ∀ item ∈ rest, location item.1 = some item.2 :=
        fun item hitem => hplaced item (List.mem_cons_of_mem _ hitem)
      have hfirst : comesFirst location (before ++ socket :: rest.map Prod.fst)
          (socket, before.length) = decide (loc ∉ seen) := by
        rw [Bool.eq_iff_iff]
        simp [comesFirst, hlocation, hseen]
      have hseen' : ∀ other, other = loc ∨ other ∈ seen ↔
          ∃ p ∈ before ++ [socket], location p = some other := by
        intro other
        simp only [hseen, List.mem_append, List.mem_singleton, or_and_right, exists_or,
          exists_eq_left, hlocation, Option.some.injEq]
        rw [or_comm, eq_comm]
      -- the socket is one of those before the rest, whether it is kept or not
      have hmore : before ++ socket :: rest.map Prod.fst =
          (before ++ [socket]) ++ rest.map Prod.fst := by simp
      have hlength : before.length + 1 = (before ++ [socket]).length := by simp
      rw [firstOfEach, List.map_cons, List.zipIdx_cons, List.filter_cons, hfirst, hmore, hlength]
      by_cases hold : loc ∈ seen
      · rw [if_pos hold, if_neg (by simpa using hold)]
        apply ih hrest
        intro other
        rw [← hseen']
        constructor
        · exact .inr
        · rintro (rfl | hother)
          · exact hold
          · exact hother
      · rw [if_neg hold, if_pos (by simpa using hold), List.map_cons]
        congr 1
        apply ih hrest
        intro other
        rw [← hseen', List.mem_cons]

/-- A socket that does not come first has one before it that does and lies at the same location. -/
theorem exists_comesFirst {location : Path → Option Location} {item : Path × Nat}
    (hitem : item ∈ sockets.zipIdx) (hlater : comesFirst location sockets item = false) :
    ∃ first ∈ sockets.zipIdx, first.2 < item.2 ∧ comesFirst location sockets first = true ∧
      location first.1 = location item.1 := by
  obtain ⟨p, i⟩ := item
  induction i using Nat.strongRecOn generalizing p with
  | ind i ih =>
      obtain ⟨q, hq, hsame⟩ : ∃ q ∈ sockets.take i, location q = location p := by
        simpa [comesFirst] using hlater
      obtain ⟨j, hj, rfl⟩ := List.mem_take_iff_getElem.mp hq
      have hlt : j < i := by omega
      have hmem : (sockets[j], j) ∈ sockets.zipIdx :=
        List.mem_zipIdx_iff_getElem?.mpr (List.getElem?_eq_getElem (by omega))
      cases hfirst : comesFirst location sockets (sockets[j], j) with
      | true => exact ⟨_, hmem, hlt, hfirst, hsame⟩
      | false =>
          obtain ⟨first, hfound, hbefore, hproper, hlocation⟩ := ih j hlt sockets[j] hmem hfirst
          exact ⟨first, hfound, Nat.lt_trans hbefore hlt, hproper, hlocation.trans hsame⟩

theorem locationOf_eq_some {p : Path} {loc : Location} {e : FileSystem.Entry}
    (h : fs.lookup p.directory = .ok (loc, e)) : locationOf fs p = some loc := by
  simp [locationOf, h, Except.toOption]

theorem Places.kept (h : Places fs sockets made) (plugin : String) :
    ∃ placed, placed.map Prod.fst = sockets ∧
      (∀ item ∈ placed, locationOf made item.1 = some item.2) ∧
      (prepare plugin fs sockets).sockets = firstOfEach [] placed := by
  obtain ⟨placed, hplaced⟩ := h.placeDirectories
  refine ⟨placed, map_fst_of_placeDirectories hplaced, fun item hitem => ?_, ?_⟩
  · obtain ⟨e, hlookup⟩ := lookup_of_placeDirectories hplaced item hitem
    exact locationOf_eq_some hlookup
  · by_cases hnone : sockets = []
    · subst hnone
      cases hplaced
      rfl
    · exact congrArg Prepared.sockets (prepare_of_placed hplaced hnone plugin)

theorem Places.sockets_eq (h : Places fs sockets made) (plugin : String) :
    (prepare plugin fs sockets).sockets =
      (sockets.zipIdx.filter (comesFirst (locationOf made) sockets)).map Prod.fst := by
  obtain ⟨placed, hsockets, hlocations, hkept⟩ := h.kept plugin
  have hnone : ∀ loc, loc ∈ [] ↔ ∃ p ∈ [], locationOf made p = some loc := by simp
  rw [hkept, firstOfEach_eq_filter hlocations hnone, hsockets]
  rfl

theorem Places.apart (h : Places fs sockets made) (plugin : String) :
    (prepare plugin fs sockets).sockets.Pairwise fun p q =>
      locationOf made p ≠ locationOf made q := by
  obtain ⟨placed, -, hlocations, hkept⟩ := h.kept plugin
  obtain ⟨items, hfst, hsublist, hnodup, -⟩ := firstOfEach_spec [] placed
  rw [hkept, ← hfst, List.pairwise_map]
  have hdistinct : items.Pairwise fun a b => a.2 ≠ b.2 := List.pairwise_map.mp hnodup
  apply hdistinct.imp_of_mem
  intro a b ha hb hne
  rw [hlocations a (hsublist.subset ha), hlocations b (hsublist.subset hb)]
  simpa using hne

theorem Places.head (h : Places fs sockets made) (plugin : String) :
    (prepare plugin fs sockets).sockets.head? = sockets.head? := by
  obtain ⟨placed, hsockets, -, hkept⟩ := h.kept plugin
  rw [hkept, ← hsockets]
  cases placed with
  | nil => rfl
  | cons item rest => simp [firstOfEach]

/-- When all directories can be made and read, preparing keeps exactly those sockets that come first
at their location, as it is once all directories were made: in order, the first one always, and never
two at one location. -/
theorem prepare_keeps_first_at_location (h : Places fs sockets made) (plugin : String) :
    let kept := (prepare plugin fs sockets).sockets
    let first := comesFirst (locationOf made) sockets
    (∀ p ∈ sockets, ∃ loc e, made.lookup p.directory = .ok (loc, e) ∧ e.isDirectory = true) ∧
      kept = (sockets.zipIdx.filter first).map Prod.fst ∧
      kept.Sublist sockets ∧ kept.head? = sockets.head? ∧
      kept.Pairwise (fun p q => locationOf made p ≠ locationOf made q) ∧
      ∀ item ∈ sockets.zipIdx, first item = false → ∃ earlier ∈ sockets.zipIdx,
        earlier.2 < item.2 ∧ first earlier = true ∧
          locationOf made earlier.1 = locationOf made item.1 := by
  intro kept first
  refine ⟨fun p hp => ?_, h.sockets_eq plugin, prepare_sublist plugin fs sockets, h.head plugin,
    h.apart plugin, fun item => exists_comesFirst⟩
  exact isDirectory_iff.mp (h.isDirectory p hp)

/-- A directory with a link to it. -/
def aliased : FileSystem :=
  (fresh.put ["real".toList, "work".toList, "tmp".toList] ⟨.directory, 0o755⟩).put
    ["alias".toList, "work".toList, "tmp".toList] ⟨.link (.ofString "real"), 0o777⟩

/-- Sockets in that directory three times, in a new one, and in the one above it, which is new as
well. -/
def aliasedSockets : List Path :=
  paths (["real", "alias", "new/nested", "new", "real/../alias/"].map Path.ofString) "cpu"

theorem prepare_keeps_first_at_location_aliased :
    ∃ made, Places aliased aliasedSockets made ∧
      (aliasedSockets.zipIdx.filter (comesFirst (locationOf made) aliasedSockets)).map Prod.fst =
        paths (["real", "new/nested", "new"].map Path.ofString) "cpu" := by
  have hok : (placeDirectories aliased aliasedSockets).2.isOk = true := by decide +kernel
  have hplaces := places_of_isOk hok
  refine ⟨_, hplaces, ?_⟩
  rw [← (prepare_keeps_first_at_location hplaces "cpu").2.1]
  decide +kernel

end Socket

end PluginKit
