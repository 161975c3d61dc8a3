import PluginKit.Proofs.Socket.Removal

/-!
# Binding sockets one after the other

Each socket is bound at a free name, so removing the sockets again, in the order in which they were
bound, works and brings back the files that were there before.
-/

namespace PluginKit

namespace FileSystem

/-- A socket with a listener, as it is made in a file system. -/
def socketEntry (fs : FileSystem) (listener : Nat) : Entry :=
  ⟨.socket (some listener), fs.granted 0o777⟩

variable {fs fs' : FileSystem} {p : Path} {listener : Nat}

@[simp] theorem isLeaf_socketEntry (fs : FileSystem) (listener : Nat) :
    (fs.socketEntry listener).isLeaf = true := rfl

theorem bindSocket_ok (h : fs.bindSocket p (some listener) = .ok fs') (named : p.chars ≠ []) :
    ∃ dir name, fs.arrive false p = .ok ⟨.vacant dir name, false⟩ ∧ fs.mayChange dir = true ∧
      fs' = fs.put (name :: dir) (fs.socketEntry listener) := by
  unfold bindSocket at h
  split at h
  · contradiction
  rw [if_neg named] at h
  unfold createAt at h
  split at h
  · contradiction
  · contradiction
  · rename_i dir name asks harrive
    cases asks with
    | true => simp at h
    | false =>
        simp only [Bool.false_eq_true, if_false, create] at h
        split at h
        · rename_i hmay
          exact ⟨dir, name, harrive, hmay, (Except.ok.inj h).symm⟩
        · contradiction

end FileSystem

namespace Socket

open FileSystem

/-- The second file system is the first one with a socket for each of the listeners, bound one after
the other at its path. -/
inductive Laid : FileSystem → List (Path × Nat) → FileSystem → Prop
  | nil (fs : FileSystem) : Laid fs [] fs
  | cons {base fs : FileSystem} {p : Path} {listener : Nat} {dir : Location} {name : List Char}
      {rest : List (Path × Nat)} (vacant : base.arrive false p = .ok ⟨.vacant dir name, false⟩)
      (may : base.mayChange dir = true)
      (later : Laid (base.put (name :: dir) (base.socketEntry listener)) rest fs) :
      Laid base ((p, listener) :: rest) fs

variable {base fs fs' : FileSystem} {p : Path} {listener : Nat} {bound : List (Path × Nat)}

theorem Laid.concat (h : Laid base bound fs)
    (hbind : fs.bindSocket p (some listener) = .ok fs') (named : p.chars ≠ []) :
    Laid base (bound ++ [(p, listener)]) fs' := by
  induction h with
  | nil fs =>
      obtain ⟨dir, name, hvacant, hmay, rfl⟩ := bindSocket_ok hbind named
      exact .cons hvacant hmay (.nil _)
  | cons hvacant hmay hlater ih => exact .cons hvacant hmay (ih hbind)

theorem Laid.grows (h : Laid base bound fs) : Grows base fs := by
  induction h with
  | nil fs => exact .refl fs
  | cons hvacant hmay hlater ih => exact (grows_put _ (arrive_holds hvacant).1).trans ih

theorem Laid.arrive (h : Laid base bound fs) (hmem : (p, listener) ∈ bound) :
    ∃ loc mode, fs.arrive false p = .ok ⟨.entry loc ⟨.socket (some listener), mode⟩, false⟩ := by
  induction h with
  | nil fs => contradiction
  | @cons base fs q l dir name rest hvacant hmay hlater ih =>
      rcases List.mem_cons.mp hmem with heq | hrest
      · cases heq
        have hput := grows_put (base.socketEntry listener) (arrive_holds hvacant).1
        have hfirst := hput.arrive_filled hvacant (get?_put_self ..) rfl
        exact ⟨_, _, hlater.grows.arrive_entry hfirst⟩
      · exact ih hrest

/-- A socket that was there before can be taken away before as well. -/
theorem Laid.erase {loc : Location} {e : Entry} (h : Laid base bound fs)
    (there : base.get? loc = some e) (hleaf : e.isLeaf = true) :
    Laid (base.erase loc) bound (fs.erase loc) := by
  induction h with
  | nil fs => exact .nil _
  | @cons base fs q l dir name rest hvacant hmay hlater ih =>
      obtain ⟨hfree, parent, hparent, hdirectory⟩ := arrive_holds hvacant
      have hne : name :: dir ≠ loc := by
        rintro rfl
        rw [there] at hfree
        contradiction
      have hdir : dir ≠ loc := by
        rintro rfl
        rw [there] at hparent
        cases hparent
        rcases e with ⟨_ | _ | _ | _, mode⟩ <;> simp_all [Entry.isLeaf, Entry.isDirectory]
      have hvacant' := (grows_erase base loc).arrive_vacant (onlyLeaves_erase there hleaf) hvacant
      have hmay' : (base.erase loc).mayChange dir = true := by
        rw [mayChange, get?_erase_of_ne base hdir]
        exact hmay
      refine .cons hvacant' hmay' ?_
      rw [← erase_put_of_ne _ hne]
      exact ih (by rw [get?_put_of_ne _ _ (Ne.symm hne)]; exact there)

/-- The socket bound first can be removed, and the others remain as they would have been bound
without it. -/
theorem Laid.unlink (h : Laid base ((p, listener) :: bound) fs) :
    ∃ fs', fs.unlink p = .ok fs' ∧ Laid base bound fs' := by
  cases h with
  | @cons _ _ _ _ dir name _ hvacant hmay hlater =>
      have hholds := arrive_holds hvacant
      obtain ⟨hfree, parent, hparent, -⟩ := hholds
      have hput := grows_put (base.socketEntry listener) hfree
      have hfound := hlater.grows.arrive_entry
        (hput.arrive_filled hvacant (get?_put_self ..) rfl)
      have hlookup := lookupLink_of_leaf hfound (isLeaf_socketEntry ..) false
      have hparent' := hlater.grows.entries (hput.entries hparent)
      have hmay' : fs.mayChange dir = true := by
        rw [mayChange, hparent']
        rwa [mayChange, hparent] at hmay
      refine ⟨fs.erase (name :: dir), ?_, ?_⟩
      · simp [FileSystem.unlink, hlookup, hmay', socketEntry, Entry.isDirectory]
      · have herased := hlater.erase (get?_put_self ..) (isLeaf_socketEntry ..)
        rwa [erase_put _ hfree] at herased

theorem named_of_paths (dirs : List Path) (plugin : String) :
    ∀ p ∈ paths dirs plugin, p.chars ≠ [] := by
  intro p hp
  obtain ⟨dir, -, rfl⟩ := List.mem_map.mp hp
  have hname : (Path.ofString (plugin ++ ".sock")).chars ≠ [] := by simp [Path.ofString]
  unfold Path.join
  split
  · exact hname
  · split
    · exact hname
    · split <;> simp [hname]

/-- Removing the bound sockets and then others that were not bound brings the files back. -/
theorem Laid.removeAll {left : List Path} (h : Laid base bound fs) (plugin : String)
    (habsent : ∀ q ∈ left, Absent base q) :
    removeAll plugin fs (bound.map Prod.fst ++ left) = (base, .ok ()) := by
  induction bound generalizing fs with
  | nil =>
      cases h
      exact removeAll_of_absent habsent
  | cons first rest ih =>
      obtain ⟨mid, hunlink, hrest⟩ := h.unlink
      simp only [List.map_cons, List.cons_append, Socket.removeAll, hunlink]
      exact ih hrest

end Socket

end PluginKit
