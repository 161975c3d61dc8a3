import Mathlib.Logic.Relation
import PluginKit.FileSystem.Operations
import PluginKit.Proofs.FileSystem.Growth

/-!
# Trees

The table of a file system could hold an entry whose directory is missing or is no directory. No
operation makes one: a file system that is a tree remains one.
-/

namespace PluginKit

namespace FileSystem

/-- Every entry lies in a directory; the root lies in itself. -/
def IsTree (fs : FileSystem) : Prop :=
  ∀ item ∈ fs.entries, fs.isDirectoryAt item.1.tail = true

instance (fs : FileSystem) : Decidable fs.IsTree :=
  inferInstanceAs (Decidable (∀ item ∈ fs.entries, fs.isDirectoryAt item.1.tail = true))

variable {fs fs' : FileSystem} {p : Path} {loc other : Location} {e : Entry}

theorem isDirectoryAt_eq_true_iff :
    fs.isDirectoryAt loc = true ↔ ∃ e, fs.get? loc = some e ∧ e.isDirectory = true := by
  unfold isDirectoryAt
  cases fs.get? loc <;> simp

theorem mem_of_get? (h : fs.get? loc = some e) : (loc, e) ∈ fs.entries := by
  unfold get? at h
  obtain ⟨⟨found, e'⟩, hfind, rfl⟩ := Option.map_eq_some_iff.mp h
  have hloc : found = loc := by simpa using List.find?_some hfind
  rw [← hloc]
  exact List.mem_of_find?_eq_some hfind

/-- What lies above an entry. -/
theorem IsTree.above (h : fs.IsTree) (there : fs.get? loc = some e) :
    ∃ d, fs.get? loc.tail = some d ∧ d.isDirectory = true := by
  apply isDirectoryAt_eq_true_iff.mp
  exact h (loc, e) (mem_of_get? there)

/-! ## Changing one entry -/

/-- Directories stay where an entry is written, unless it takes the place of one. -/
theorem isDirectoryAt_put (hkept : fs.isDirectoryAt loc = true → e.isDirectory = true)
    (h : fs.isDirectoryAt other = true) : (fs.put loc e).isDirectoryAt other = true := by
  by_cases heq : other = loc
  · subst heq
    simpa [isDirectoryAt] using hkept h
  · rwa [isDirectoryAt, get?_put_of_ne fs e heq]

theorem IsTree.put (h : fs.IsTree) (hdir : fs.isDirectoryAt loc.tail = true)
    (hkept : fs.isDirectoryAt loc = true → e.isDirectory = true) : (fs.put loc e).IsTree := by
  intro item hitem
  apply isDirectoryAt_put hkept
  rcases List.mem_cons.mp hitem with rfl | hold
  · exact hdir
  · exact h item (List.mem_filter.mp hold).1

theorem IsTree.erase (h : fs.IsTree) (hfile : fs.isDirectoryAt loc = false) :
    (fs.erase loc).IsTree := by
  intro item hitem
  have hdir := h item (List.mem_filter.mp hitem).1
  have hne : item.1.tail ≠ loc := by
    rintro rfl
    rw [hfile] at hdir
    contradiction
  rwa [isDirectoryAt, get?_erase_of_ne fs hne]

theorem get?_eraseTree_of_not_isSuffixOf (h : loc.isSuffixOf other = false) :
    (fs.eraseTree loc).get? other = fs.get? other := by
  have hsame : (fun item : Location × Entry => !loc.isSuffixOf item.1 && (item.1 == other)) =
      fun item => item.1 == other := by
    funext item
    by_cases heq : item.1 = other
    · simp [heq, h]
    · simp [heq]
  simp only [get?, eraseTree, List.find?_filter, Bool.decide_and, Bool.decide_eq_true]
  rw [hsame]

theorem IsTree.eraseTree (h : fs.IsTree) (loc : Location) : (fs.eraseTree loc).IsTree := by
  intro item hitem
  obtain ⟨hmem, hkept⟩ := List.mem_filter.mp hitem
  have habove : loc.isSuffixOf item.1.tail = false := by
    cases hbelow : loc.isSuffixOf item.1.tail with
    | false => rfl
    | true =>
        have hsuffix := (List.isSuffixOf_iff_suffix.mp hbelow).trans (List.tail_suffix item.1)
        simp [List.isSuffixOf_iff_suffix.mpr hsuffix] at hkept
  rw [isDirectoryAt, get?_eraseTree_of_not_isSuffixOf habove]
  exact h item hmem

/-! ## Operations -/

theorem isTree_create {dir : Location} {name : List Char} (h : fs.IsTree)
    (hholds : (Target.vacant dir name).Holds fs) (hcreate : fs.create dir name e = .ok fs') :
    fs'.IsTree := by
  obtain ⟨hfree, hdir⟩ := hholds
  unfold create at hcreate
  split at hcreate
  · cases hcreate
    have habove : fs.isDirectoryAt (name :: dir).tail = true := isDirectoryAt_eq_true_iff.mpr hdir
    apply h.put habove
    intro htaken
    simp [isDirectoryAt, hfree] at htaken
  · contradiction

theorem isTree_makeDirectory {mode : Nat} (h : fs.IsTree)
    (hmake : fs.makeDirectory mode p = .ok fs') : fs'.IsTree := by
  unfold makeDirectory at hmake
  split at hmake
  · contradiction
  · contradiction
  · rename_i harrive
    exact isTree_create h (arrive_holds harrive) hmake

/-- What making one directory keeps, making a directory and those above it keeps. -/
theorem makeDirectories_keeps {P : FileSystem → Prop} {mode : Nat}
    (hstep : ∀ {fs fs' : FileSystem} {p : Path}, P fs → fs.makeDirectory mode p = .ok fs' → P fs')
    (h : P fs) (p : Path) : P (fs.makeDirectories mode p).1 := by
  have hfrom : ∀ (above : List Path) (p : Path), P (makeDirectoriesFrom mode fs p above).1 := by
    intro above
    induction above with
    | nil =>
        intro p
        unfold makeDirectoriesFrom
        split
        · rename_i hmake
          exact hstep h hmake
        · exact h
    | cons parent above ih =>
        intro p
        have hparent := ih parent
        unfold makeDirectoriesFrom
        split
        · rename_i hmake
          exact hstep h hmake
        · split
          · rename_i hfails
            rwa [hfails] at hparent
          · rename_i hmade
            rw [hmade] at hparent
            split
            · rename_i hmake
              exact hstep hparent hmake
            · exact hparent
        · exact h
  unfold makeDirectories
  split
  · exact h
  · exact hfrom _ p

theorem isTree_makeDirectories {mode : Nat} (h : fs.IsTree) (p : Path) :
    (fs.makeDirectories mode p).1.IsTree :=
  makeDirectories_keeps isTree_makeDirectory h p

theorem isTree_createAt {taken : IoError} (h : fs.IsTree)
    (hcreate : fs.createAt p e taken = .ok fs') : fs'.IsTree := by
  unfold createAt at hcreate
  split at hcreate
  · contradiction
  · contradiction
  · rename_i harrive
    split at hcreate
    · contradiction
    · exact isTree_create h (arrive_holds harrive) hcreate

theorem isTree_bindSocket {listener : Option Nat} (h : fs.IsTree)
    (hbind : fs.bindSocket p listener = .ok fs') : fs'.IsTree := by
  unfold bindSocket at hbind
  split at hbind
  · contradiction
  · split at hbind
    · cases hbind
      exact h
    · exact isTree_createAt h hbind

theorem isTree_makeLink {goal : Path} (h : fs.IsTree) (hlink : fs.makeLink goal p = .ok fs') :
    fs'.IsTree := by
  unfold makeLink at hlink
  split at hlink
  · contradiction
  split at hlink
  · contradiction
  · exact isTree_createAt h hlink

theorem isTree_writeFile {content : List UInt8} (h : fs.IsTree)
    (hwrite : fs.writeFile p content = .ok fs') : fs'.IsTree := by
  unfold writeFile at hwrite
  split at hwrite
  · contradiction
  · contradiction
  · rename_i harrive
    exact isTree_create h (arrive_holds harrive) hwrite
  · rename_i loc e harrive
    have hthere : fs.get? loc = some e := arrive_holds harrive
    split at hwrite
    · contradiction
    rename_i hfile
    split at hwrite
    · contradiction
    split at hwrite
    · contradiction
    cases hwrite
    apply h.put (isDirectoryAt_eq_true_iff.mpr (h.above hthere))
    intro htaken
    simp [isDirectoryAt, hthere, hfile] at htaken

theorem isTree_setMode {mode : Nat} (h : fs.IsTree) (hset : fs.setMode p mode = .ok fs') :
    fs'.IsTree := by
  unfold setMode at hset
  split at hset
  · contradiction
  · rename_i loc e hlookup
    cases hset
    have hthere : fs.get? loc = some e := holds_of_lookupLink hlookup
    apply h.put (isDirectoryAt_eq_true_iff.mpr (h.above hthere))
    intro htaken
    simpa [isDirectoryAt, hthere, Entry.isDirectory] using htaken

theorem isTree_unlink (h : fs.IsTree) (hunlink : fs.unlink p = .ok fs') : fs'.IsTree := by
  unfold unlink at hunlink
  split at hunlink
  · contradiction
  · rename_i loc e hlookup
    split at hunlink
    · contradiction
    split at hunlink
    · contradiction
    rename_i hfile
    cases hunlink
    apply h.erase
    simp [isDirectoryAt, holds_of_lookupLink hlookup, hfile]

theorem isTree_remove (h : fs.IsTree) (hremove : fs.remove p = .ok fs') : fs'.IsTree := by
  unfold remove at hremove
  split at hremove
  · contradiction
  · split at hremove
    · contradiction
    · cases hremove
      exact h.eraseTree _

/-- What an operation that succeeds makes of a file system. Making a directory with those above it
leaves something behind even where it fails. -/
inductive Becomes (fs : FileSystem) : FileSystem → Prop
  | makesDirectory {mode : Nat} {p : Path} {fs' : FileSystem}
      (h : fs.makeDirectory mode p = .ok fs') : Becomes fs fs'
  | makesDirectories (mode : Nat) (p : Path) : Becomes fs (fs.makeDirectories mode p).1
  | writesFile {p : Path} {content : List UInt8} {fs' : FileSystem}
      (h : fs.writeFile p content = .ok fs') : Becomes fs fs'
  | makesLink {goal p : Path} {fs' : FileSystem} (h : fs.makeLink goal p = .ok fs') : Becomes fs fs'
  | bindsSocket {p : Path} {listener : Option Nat} {fs' : FileSystem}
      (h : fs.bindSocket p listener = .ok fs') : Becomes fs fs'
  | setsMode {p : Path} {mode : Nat} {fs' : FileSystem} (h : fs.setMode p mode = .ok fs') :
      Becomes fs fs'
  | unlinks {p : Path} {fs' : FileSystem} (h : fs.unlink p = .ok fs') : Becomes fs fs'
  | removes {p : Path} {fs' : FileSystem} (h : fs.remove p = .ok fs') : Becomes fs fs'

theorem IsTree.becomes (h : fs.IsTree) (hstep : fs.Becomes fs') : fs'.IsTree := by
  cases hstep with
  | makesDirectory hmake => exact isTree_makeDirectory h hmake
  | makesDirectories mode p => exact isTree_makeDirectories h p
  | writesFile hwrite => exact isTree_writeFile h hwrite
  | makesLink hlink => exact isTree_makeLink h hlink
  | bindsSocket hbind => exact isTree_bindSocket h hbind
  | setsMode hset => exact isTree_setMode h hset
  | unlinks hunlink => exact isTree_unlink h hunlink
  | removes hremove => exact isTree_remove h hremove

/-- Whatever operations made of the fresh file system is a tree. -/
theorem isTree_of_fresh (h : Relation.ReflTransGen Becomes fresh fs) : fs.IsTree := by
  induction h with
  | refl => decide
  | tail _ hstep ih => exact ih.becomes hstep

end FileSystem

end PluginKit
