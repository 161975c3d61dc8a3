import PluginKit.Logging
import PluginKit.Proofs.Components

/-!
# What a log path names

A log path that does not lead to a directory is cut into the directory where its files go and the
name that they begin with, and the two joined say again what the path says. A path that ends in no
name gives the directory only, and its files have the default name.
-/

namespace PluginKit

namespace Path

variable {p : Path} {name : List Char}

/-! ## The last name of a path -/

theorem fileName?_eq_some_iff :
    p.fileName? = some name ↔ p.components.getLast? = some (.normal name) := by
  unfold fileName?
  split
  · rename_i last hlast
    simp [hlast]
  · rename_i hnone
    constructor
    · intro h
      contradiction
    · intro h
      exact absurd h (hnone name)

/-- A name in a path is one of the parts between its slashes. -/
theorem mem_split_of_normal (h : .normal name ∈ p.components) :
    name ∈ split p.chars ∧ component? name = some (.normal name) := by
  rw [components_eq_split, List.mem_append] at h
  rcases h with hhead | hpart
  · unfold headComponent? at hhead
    split at hhead
    · simp at hhead
    · split at hhead <;> simp at hhead
  · obtain ⟨part, hmem, hpart⟩ := List.mem_filterMap.mp hpart
    obtain rfl := eq_of_component?_normal hpart
    exact ⟨hmem, hpart⟩

theorem slash_not_mem_of_fileName? (h : p.fileName? = some name) : '/' ∉ name :=
  slash_not_mem_of_split
    (mem_split_of_normal (List.mem_of_getLast? (fileName?_eq_some_iff.mp h))).1

/-- A path ends in no name if it says nothing, says only where paths start from, or ends in `..`. -/
theorem fileName?_eq_none_iff :
    p.fileName? = none ↔ p.chars = [] ∨ p.components = [.root] ∨ p.components = [.current] ∨
      p.components.getLast? = some .parent := by
  have hnone : p.fileName? = none ↔ ∀ name, p.components.getLast? ≠ some (.normal name) := by
    simp only [Option.eq_none_iff_forall_ne_some, ne_eq, fileName?_eq_some_iff]
  rw [hnone, ← components_eq_nil_iff, components_eq_split]
  -- the parts behind the head are names and `..` only
  rcases List.eq_nil_or_concat ((split p.chars).filterMap component?) with hrest | ⟨front, last, hrest⟩
  · rw [hrest, List.append_nil]
    cases p.headComponent? with
    | none => simp
    | some head => cases head <;> simp
  · have hlast : last ∈ (split p.chars).filterMap component? := by simp [hrest]
    obtain ⟨part, -, hpart⟩ := List.mem_filterMap.mp hlast
    rw [hrest, List.concat_eq_append, ← List.append_assoc, List.getLast?_concat]
    cases last with
    | root => exact absurd hpart (component?_ne_root part)
    | current => exact absurd hpart (component?_ne_current part)
    | parent => simp
    | normal name => simp [List.append_eq_singleton_iff]

/-! ## The directory of a path and its last name -/

theorem directory_eq_parent (p : Path) :
    p.directory = (p.parent?.filter fun dir => dir.chars ≠ []).getD here := by
  unfold directory
  cases p.parent? with
  | none => rfl
  | some dir => by_cases hempty : dir.chars = [] <;> simp [Option.filter, hempty]

theorem directory_chars_ne_nil (p : Path) : p.directory.chars ≠ [] := by
  unfold directory
  split
  · exact List.cons_ne_nil _ _
  · split
    · exact List.cons_ne_nil _ _
    · assumption

/-- The last name of a path, joined to its directory, says again what the path says. -/
theorem components_directory_join (h : p.fileName? = some name) :
    (p.directory.join ⟨name⟩).components =
      if p.components = [.normal name] then .current :: p.components else p.components := by
  have hlast := fileName?_eq_some_iff.mp h
  obtain ⟨front, hcomponents⟩ := List.getLast?_eq_some_iff.mp hlast
  have hname := (mem_split_of_normal (List.mem_of_getLast? hlast)).2
  have hslashless := slash_not_mem_of_fileName? h
  calc (p.directory.join ⟨name⟩).components
      = p.directory.components ++ (split name).filterMap component? :=
        components_join p.directory_chars_ne_nil (isAbsolute_of_slashless hslashless)
    _ = (if front = [] then [.current] else front) ++ [.normal name] := by
        rw [components_directory, hcomponents, List.dropLast_concat,
          split_of_slashless hslashless]
        simp [hname]
    _ = _ := by
        rw [hcomponents]
        by_cases hbare : front = [] <;> simp [hbare]

end Path

namespace Logging

variable {fs : FileSystem} {path : Path}

theorem target_of_isDirectory (h : fs.isDirectory path = true) :
    target fs path = ⟨path, defaultName⟩ := by
  rw [target, if_pos h]

theorem target_of_not_isDirectory (h : fs.isDirectory path = false) :
    target fs path = ⟨path.directory, path.fileName?.getD defaultName⟩ := by
  rw [target, h, if_neg Bool.false_ne_true]

theorem chars_ne_nil_of_isDirectory (h : fs.isDirectory path = true) : path.chars ≠ [] := by
  intro hempty
  simp [FileSystem.isDirectory, FileSystem.lookup, FileSystem.lookupLink, FileSystem.arrive,
    hempty] at h

theorem target_dir_ne_nil (fs : FileSystem) (path : Path) : (target fs path).dir.chars ≠ [] := by
  cases h : fs.isDirectory path with
  | true =>
      rw [target_of_isDirectory h]
      exact chars_ne_nil_of_isDirectory h
  | false =>
      rw [target_of_not_isDirectory h]
      exact path.directory_chars_ne_nil

theorem slash_not_mem_target_stem (fs : FileSystem) (path : Path) :
    '/' ∉ (target fs path).stem := by
  have hdefault : '/' ∉ defaultName := by decide
  cases h : fs.isDirectory path with
  | true =>
      rw [target_of_isDirectory h]
      exact hdefault
  | false =>
      rw [target_of_not_isDirectory h]
      cases hname : path.fileName? with
      | none => exact hdefault
      | some name => exact Path.slash_not_mem_of_fileName? hname

/-- What a target keeps of the log path that it is made from. -/
structure Keeps (fs : FileSystem) (path : Path) (t : Target) : Prop where
  dir_ne_nil : t.dir.chars ≠ []
  slash_not_mem : '/' ∉ t.stem
  /-- A path that leads to a directory is the directory of its log files. -/
  directory : fs.isDirectory path = true → t = ⟨path, defaultName⟩
  /-- Any other path has its files in its parent, or in `.` where that is empty or missing. -/
  parent : fs.isDirectory path = false →
    t.dir = (path.parent?.filter fun dir => dir.chars ≠ []).getD .here ∧
      t.dir.components =
        if path.components.dropLast = [] then [.current] else path.components.dropLast
  /-- If it ends in a name, its directory and its files' name say what it says, behind a `.` if it is
  the name alone. -/
  named : ∀ name, fs.isDirectory path = false →
    path.components.getLast? = some (.normal name) →
    (t.dir.join ⟨t.stem⟩).components =
      if path.components = [.normal name] then .current :: path.components else path.components
  /-- If not, it says nothing, says only where paths start from, or ends in `..`, and its files have
  the default name. -/
  unnamed : fs.isDirectory path = false →
    (∀ name, path.components.getLast? ≠ some (.normal name)) →
    (path.chars = [] ∨ path.components = [.root] ∨ path.components = [.current] ∨
      path.components.getLast? = some .parent) ∧ t.stem = defaultName

/-- The target of a log path loses nothing of it. -/
theorem target_keeps (fs : FileSystem) (path : Path) : Keeps fs path (target fs path) where
  dir_ne_nil := target_dir_ne_nil fs path
  slash_not_mem := slash_not_mem_target_stem fs path
  directory := target_of_isDirectory
  parent hfile := by
    rw [target_of_not_isDirectory hfile]
    exact ⟨path.directory_eq_parent, path.components_directory⟩
  named name hfile hlast := by
    have hname := Path.fileName?_eq_some_iff.mpr hlast
    rw [target_of_not_isDirectory hfile, hname]
    exact Path.components_directory_join hname
  unnamed hfile hnone := by
    have hname : path.fileName? = none := by
      rw [Option.eq_none_iff_forall_ne_some]
      intro name hsome
      exact hnone name (Path.fileName?_eq_some_iff.mp hsome)
    rw [target_of_not_isDirectory hfile, hname]
    exact ⟨Path.fileName?_eq_none_iff.mp hname, rfl⟩

/-- Slashes and dots between the names and behind the last are lost, and a bare name gets a `.`. -/
theorem target_keeps_untidy :
    FileSystem.fresh.isDirectory (.ofString "logs//./cpu.log/.") = false ∧
      ((target .fresh (.ofString "logs//./cpu.log/.")).dir.join
          ⟨(target .fresh (.ofString "logs//./cpu.log/.")).stem⟩).components =
        [.normal "logs".toList, .normal "cpu.log".toList] ∧
      FileSystem.fresh.isDirectory (.ofString "cpu.log/") = false ∧
      ((target .fresh (.ofString "cpu.log/")).dir.join
          ⟨(target .fresh (.ofString "cpu.log/")).stem⟩).components =
        [.current, .normal "cpu.log".toList] ∧
      FileSystem.fresh.isDirectory (.ofString "missing/..") = false ∧
      (target .fresh (.ofString "missing/..")).stem = defaultName := by
  have missing : FileSystem.fresh.isDirectory (.ofString "missing/..") = false := by decide
  refine ⟨by decide, ?nested, by decide, ?bare, missing, ?unnamed⟩
  case nested =>
    exact ((target_keeps .fresh _).named "cpu.log".toList (by decide) (by decide)).trans
      (by decide)
  case bare =>
    exact ((target_keeps .fresh _).named "cpu.log".toList (by decide) (by decide)).trans
      (by decide)
  case unnamed =>
    have last : (Path.ofString "missing/..").components.getLast? = some .parent := by decide
    refine ((target_keeps .fresh _).unnamed missing ?_).2
    intro name hname
    rw [last] at hname
    cases hname

end Logging

end PluginKit
