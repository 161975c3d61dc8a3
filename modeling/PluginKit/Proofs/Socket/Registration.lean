import PluginKit.Proofs.Components
import PluginKit.Socket

/-!
# Where the sockets of a plugin lie

A socket lies in its registration directory as long as the name of the plugin leads nowhere else. A
name may hold slashes, and then it can: into another directory below the registration directory, or,
with a slash in front, to one place for all registration directories.
-/

namespace PluginKit

namespace Path

/-- The path, with `.` for one that says nothing. -/
def orHere (p : Path) : Path :=
  if p.chars = [] then here else p

def leading (name : String) : List Component :=
  (split name.toList).dropLast.filterMap component?

end Path

namespace Socket

open PluginKit.Path

variable {dir dir' : Path} {name : String}

/-- A plugin with this name has its socket in the directory itself: nothing is said in front of the
last slash of the name, or the name is absolute and says just this directory. -/
def Stays (name : String) (dir : Path) : Prop :=
  if (Path.ofString name).isAbsolute then dir.orHere.components = .root :: leading name
  else leading name = []

instance (name : String) (dir : Path) : Decidable (Stays name dir) := by
  unfold Stays
  infer_instance

def file (name : String) : Path :=
  Path.ofString (name ++ ".sock")

theorem file_chars (name : String) : (file name).chars = name.toList ++ ".sock".toList := by
  simp [file, Path.ofString]

theorem isAbsolute_file (name : String) :
    (file name).isAbsolute = (Path.ofString name).isAbsolute := by
  cases hname : name.toList with
  | nil => simp [isAbsolute, file_chars, Path.ofString, hname]
  | cons c rest => simp [isAbsolute, file_chars, Path.ofString, hname]

/-- The last component of the file is a name, whatever the plugin is called. -/
theorem filterMap_file (name : String) :
    ∃ last, (split (file name).chars).filterMap component? = leading name ++ [.normal last] := by
  refine ⟨(split name.toList).getLast (split_ne_nil name.toList) ++ ".sock".toList, ?_⟩
  rw [file_chars, split_append_slashless name.toList (by decide), List.filterMap_append]
  congr 1
  generalize (split name.toList).getLast (split_ne_nil name.toList) = front
  have hlong : ∀ text : List Char, text.length < 5 → front ++ ".sock".toList ≠ text := by
    rintro text hlength rfl
    have hsock : ".sock".toList.length = 5 := by decide
    rw [List.length_append] at hlength
    omega
  have hproper : isFiller (front ++ ".sock".toList) = false := by
    simp only [isFiller, Bool.or_eq_false_iff, beq_eq_false_iff_ne]
    exact ⟨hlong _ (by decide), hlong _ (by decide)⟩
  simp only [List.filterMap_cons, List.filterMap_nil, component?, hproper, Bool.false_eq_true,
    if_false, if_neg (hlong ['.', '.'] (by decide))]

theorem current_not_mem_leading (name : String) : Component.current ∉ leading name :=
  current_not_mem_filterMap _

theorem components_directory_of_append {p : Path} {front : List Component} {c : Component}
    (h : p.components = front ++ [c]) (hsome : front ≠ []) : p.directory.components = front := by
  rw [components_directory, h, List.dropLast_concat, if_neg hsome]

/-- Where a file with an absolute name lies, whatever directory it is joined to. -/
theorem directory_of_absolute (h : (Path.ofString name).isAbsolute = true) :
    (dir.join (file name)).directory.components = .root :: leading name := by
  have habsolute : (file name).isAbsolute = true := isAbsolute_file name ▸ h
  have hjoin : dir.join (file name) = file name := by simp [join, habsolute]
  obtain ⟨last, hlast⟩ := filterMap_file name
  rw [hjoin]
  apply components_directory_of_append (c := .normal last) _ (List.cons_ne_nil _ _)
  rw [components_eq_split, hlast, headComponent?, habsolute]
  rfl

/-- Where a file with a relative name lies, if the directory is said at all. -/
theorem directory_of_relative (h : (Path.ofString name).isAbsolute = false)
    (hsome : dir.chars ≠ []) :
    (dir.join (file name)).directory.components = dir.components ++ leading name := by
  have hrelative : (file name).isAbsolute = false := isAbsolute_file name ▸ h
  obtain ⟨last, hlast⟩ := filterMap_file name
  apply components_directory_of_append (c := .normal last)
  · rw [components_join hsome hrelative, hlast, List.append_assoc]
  · intro hnone
    exact hsome (components_eq_nil_iff.mp (List.append_eq_nil_iff.mp hnone).1)

/-- Where a file with a relative name lies, if no directory is said. -/
theorem directory_of_bare (h : (Path.ofString name).isAbsolute = false) (hnone : dir.chars = []) :
    (dir.join (file name)).directory.components = [.current] ↔ leading name = [] := by
  have hrelative : (file name).isAbsolute = false := isAbsolute_file name ▸ h
  have hjoin : dir.join (file name) = file name := by simp [join, hrelative, hnone]
  obtain ⟨last, hlast⟩ := filterMap_file name
  have hcomponents : (file name).components.dropLast =
      (file name).headComponent?.toList ++ leading name := by
    rw [components_eq_split, hlast, ← List.append_assoc, List.dropLast_concat]
  rw [hjoin, components_directory, hcomponents]
  cases hstart : (file name).startsHere with
  | true => simp [headComponent?, hrelative, hstart]
  | false =>
      simp only [headComponent?, hrelative, hstart, Bool.false_eq_true, if_false,
        Option.toList_none, List.nil_append]
      constructor
      · intro heq
        by_cases hempty : leading name = []
        · exact hempty
        · rw [if_neg hempty] at heq
          exact absurd (heq ▸ List.mem_cons_self) (current_not_mem_leading name)
      · intro hempty
        rw [if_pos hempty]

theorem directory_join_iff (dir : Path) (name : String) :
    (dir.join (file name)).directory.components = dir.orHere.components ↔ Stays name dir := by
  unfold Stays
  cases habsolute : (Path.ofString name).isAbsolute with
  | true =>
      rw [directory_of_absolute habsolute, if_pos rfl]
      exact eq_comm
  | false =>
      rw [if_neg Bool.false_ne_true]
      by_cases hnone : dir.chars = []
      · have hhere : dir.orHere.components = [.current] := by
          rw [orHere, if_pos hnone]
          rfl
        rw [hhere]
        exact directory_of_bare habsolute hnone
      · rw [directory_of_relative habsolute hnone, orHere, if_neg hnone]
        simp

theorem stays_of_slashless (h : '/' ∉ name.toList) (dir : Path) : Stays name dir := by
  have hrelative : (Path.ofString name).isAbsolute = false := isAbsolute_of_slashless h
  rw [Stays, hrelative, if_neg Bool.false_ne_true, leading, split_of_slashless h]
  rfl

theorem components_ne_of_stays (h : Stays name dir) (h' : Stays name dir')
    (hne : dir.orHere.components ≠ dir'.orHere.components) :
    (dir.join (file name)).components ≠ (dir'.join (file name)).components := by
  intro heq
  apply hne
  calc dir.orHere.components = (dir.join (file name)).directory.components :=
        ((directory_join_iff dir name).mpr h).symm
    _ = (dir'.join (file name)).directory.components := by
        rw [components_directory, heq, ← components_directory]
    _ = dir'.orHere.components := (directory_join_iff dir' name).mpr h'

/-- There is a socket for each directory, in order. It lies in that directory exactly if the name of
the plugin stays there, as every name without a slash does, and the sockets in different directories
are different then. -/
theorem paths_stay_iff (dirs : List Path) (name : String) :
    (paths dirs name).length = dirs.length ∧
      (∀ (i : Nat) (dir socket : Path), dirs[i]? = some dir → (paths dirs name)[i]? = some socket →
        (socket.directory.components = dir.orHere.components ↔ Stays name dir)) ∧
      (∀ (i j : Nat) (dir dir' socket socket' : Path), dirs[i]? = some dir → dirs[j]? = some dir' →
        (paths dirs name)[i]? = some socket → (paths dirs name)[j]? = some socket' →
        Stays name dir → Stays name dir' → dir.orHere.components ≠ dir'.orHere.components →
          socket.components ≠ socket'.components) ∧
      ('/' ∉ name.toList → ∀ dir, Stays name dir) := by
  have hsocket : ∀ {i : Nat} {dir socket : Path}, dirs[i]? = some dir →
      (paths dirs name)[i]? = some socket → socket = dir.join (file name) := by
    intro i dir socket hdir hpath
    rw [paths, List.getElem?_map, hdir] at hpath
    exact (Option.some.inj hpath).symm
  refine ⟨List.length_map _, ?stays, ?apart, fun h dir => stays_of_slashless h dir⟩
  case stays =>
    intro i dir socket hdir hpath
    rw [hsocket hdir hpath]
    exact directory_join_iff dir name
  case apart =>
    intro i j dir dir' socket socket' hdir hdir' hpath hpath' hstays hstays' hne
    rw [hsocket hdir hpath, hsocket hdir' hpath']
    exact components_ne_of_stays hstays hstays' hne

/-- Directories with an empty one among them, and one behind a trailing slash. -/
theorem paths_stay_iff_scattered :
    '/' ∉ "cpu".toList ∧
      ∀ (i : Nat) (dir socket : Path), (["", "a/", "/"].map Path.ofString)[i]? = some dir →
        (paths (["", "a/", "/"].map Path.ofString) "cpu")[i]? = some socket →
          socket.directory.components = dir.orHere.components := by
  obtain ⟨-, hstays, -, hslashless⟩ := paths_stay_iff (["", "a/", "/"].map Path.ofString) "cpu"
  refine ⟨by decide, fun i dir socket hdir hpath => ?_⟩
  exact (hstays i dir socket hdir hpath).mpr (hslashless (by decide) dir)

/-- An absolute name has the one socket for all directories, outside of them; a name with a slash
inside has its sockets one directory deeper. -/
theorem paths_stray :
    paths (["a", "b"].map Path.ofString) "/cpu" = ["/cpu.sock", "/cpu.sock"].map Path.ofString ∧
      (∀ socket ∈ paths (["a", "b"].map Path.ofString) "/cpu",
        socket.directory.components = [.root]) ∧
      ∀ socket ∈ paths [Path.ofString "a"] "sub/cpu",
        socket.directory.components = [.normal "a".toList, .normal "sub".toList] := by
  decide

end Socket

end PluginKit
