import PluginKit.FileSystem.Walk

/-!
# Following one name

A name of a path is followed from a directory. It answers for the whole path, or the names behind it
are followed from another directory or from the goal of a link. What it comes to depends on two
entries at most: the one of the directory and the one under the name.
-/

namespace PluginKit

namespace FileSystem

/-- Whether paths end at an entry: it is neither a directory nor a link. -/
def Entry.isLeaf (e : Entry) : Bool :=
  match e.kind with
  | .directory => false
  | .link _ => false
  | _ => true

def Entry.isLink (e : Entry) : Bool :=
  match e.kind with
  | .link _ => true
  | _ => false

theorem Entry.isLeaf_iff {e : Entry} :
    e.isLeaf = true ↔ e.isDirectory = false ∧ e.isLink = false := by
  rcases e with ⟨_ | _ | _ | _, mode⟩ <;> simp [Entry.isLeaf, Entry.isDirectory, Entry.isLink]

abbrev Arrived := Except IoError Arrival

/-- What a name of a path comes to. -/
inductive Onward where
  | answer (r : Arrived)
  | enter (dir : Location)
  | jump (goal : Path)

/-- What a name comes to in the directory at `dir`, unless the entry under it decides. -/
def byItself? (fs : FileSystem) (dir : Location) (name : List Char) : Option Onward :=
  match fs.get? dir with
  | none => some (.answer (.error .notFound))
  | some e =>
      if !e.isDirectory then some (.answer (.error .notADirectory))
      else if !e.searchable then some (.answer (.error .permissionDenied))
      else if name = ['.'] then some (.enter dir)
      else if name = ['.', '.'] then some (.enter dir.tail)
      else if nameLimit < Path.byteLength name then some (.answer (.error .nameTooLong))
      else none

/-- What a name comes to by the entry under it. -/
def byEntry (follow asks : Bool) (dir : Location) (name : List Char) (last : Bool) :
    Option Entry → Onward
  | none => .answer (if last then .ok ⟨.vacant dir name, asks⟩ else .error .notFound)
  | some ⟨.link goal, mode⟩ =>
      if last && !follow then .answer (.ok ⟨.entry (name :: dir) ⟨.link goal, mode⟩, asks⟩)
      else .jump goal
  | some e =>
      if last then .answer (.ok ⟨.entry (name :: dir) e, asks⟩) else .enter (name :: dir)

def onward (fs : FileSystem) (follow asks : Bool) (dir : Location) (name : List Char)
    (last : Bool) : Onward :=
  (fs.byItself? dir name).getD (byEntry follow asks dir name last (fs.get? (name :: dir)))

variable {fs fs' : FileSystem} {follow asks last : Bool} {dir : Location} {name : List Char}

theorem walkNames_cons (fs : FileSystem) (jump : Location → Path → List (List Char) → Arrived)
    (follow asks : Bool) (dir : Location) (name : List Char) (rest : List (List Char)) :
    fs.walkNames jump follow asks dir (name :: rest) =
      match fs.onward follow asks dir name rest.isEmpty with
      | .answer r => r
      | .enter next => fs.walkNames jump follow asks next rest
      | .jump goal => jump dir goal rest := by
  simp only [walkNames, onward, byItself?]
  cases fs.get? dir with
  | none => rfl
  | some e =>
      simp only
      split
      · rfl
      split
      · rfl
      split
      · rfl
      split
      · rfl
      split
      · rfl
      rcases fs.get? (name :: dir) with _ | ⟨_ | _ | goal | _, mode⟩ <;>
        cases rest <;> cases follow <;> rfl

theorem onward_of_byItself {o : Onward} (h : fs.byItself? dir name = some o) :
    fs.onward follow asks dir name last = o := by
  rw [onward, h, Option.getD_some]

theorem onward_of_byEntry (h : fs.byItself? dir name = none) :
    fs.onward follow asks dir name last =
      byEntry follow asks dir name last (fs.get? (name :: dir)) := by
  rw [onward, h, Option.getD_none]

theorem byItself?_congr (h : fs'.get? dir = fs.get? dir) :
    fs'.byItself? dir name = fs.byItself? dir name := by
  simp only [byItself?, h]

theorem onward_congr (hdir : fs'.get? dir = fs.get? dir)
    (hname : fs'.get? (name :: dir) = fs.get? (name :: dir)) :
    fs'.onward follow asks dir name last = fs.onward follow asks dir name last := by
  rw [onward, onward, byItself?_congr hdir, hname]

theorem onward_of_none (h : fs.get? dir = none) :
    fs.onward follow asks dir name last = .answer (.error .notFound) :=
  onward_of_byItself (by simp only [byItself?, h])

theorem byEntry_of_not_link {e : Entry} (h : e.isLink = false) :
    byEntry follow asks dir name last (some e) =
      if last then .answer (.ok ⟨.entry (name :: dir) e, asks⟩) else .enter (name :: dir) := by
  rcases e with ⟨_ | _ | goal | _, mode⟩
  case link => contradiction
  all_goals rfl

/-- A path is refused for its text in every file system, or its names are followed in each. -/
theorem arrive_cases (p : Path) :
    (∃ err, ∀ (fs : FileSystem) (follow : Bool), fs.arrive follow p = .error err) ∨
      ∀ (fs : FileSystem) (follow : Bool), fs.arrive follow p =
        fs.walk follow linkLimit (endsInSlash p) (startOf p fs.here) (names p) := by
  by_cases hnul : '\x00' ∈ p.chars
  · exact .inl ⟨.nulInName, fun fs follow => by rw [arrive, if_pos hnul]⟩
  by_cases hempty : p.chars = []
  · exact .inl ⟨.notFound, fun fs follow => by rw [arrive, if_neg hnul, if_pos hempty]⟩
  by_cases hlong : pathLimit ≤ Path.byteLength p.chars
  · refine .inl ⟨.nameTooLong, fun fs follow => ?_⟩
    rw [arrive, if_neg hnul, if_neg hempty, if_pos hlong]
  · refine .inr fun fs follow => ?_
    rw [arrive, if_neg hnul, if_neg hempty, if_neg hlong]

/-! ## All that a name can come to -/

def Searchable (fs : FileSystem) (dir : Location) : Prop :=
  ∃ e, fs.get? dir = some e ∧ e.isDirectory = true ∧ e.searchable = true

inductive ComesTo (fs : FileSystem) (follow asks : Bool) (dir : Location) (name : List Char)
    (last : Bool) : Onward → Prop
  | refused (err : IoError) : ComesTo fs follow asks dir name last (.answer (.error err))
  | here (opened : fs.Searchable dir) (dot : name = ['.']) :
      ComesTo fs follow asks dir name last (.enter dir)
  | above (opened : fs.Searchable dir) (dots : name = ['.', '.']) :
      ComesTo fs follow asks dir name last (.enter dir.tail)
  | vacant (opened : fs.Searchable dir) (proper : name ≠ ['.'])
      (free : fs.get? (name :: dir) = none) (ends : last = true) :
      ComesTo fs follow asks dir name last (.answer (.ok ⟨.vacant dir name, asks⟩))
  | entry {e : Entry} (opened : fs.Searchable dir) (proper : name ≠ ['.'])
      (there : fs.get? (name :: dir) = some e) (ends : last = true) :
      ComesTo fs follow asks dir name last (.answer (.ok ⟨.entry (name :: dir) e, asks⟩))
  | inside {e : Entry} (opened : fs.Searchable dir) (proper : name ≠ ['.'])
      (there : fs.get? (name :: dir) = some e) (goes : last = false) :
      ComesTo fs follow asks dir name last (.enter (name :: dir))
  | link (goal : Path) (opened : fs.Searchable dir) (proper : name ≠ ['.'])
      (followed : last = false ∨ follow = true) :
      ComesTo fs follow asks dir name last (.jump goal)

theorem comesTo_byEntry (opened : fs.Searchable dir) (proper : name ≠ ['.']) :
    ComesTo fs follow asks dir name last
      (byEntry follow asks dir name last (fs.get? (name :: dir))) := by
  cases there : fs.get? (name :: dir) with
  | none =>
      cases last with
      | false => exact .refused _
      | true => exact .vacant opened proper there rfl
  | some e =>
      rcases e with ⟨_ | _ | goal | _, mode⟩
      case link =>
          cases last with
          | false => exact .link goal opened proper (.inl rfl)
          | true =>
              cases follow with
              | false => exact .entry opened proper there rfl
              | true => exact .link goal opened proper (.inr rfl)
      all_goals
        cases last with
        | false => exact .inside opened proper there rfl
        | true => exact .entry opened proper there rfl

theorem comesTo_onward (fs : FileSystem) (follow asks : Bool) (dir : Location)
    (name : List Char) (last : Bool) :
    ComesTo fs follow asks dir name last (fs.onward follow asks dir name last) := by
  simp only [onward, byItself?]
  cases hdir : fs.get? dir with
  | none => exact .refused _
  | some e =>
      simp only
      split
      · exact .refused _
      rename_i hdirectory
      split
      · exact .refused _
      rename_i hsearchable
      have opened : fs.Searchable dir :=
        ⟨e, hdir, by simpa using hdirectory, by simpa using hsearchable⟩
      split
      · exact .here opened ‹_›
      rename_i proper
      split
      · exact .above opened ‹_›
      split
      · exact .refused _
      exact comesTo_byEntry opened proper

/-- Names are only looked up with success where they may be looked up. -/
theorem searchable_of_walkNames {jump : Location → Path → List (List Char) → Arrived}
    {rest : List (List Char)} {arrival : Arrival}
    (h : fs.walkNames jump follow asks dir (name :: rest) = .ok arrival) :
    fs.Searchable dir := by
  rw [walkNames_cons] at h
  have hcomes := comesTo_onward fs follow asks dir name rest.isEmpty
  generalize fs.onward follow asks dir name rest.isEmpty = o at h hcomes
  cases hcomes with
  | refused => contradiction
  | here opened => exact opened
  | above opened => exact opened
  | vacant opened => exact opened
  | entry opened => exact opened
  | inside opened => exact opened
  | link goal opened => exact opened

theorem walkNames_dot (opened : fs.Searchable dir)
    (jump : Location → Path → List (List Char) → Arrived) (follow asks : Bool)
    (rest : List (List Char)) :
    fs.walkNames jump follow asks dir (['.'] :: rest) =
      fs.walkNames jump follow asks dir rest := by
  obtain ⟨e, hdir, hdirectory, hsearchable⟩ := opened
  have hdot : fs.byItself? dir ['.'] = some (.enter dir) := by
    simp [byItself?, hdir, hdirectory, hsearchable]
  rw [walkNames_cons, onward_of_byItself hdot]

end FileSystem

end PluginKit
