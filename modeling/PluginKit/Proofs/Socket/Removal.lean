import PluginKit.Proofs.FileSystem.Growth
import PluginKit.Proofs.Socket

/-!
# Removing socket files

Once the files at several paths were removed, none of the paths leads to anything, in whatever way
they lead through each other. Preparing sockets ends so.
-/

namespace PluginKit

namespace FileSystem

variable {fs fs' : FileSystem} {p : Path}

/-- What is removed is no directory, and was found without following a link at the end. -/
theorem unlink_ok (h : fs.unlink p = .ok fs') :
    ∃ loc e, fs.lookupLink false p = .ok (loc, e) ∧ e.isDirectory = false ∧
      fs' = fs.erase loc := by
  unfold unlink at h
  split at h
  · contradiction
  · rename_i loc e hlookup
    split at h
    · contradiction
    split at h
    · contradiction
    rename_i hfile
    exact ⟨loc, e, hlookup, by simpa using hfile, (Except.ok.inj h).symm⟩

theorem unlink_eq_notFound_iff : fs.unlink p = .error .notFound ↔ Absent fs p := by
  unfold unlink Absent
  cases fs.lookupLink false p with
  | error e => simp
  | ok found =>
      obtain ⟨loc, e⟩ := found
      simp only [reduceCtorEq, iff_false]
      split
      · simp
      · split <;> simp

end FileSystem

namespace Socket

open FileSystem

variable {plugin : String} {fs fs' : FileSystem} {sockets : List Path}

/-- The entries at several paths are removed one after the other, where nothing is to be removed
at a path that names nothing. -/
inductive Removes : FileSystem → List Path → FileSystem → Prop
  | done {fs : FileSystem} : Removes fs [] fs
  | removed {fs mid fs' : FileSystem} {socket : Path} {rest : List Path}
      (h : fs.unlink socket = .ok mid) (later : Removes mid rest fs') :
      Removes fs (socket :: rest) fs'
  | missing {fs fs' : FileSystem} {socket : Path} {rest : List Path}
      (h : fs.unlink socket = .error .notFound) (later : Removes fs rest fs') :
      Removes fs (socket :: rest) fs'

theorem removeAll_eq_ok_iff :
    removeAll plugin fs sockets = (fs', .ok ()) ↔ Removes fs sockets fs' := by
  constructor
  · intro h
    induction sockets generalizing fs with
    | nil =>
        cases h
        exact .done
    | cons socket rest ih =>
        simp only [removeAll] at h
        split at h
        · rename_i mid hunlink
          exact .removed hunlink (ih h)
        · rename_i hunlink
          exact .missing hunlink (ih h)
        · simp at h
  · intro h
    induction h with
    | done => rfl
    | removed hunlink later ih => simp only [removeAll, hunlink, ih]
    | missing hunlink later ih => simp only [removeAll, hunlink, ih]

theorem Removes.grows (h : Removes fs sockets fs') : Grows fs' fs := by
  induction h with
  | done => exact .refl _
  | @removed fs mid fs' socket rest hunlink hlater ih =>
      obtain ⟨loc, e, -, -, rfl⟩ := unlink_ok hunlink
      exact ih.trans (grows_erase fs loc)
  | missing hunlink hlater ih => exact ih

/-- What was removed at one path does not come back with what is removed at the others. -/
theorem Removes.absent (h : Removes fs sockets fs') : ∀ p ∈ sockets, Absent fs' p := by
  induction h with
  | done => simp
  | removed hunlink hlater ih =>
      obtain ⟨loc, e, hlookup, -, rfl⟩ := unlink_ok hunlink
      obtain ⟨asks, harrive⟩ := arrive_of_lookupLink hlookup
      exact List.forall_mem_cons.mpr ⟨(absent_erase harrive).of_grows hlater.grows, ih⟩
  | missing hunlink hlater ih =>
      have hnothing := unlink_eq_notFound_iff.mp hunlink
      exact List.forall_mem_cons.mpr ⟨hnothing.of_grows hlater.grows, ih⟩

/-- After a successful removal there is nothing at any of the paths, and no entry is new. -/
theorem absent_of_removeAll (h : removeAll plugin fs sockets = (fs', .ok ())) :
    Grows fs' fs ∧ ∀ p ∈ sockets, Absent fs' p := by
  have hremoves := removeAll_eq_ok_iff.mp h
  exact ⟨hremoves.grows, hremoves.absent⟩

/-- An entry remains unless it is no directory and one of the paths led to it. -/
theorem Removes.kept_or (h : Removes fs sockets fs') {loc : Location} {e : FileSystem.Entry}
    (there : fs.get? loc = some e) :
    fs'.get? loc = some e ∨
      e.isDirectory = false ∧ ∃ p ∈ sockets, fs.lookupLink false p = .ok (loc, e) := by
  induction h with
  | done => exact .inl there
  | @removed fs mid fs' socket rest hunlink hlater ih =>
      obtain ⟨gone, e', hlookup, hfile, rfl⟩ := unlink_ok hunlink
      by_cases heq : loc = gone
      · subst heq
        have hsame := holds_of_lookupLink hlookup
        rw [there] at hsame
        cases hsame
        exact .inr ⟨hfile, socket, List.mem_cons_self, hlookup⟩
      · rcases ih ((get?_erase_of_ne fs heq).trans there) with hkept | ⟨hfile', p, hp, hfound⟩
        · exact .inl hkept
        · -- a path that led to the entry after a removal did so before it
          have hbefore := (grows_erase fs gone).lookupLink hfound
          exact .inr ⟨hfile', p, List.mem_cons_of_mem _ hp, hbefore⟩
  | missing hunlink hlater ih =>
      rcases ih there with hkept | ⟨hfile, p, hp, hfound⟩
      · exact .inl hkept
      · exact .inr ⟨hfile, p, List.mem_cons_of_mem _ hp, hfound⟩

/-- A removal fails at the first path whose entry cannot be removed. -/
theorem removes_of_failure {r : LifecycleReport}
    (h : removeAll plugin fs sockets = (fs', .error r)) :
    ∃ before socket later cause, sockets = before ++ socket :: later ∧ Removes fs before fs' ∧
      fs'.unlink socket = .error cause ∧ cause ≠ .notFound ∧
      r = cleanupReport plugin socket cause := by
  induction sockets generalizing fs with
  | nil => cases h
  | cons socket rest ih =>
      simp only [removeAll] at h
      split at h
      · rename_i mid hunlink
        obtain ⟨before, failing, later, cause, rfl, hbefore, hfails⟩ := ih h
        exact ⟨socket :: before, failing, later, cause, rfl, .removed hunlink hbefore, hfails⟩
      · rename_i hunlink
        obtain ⟨before, failing, later, cause, rfl, hbefore, hfails⟩ := ih h
        exact ⟨socket :: before, failing, later, cause, rfl, .missing hunlink hbefore, hfails⟩
      · rename_i cause hcause hunlink
        cases h
        exact ⟨[], socket, rest, cause, rfl, .done, hunlink, hcause, rfl⟩

theorem cause_of_removeAll {r : LifecycleReport}
    (h : removeAll plugin fs sockets = (fs', .error r)) : r.cause.cause = .cleanup := by
  obtain ⟨before, socket, later, cause, -, -, -, -, rfl⟩ := removes_of_failure h
  rfl

/-- Where nothing is, removing changes nothing. -/
theorem removeAll_of_absent (h : ∀ p ∈ sockets, Absent fs p) :
    removeAll plugin fs sockets = (fs, .ok ()) := by
  induction sockets with
  | nil => rfl
  | cons socket rest ih =>
      have hunlink := unlink_eq_notFound_iff.mpr (h socket List.mem_cons_self)
      simp only [removeAll, hunlink]
      exact ih fun p hp => h p (List.mem_cons_of_mem _ hp)

/-- What successful preparing has done last: it has removed what was at the sockets it kept. -/
theorem removeAll_of_prepare (h : (prepare plugin fs sockets).outcome = .ok ()) :
    ∃ mid placed, placeDirectories fs sockets = (mid, .ok placed) ∧
      (prepare plugin fs sockets).sockets = firstOfEach [] placed ∧
      removeAll plugin mid (firstOfEach [] placed) =
        ((prepare plugin fs sockets).files, .ok ()) := by
  unfold prepare at h ⊢
  split at h
  · contradiction
  · rename_i mid placed hplaced
    cases hkept : firstOfEach [] placed with
    | nil => simp [hkept] at h
    | cons first rest =>
        simp only [hkept] at h ⊢
        exact ⟨mid, placed, hplaced, hkept.symm, by rw [hkept]; exact Prod.ext rfl h⟩

theorem absent_of_prepare (h : (prepare plugin fs sockets).outcome = .ok ()) :
    ∀ p ∈ (prepare plugin fs sockets).sockets, Absent (prepare plugin fs sockets).files p := by
  obtain ⟨mid, placed, -, hkept, hremoved⟩ := removeAll_of_prepare h
  rw [hkept]
  exact (absent_of_removeAll hremoved).2

end Socket

end PluginKit
