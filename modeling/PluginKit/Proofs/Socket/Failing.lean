import PluginKit.Proofs.Socket.Aliases

/-!
# How preparing fails

Preparing fails at the first directory that cannot be placed, or at the first kept socket whose entry
cannot be removed. What comes after the failure is as it was.
-/

namespace PluginKit

namespace Socket

open FileSystem

variable {plugin : String} {fs made fs' : FileSystem} {sockets : List Path}

/-- All that removing takes was at one of the sockets, in the directory of that socket. -/
theorem Removes.kept_elsewhere {later : List Path} (htree : made.IsTree)
    (h : Removes made sockets fs')
    (hapart : ∀ p ∈ sockets, ∀ q ∈ later, locationOf made p ≠ locationOf made q) {q : Path}
    (hq : q ∈ later) {loc : Location} {e : FileSystem.Entry}
    (hfound : made.lookupLink false q = .ok (loc, e)) : fs'.get? loc = some e := by
  rcases h.kept_or (holds_of_lookupLink hfound) with hkept | ⟨hfile, p, hp, hother⟩
  · exact hkept
  · -- one entry lies in one directory only
    obtain ⟨d, hdir, -⟩ := lookup_directory_of_file htree hfound hfile
    obtain ⟨d', hdir', -⟩ := lookup_directory_of_file htree hother hfile
    have hsame := (locationOf_eq_some hdir').trans (locationOf_eq_some hdir).symm
    exact absurd hsame (hapart p hp q hq)

/-- Only directories are added, and what was there is gone only if it was removed. -/
theorem prepare_added (plugin : String) (fs : FileSystem) (sockets : List Path) :
    ∃ made, AddsDirectories directoryMode fs made ∧ Grows (prepare plugin fs sockets).files made := by
  refine ⟨_, addsDirectories_placeDirectories fs sockets, ?_⟩
  by_cases hnone : sockets = []
  · subst hnone
    exact .refl fs
  rcases hplaced : placeDirectories fs sockets with ⟨mid, ⟨dir, cause⟩ | placed⟩
  · rw [prepare_of_misplaced hplaced plugin]
    exact .refl mid
  · rw [prepare_of_placed hplaced hnone plugin]
    rcases hremoved : removeAll plugin mid (firstOfEach [] placed) with ⟨fs', r | ⟨⟩⟩
    · obtain ⟨before, socket, later, cause, -, hbefore, -⟩ := removes_of_failure hremoved
      exact hbefore.grows
    · exact (removeAll_eq_ok_iff.mp hremoved).grows

theorem prepare_emptySockets {report : LifecycleReport}
    (h : (prepare plugin fs sockets).outcome = .error report)
    (hcause : report.cause.cause = .emptySockets) : sockets = [] := by
  by_cases hnone : sockets = []
  · exact hnone
  exfalso
  rcases hplaced : placeDirectories fs sockets with ⟨mid, ⟨dir, cause⟩ | placed⟩
  · rw [prepare_of_misplaced hplaced plugin] at h
    cases h
    cases hcause
  · rw [prepare_of_placed hplaced hnone plugin] at h
    have hcleanup := cause_of_removeAll (Prod.ext rfl h)
    rw [hcause] at hcleanup
    cases hcleanup

/-- Where not all directories can be placed, preparing fails at the first that cannot. -/
theorem prepare_misplaced (h : ¬ ∃ made, Places fs sockets made) (plugin : String) :
    ∃ before socket later mid cause, sockets = before ++ socket :: later ∧
      Places fs before mid ∧
      Misplaces mid socket.directory (prepare plugin fs sockets).files cause ∧
      (prepare plugin fs sockets).sockets = sockets ∧
      (prepare plugin fs sockets).outcome =
        .error ⟨⟨plugin, .socketDirectory socket.directory⟩, [], [cause.message]⟩ := by
  rcases hplaced : placeDirectories fs sockets with ⟨fs', ⟨dir, cause⟩ | placed⟩
  · obtain ⟨before, socket, later, mid, hsockets, hbefore, hfails, rfl⟩ :=
      misplaced_of_placeDirectories hplaced
    rw [prepare_of_misplaced hplaced plugin]
    exact ⟨before, socket, later, mid, cause, hsockets, hbefore, hfails, rfl, rfl⟩
  · exact absurd ⟨fs', places_of_placeDirectories hplaced⟩ h

/-- Where all directories are placed and not every kept socket can be removed, preparing fails at
the first that cannot. -/
theorem prepare_unremoved (h : Places fs sockets made)
    (hfails : ¬ ∃ fs', Removes made (prepare plugin fs sockets).sockets fs') :
    ∃ before socket later cause,
      (prepare plugin fs sockets).sockets = before ++ socket :: later ∧
        Removes made before (prepare plugin fs sockets).files ∧
        (prepare plugin fs sockets).files.unlink socket = .error cause ∧ cause ≠ .notFound ∧
        (prepare plugin fs sockets).outcome = .error (cleanupReport plugin socket cause) := by
  obtain ⟨placed, hplaced⟩ := h.placeDirectories
  have hsome : sockets ≠ [] := by
    rintro rfl
    exact hfails ⟨made, .done⟩
  rw [prepare_of_placed hplaced hsome plugin] at hfails ⊢
  rcases hremoved : removeAll plugin made (firstOfEach [] placed) with ⟨fs', r | ⟨⟩⟩
  · obtain ⟨before, socket, later, cause, hkept, hbefore, hunlink, hcause, rfl⟩ :=
      removes_of_failure hremoved
    exact ⟨before, socket, later, cause, hkept, hbefore, hunlink, hcause, rfl⟩
  · exact absurd ⟨fs', removeAll_eq_ok_iff.mp hremoved⟩ hfails

/-- Preparing reports missing sockets exactly where there are none. When some directory cannot be
placed it fails at the first such one, keeps all sockets and has only added directories. Otherwise,
when some kept socket cannot be removed, it fails at the first such one: those before it are gone,
and what was at the others is there. All that is ever added are directories with the bits that the
umask leaves. -/
theorem prepare_fails_at_first (plugin : String) (sockets : List Path) (htree : fs.IsTree) :
    let r := prepare plugin fs sockets
    ((∃ report, r.outcome = .error report ∧ report.cause.cause = .emptySockets) ↔
        sockets = []) ∧
      ((¬ ∃ made, Places fs sockets made) →
        r.sockets = sockets ∧ AddsDirectories directoryMode fs r.files ∧
          ∃ before socket later mid cause, sockets = before ++ socket :: later ∧
            Places fs before mid ∧ Misplaces mid socket.directory r.files cause ∧
            r.outcome =
              .error ⟨⟨plugin, .socketDirectory socket.directory⟩, [], [cause.message]⟩) ∧
      (∀ made, Places fs sockets made → (¬ ∃ fs', Removes made r.sockets fs') →
        r.sockets = (sockets.zipIdx.filter (comesFirst (locationOf made) sockets)).map Prod.fst ∧
          ∃ before socket later cause, r.sockets = before ++ socket :: later ∧
            Removes made before r.files ∧ r.files.unlink socket = .error cause ∧
            cause ≠ .notFound ∧ r.outcome = .error (cleanupReport plugin socket cause) ∧
            (∀ p ∈ before, Absent r.files p) ∧
            ∀ p ∈ socket :: later, ∀ loc e, made.lookupLink false p = .ok (loc, e) →
              r.files.get? loc = some e) ∧
      ∀ loc e, fs.get? loc = none → r.files.get? loc = some e → e.kind = .directory ∧
        ∀ i, e.mode.testBit i = (directoryMode.testBit i && !fs.umask.testBit i) := by
  intro r
  refine ⟨?empty, ?misplaced, ?unremoved, ?added⟩
  case empty =>
    constructor
    · rintro ⟨report, houtcome, hcause⟩
      exact prepare_emptySockets houtcome hcause
    · rintro rfl
      exact ⟨_, rfl, rfl⟩
  case misplaced =>
    intro hfails
    obtain ⟨before, socket, later, mid, cause, hlist, hbefore, hmisplaces, hsockets, houtcome⟩ :=
      prepare_misplaced hfails plugin
    have hadds : AddsDirectories directoryMode fs r.files :=
      hbefore.addsDirectories.trans hmisplaces.addsDirectories
    exact ⟨hsockets, hadds, before, socket, later, mid, cause, hlist, hbefore, hmisplaces, houtcome⟩
  case unremoved =>
    intro made hplaces hfails
    obtain ⟨before, socket, later, cause, hkept, hbefore, hunlink, hcause, houtcome⟩ :=
      prepare_unremoved hplaces hfails
    refine ⟨hplaces.sockets_eq plugin, before, socket, later, cause, hkept, hbefore, hunlink,
      hcause, houtcome, ?absent, ?kept⟩
    case absent =>
      have hremoved : removeAll plugin made before = (r.files, .ok ()) :=
        removeAll_eq_ok_iff.mpr hbefore
      exact (absent_of_removeAll hremoved).2
    case kept =>
      intro p hp loc e hfound
      have hapart := hplaces.apart plugin
      rw [hkept, List.pairwise_append] at hapart
      exact hbefore.kept_elsewhere (hplaces.isTree htree) hapart.2.2 hp hfound
  case added =>
    intro loc e free there
    obtain ⟨made, hadds, hgrows⟩ := prepare_added plugin fs sockets
    obtain rfl := hadds.added free (hgrows.entries there)
    exact ⟨rfl, testBit_granted fs (by decide)⟩

/-- A directory with a file in it, and one with a directory, both named like a socket. -/
def obstructed : FileSystem :=
  (((fresh.put ["one".toList, "work".toList, "tmp".toList] ⟨.directory, 0o755⟩).put
    ["cpu.sock".toList, "one".toList, "work".toList, "tmp".toList] ⟨.file [], 0o644⟩).put
    ["two".toList, "work".toList, "tmp".toList] ⟨.directory, 0o755⟩).put
    ["cpu.sock".toList, "two".toList, "work".toList, "tmp".toList] ⟨.directory, 0o755⟩

def obstructedSockets : List Path := paths (["one", "two", "new"].map Path.ofString) "cpu"

theorem prepare_fails_at_first_obstructed :
    obstructed.IsTree ∧ ∃ made, Places obstructed obstructedSockets made ∧
      ∃ before socket later cause, obstructedSockets = before ++ socket :: later ∧
        (prepare "cpu" obstructed obstructedSockets).outcome =
          .error (cleanupReport "cpu" socket cause) ∧
        ∀ p ∈ before, Absent (prepare "cpu" obstructed obstructedSockets).files p := by
  have htree : obstructed.IsTree := by decide +kernel
  have hplaced : (placeDirectories obstructed obstructedSockets).2.isOk = true := by
    decide +kernel
  have hplaces := places_of_isOk hplaced
  have hsockets : (prepare "cpu" obstructed obstructedSockets).sockets = obstructedSockets := by
    decide +kernel
  have hfails : ¬ ∃ fs', Removes (placeDirectories obstructed obstructedSockets).1
      (prepare "cpu" obstructed obstructedSockets).sockets fs' := by
    rintro ⟨fs', hremoves⟩
    rw [hsockets] at hremoves
    have hstuck : (removeAll "cpu" (placeDirectories obstructed obstructedSockets).1
        obstructedSockets).2.isOk = false := by decide +kernel
    rw [removeAll_eq_ok_iff.mpr hremoves] at hstuck
    cases hstuck
  obtain ⟨-, before, socket, later, cause, hkept, -, -, -, houtcome, habsent, -⟩ :=
    (prepare_fails_at_first "cpu" obstructedSockets htree).2.2.1 _ hplaces hfails
  exact ⟨htree, _, hplaces, before, socket, later, cause, hsockets ▸ hkept, houtcome, habsent⟩

end Socket

end PluginKit
