import PluginKit.Proofs.FileSystem.Making
import PluginKit.Proofs.Socket.Removal

/-!
# Placing the directories of sockets

Directories that are made later do not change where those made before lie. Once all are there and
the sockets are gone, preparing has nothing left to do.
-/

namespace PluginKit

namespace Socket

open FileSystem

variable {plugin : String} {fs mid made fs' : FileSystem} {dir : Path} {sockets : List Path}
  {placed : List (Path × Location)} {loc : Location} {cause : IoError}

/-- The directories of sockets are made one after the other, and each can be read once it was
made. -/
inductive Places : FileSystem → List Path → FileSystem → Prop
  | done {fs : FileSystem} : Places fs [] fs
  | placed {fs mid fs' : FileSystem} {socket : Path} {rest : List Path}
      {found : Location × FileSystem.Entry}
      (made : fs.makeDirectories directoryMode socket.directory = (mid, .ok ()))
      (read : mid.lookup socket.directory = .ok found) (later : Places mid rest fs') :
      Places fs (socket :: rest) fs'

/-- A directory cannot be made, or cannot be read although it was made. -/
inductive Misplaces (fs : FileSystem) (dir : Path) (fs' : FileSystem) (cause : IoError) : Prop
  | unmade (failed : fs.makeDirectories directoryMode dir = (fs', .error cause))
  | unread (made : fs.makeDirectories directoryMode dir = (fs', .ok ()))
      (failed : fs'.lookup dir = .error cause)

theorem placeDirectory_eq_ok_iff :
    placeDirectory fs dir = (mid, .ok loc) ↔
      fs.makeDirectories directoryMode dir = (mid, .ok ()) ∧
        ∃ e, mid.lookup dir = .ok (loc, e) := by
  constructor
  · intro h
    unfold placeDirectory at h
    split at h
    · cases h
    · rename_i made hmade
      cases hlookup : made.lookup dir with
      | error cause => simp [hlookup, Except.map] at h
      | ok found =>
          simp only [hlookup, Except.map, Prod.mk.injEq, Except.ok.injEq] at h
          obtain ⟨rfl, rfl⟩ := h
          exact ⟨hmade, found.2, hlookup⟩
  · rintro ⟨hmade, e, hlookup⟩
    simp [placeDirectory, hmade, hlookup, Except.map]

theorem placeDirectory_eq_error_iff :
    placeDirectory fs dir = (mid, .error cause) ↔ Misplaces fs dir mid cause := by
  constructor
  · intro h
    unfold placeDirectory at h
    split at h
    · rename_i hmade
      cases h
      exact .unmade hmade
    · rename_i made hmade
      cases hlookup : made.lookup dir with
      | error cause =>
          simp only [hlookup, Except.map, Prod.mk.injEq, Except.error.injEq] at h
          obtain ⟨rfl, rfl⟩ := h
          exact .unread hmade hlookup
      | ok found => simp [hlookup, Except.map] at h
  · rintro (hfailed | ⟨hmade, hfailed⟩)
    · simp [placeDirectory, hfailed]
    · simp [placeDirectory, hmade, hfailed, Except.map]

theorem places_of_placeDirectories (h : placeDirectories fs sockets = (made, .ok placed)) :
    Places fs sockets made := by
  induction sockets generalizing fs placed with
  | nil =>
      cases h
      exact .done
  | cons socket rest ih =>
      rw [placeDirectories] at h
      split at h
      · cases h
      · rename_i first loc hplace
        split at h
        · cases h
        · rename_i hrest
          cases h
          obtain ⟨hmade, e, hlookup⟩ := placeDirectory_eq_ok_iff.mp hplace
          exact .placed hmade hlookup (ih hrest)

theorem places_of_isOk (h : (placeDirectories fs sockets).2.isOk = true) :
    Places fs sockets (placeDirectories fs sockets).1 := by
  cases hplaced : placeDirectories fs sockets with
  | mk made answer =>
      rw [hplaced] at h
      cases answer with
      | error failed => contradiction
      | ok placed => exact places_of_placeDirectories hplaced

theorem Places.placeDirectories (h : Places fs sockets made) :
    ∃ placed, placeDirectories fs sockets = (made, .ok placed) := by
  induction h with
  | done => exact ⟨[], rfl⟩
  | @placed fs mid made socket rest found hmade hread hlater ih =>
      obtain ⟨placed, hrest⟩ := ih
      have hplace : placeDirectory fs socket.directory = (mid, .ok found.1) :=
        placeDirectory_eq_ok_iff.mpr ⟨hmade, found.2, hread⟩
      exact ⟨(socket, found.1) :: placed, by simp [Socket.placeDirectories, hplace, hrest]⟩

/-- Placing fails at the first directory that cannot be placed. -/
theorem misplaced_of_placeDirectories
    (h : Socket.placeDirectories fs sockets = (fs', .error (dir, cause))) :
    ∃ before socket later mid, sockets = before ++ socket :: later ∧ Places fs before mid ∧
      Misplaces mid socket.directory fs' cause ∧ dir = socket.directory := by
  induction sockets generalizing fs with
  | nil => cases h
  | cons socket rest ih =>
      rw [Socket.placeDirectories] at h
      split at h
      · rename_i hplace
        cases h
        exact ⟨[], socket, rest, fs, rfl, .done, placeDirectory_eq_error_iff.mp hplace, rfl⟩
      · rename_i first loc hplace
        split at h
        · rename_i failed hrest
          cases h
          obtain ⟨before, failing, later, mid, rfl, hbefore, hfails⟩ := ih hrest
          obtain ⟨hmade, e, hlookup⟩ := placeDirectory_eq_ok_iff.mp hplace
          exact ⟨socket :: before, failing, later, mid, rfl, .placed hmade hlookup hbefore, hfails⟩
        · cases h

theorem Misplaces.addsDirectories (h : Misplaces fs dir fs' cause) :
    AddsDirectories directoryMode fs fs' := by
  have hadds := addsDirectories_makeDirectories fs directoryMode dir
  cases h with
  | unmade hfailed => rwa [hfailed] at hadds
  | unread hmade => rwa [hmade] at hadds

theorem Places.addsDirectories (h : Places fs sockets made) :
    AddsDirectories directoryMode fs made := by
  induction h with
  | done => exact .refl _ _
  | @placed fs mid made socket rest found hmade hread hlater ih =>
      have hfirst := addsDirectories_makeDirectories fs directoryMode socket.directory
      rw [hmade] at hfirst
      exact hfirst.trans ih

theorem addsDirectories_placeDirectories (fs : FileSystem) (sockets : List Path) :
    AddsDirectories directoryMode fs (Socket.placeDirectories fs sockets).1 := by
  rcases hplaced : Socket.placeDirectories fs sockets with ⟨fs', ⟨dir, cause⟩ | placed⟩
  · obtain ⟨before, socket, later, mid, -, hbefore, hfails, -⟩ :=
      misplaced_of_placeDirectories hplaced
    exact hbefore.addsDirectories.trans hfails.addsDirectories
  · exact (places_of_placeDirectories hplaced).addsDirectories

theorem Places.isTree (h : Places fs sockets made) (htree : fs.IsTree) : made.IsTree := by
  induction h with
  | done => exact htree
  | @placed fs mid made socket rest found hmade hread hlater ih =>
      have hfirst : (fs.makeDirectories directoryMode socket.directory).1.IsTree :=
        isTree_makeDirectories htree socket.directory
      rw [hmade] at hfirst
      exact ih hfirst

theorem directory_named (p : Path) : p.directory.chars ≠ [] := by
  unfold Path.directory
  split
  · simp [Path.here]
  · split
    · simp [Path.here]
    · assumption

theorem Places.isDirectory (h : Places fs sockets made) :
    ∀ p ∈ sockets, made.isDirectory p.directory = true := by
  induction h with
  | done => simp
  | @placed fs mid made socket rest found hmade hread hlater ih =>
      intro p hp
      rcases List.mem_cons.mp hp with rfl | hrest
      · have hthere := isDirectory_of_makeDirectories (directory_named p) hmade
        exact hlater.addsDirectories.grows.isDirectory hthere
      · exact ih p hrest

/-- Each directory still lies where it was found when it was made. -/
theorem lookup_of_placeDirectories (h : Socket.placeDirectories fs sockets = (made, .ok placed)) :
    ∀ item ∈ placed, ∃ e, made.lookup item.1.directory = .ok (item.2, e) := by
  induction sockets generalizing fs placed with
  | nil =>
      cases h
      nofun
  | cons socket rest ih =>
      rw [Socket.placeDirectories] at h
      split at h
      · cases h
      · rename_i first loc hplace
        split at h
        · cases h
        · rename_i hrest
          cases h
          obtain ⟨-, e, hlookup⟩ := placeDirectory_eq_ok_iff.mp hplace
          have hlater := (places_of_placeDirectories hrest).addsDirectories.grows
          intro item hitem
          rcases List.mem_cons.mp hitem with rfl | hmem
          · exact ⟨e, hlater.lookup hlookup⟩
          · exact ih hrest item hmem

/-! ## Preparing -/

theorem prepare_of_misplaced
    (h : Socket.placeDirectories fs sockets = (fs', .error (dir, cause))) (plugin : String) :
    prepare plugin fs sockets =
      ⟨fs', sockets, .error ⟨⟨plugin, .socketDirectory dir⟩, [], [cause.message]⟩⟩ := by
  unfold prepare
  rw [h]

/-- When all directories are placed, preparing comes down to removing what lies at the first socket
of each location. -/
theorem prepare_of_placed (hplaced : Socket.placeDirectories fs sockets = (made, .ok placed))
    (hsome : sockets ≠ []) (plugin : String) :
    prepare plugin fs sockets =
      ⟨(removeAll plugin made (firstOfEach [] placed)).1, firstOfEach [] placed,
        (removeAll plugin made (firstOfEach [] placed)).2⟩ := by
  have hkept : firstOfEach [] placed ≠ [] := by
    rw [ne_eq, firstOfEach_eq_nil_iff]
    rintro rfl
    exact hsome (map_fst_of_placeDirectories hplaced).symm
  unfold prepare
  rw [hplaced]
  cases hcases : firstOfEach [] placed with
  | nil => contradiction
  | cons first rest => simp only [hcases]

/-! ## Preparing again -/

theorem placeDirectories_of_lookup
    (h : ∀ item ∈ placed, ∃ e, fs.lookup item.1.directory = .ok (item.2, e) ∧
      e.isDirectory = true) : placeDirectories fs (placed.map Prod.fst) = (fs, .ok placed) := by
  induction placed with
  | nil => rfl
  | cons item rest ih =>
      obtain ⟨e, hlookup, hdirectory⟩ := h item List.mem_cons_self
      have hmade : fs.makeDirectories directoryMode item.1.directory = (fs, .ok ()) :=
        makeDirectories_of_directory hlookup hdirectory
      have hrest := ih fun other hother => h other (List.mem_cons_of_mem _ hother)
      simp [placeDirectories, placeDirectory, hmade, hlookup, hrest, Except.map]

theorem firstOfEach_of_nodup {seen : List Location} (hnodup : (placed.map Prod.snd).Nodup)
    (hfresh : ∀ item ∈ placed, item.2 ∉ seen) :
    firstOfEach seen placed = placed.map Prod.fst := by
  induction placed generalizing seen with
  | nil => rfl
  | cons item rest ih =>
      obtain ⟨hfirst, hrest⟩ := List.nodup_cons.mp hnodup
      have hunseen := hfresh item List.mem_cons_self
      rw [firstOfEach, if_neg hunseen, List.map_cons, ih hrest]
      intro other hother hmem
      rcases List.mem_cons.mp hmem with heq | hold
      · exact hfirst (heq ▸ List.mem_map_of_mem hother)
      · exact hfresh other (List.mem_cons_of_mem _ hother) hold

/-- Sockets that were prepared are prepared again without any change, as long as their directories
are there. -/
theorem prepare_again (h : (prepare plugin fs sockets).outcome = .ok ())
    (hdirs : ∀ p ∈ (prepare plugin fs sockets).sockets,
      (prepare plugin fs sockets).files.isDirectory p.directory = true) (again : String) :
    prepare again (prepare plugin fs sockets).files (prepare plugin fs sockets).sockets =
      ⟨(prepare plugin fs sockets).files, (prepare plugin fs sockets).sockets, .ok ()⟩ := by
  obtain ⟨made, placed, hplaced, hkept, hremoved⟩ := removeAll_of_prepare h
  obtain ⟨kept, hfst, hsublist, hnodup, -⟩ := firstOfEach_spec [] placed
  have hsome : firstOfEach [] placed ≠ [] := by
    obtain ⟨located, -, hne, hsockets⟩ := prepare_located h
    rw [← hkept, ← hsockets]
    simpa using hne
  rw [hkept] at hdirs ⊢
  generalize (prepare plugin fs sockets).files = files at hdirs hremoved ⊢
  obtain ⟨hgrows, habsent⟩ := absent_of_removeAll hremoved
  have hlookup : ∀ item ∈ kept, ∃ e, files.lookup item.1.directory = .ok (item.2, e) ∧
      e.isDirectory = true := by
    intro item hitem
    have hdir := hdirs item.1 (hfst ▸ List.mem_map_of_mem hitem)
    obtain ⟨loc, e, hfound, hproper⟩ := isDirectory_iff.mp hdir
    -- what was removed has not moved the directory
    obtain ⟨e', hbefore⟩ := lookup_of_placeDirectories hplaced item (hsublist.subset hitem)
    rw [hgrows.lookup hfound] at hbefore
    cases hbefore
    exact ⟨e, hfound, hproper⟩
  have hplaced' := placeDirectories_of_lookup hlookup
  have hfirst : firstOfEach [] kept = kept.map Prod.fst :=
    firstOfEach_of_nodup hnodup fun _ _ => List.not_mem_nil
  have hremoved' : removeAll again files (firstOfEach [] placed) = (files, .ok ()) :=
    removeAll_of_absent habsent
  rw [hfst] at hplaced' hfirst
  rw [prepare_of_placed hplaced' hsome, hfirst, hremoved']

end Socket

end PluginKit
