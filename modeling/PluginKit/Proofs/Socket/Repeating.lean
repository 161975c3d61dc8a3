import PluginKit.Proofs.FileSystem.Ways
import PluginKit.Proofs.Socket.Aliases

/-!
# Preparing twice

Sockets that were prepared can be prepared again without any change unless the first time has taken
a link away that one of their directories is reached through.
-/

namespace PluginKit

namespace Socket

open FileSystem

variable {plugin again : String} {fs made fs' : FileSystem} {sockets : List Path}

theorem places_and_removes_of_prepare (h : (prepare plugin fs sockets).outcome = .ok ()) :
    ∃ made, Places fs sockets made ∧
      Removes made (prepare plugin fs sockets).sockets (prepare plugin fs sockets).files := by
  obtain ⟨made, placed, hplaced, hkept, hremoved⟩ := removeAll_of_prepare h
  refine ⟨made, places_of_placeDirectories hplaced, ?_⟩
  rw [hkept]
  exact removeAll_eq_ok_iff.mp hremoved

/-- Directories that are added are not removed, so where nothing has changed in the end nothing was
added. -/
theorem Removes.grows_of_added (hadds : AddsDirectories directoryMode fs made)
    (hremoves : Removes made sockets fs) : Grows made fs := by
  refine ⟨hadds.grows.here.symm, fun {loc e} there => ?_⟩
  rcases hremoves.kept_or there with hkept | ⟨hfile, -⟩
  · exact hkept
  · cases hbefore : fs.get? loc with
    | none =>
        obtain rfl := hadds.added hbefore there
        cases hfile
    | some e' =>
        have hsame := hadds.grows.entries hbefore
        rw [there] at hsame
        exact hsame.symm

theorem isDirectory_of_unchanged (h : prepare plugin fs sockets = ⟨fs, sockets, .ok ()⟩) :
    ∀ p ∈ sockets, fs.isDirectory p.directory = true := by
  obtain ⟨made, hplaces, hremoves⟩ :=
    places_and_removes_of_prepare (congrArg Prepared.outcome h)
  rw [h] at hremoves
  have hgrows : Grows made fs := hremoves.grows_of_added hplaces.addsDirectories
  exact fun p hp => hgrows.isDirectory (hplaces.isDirectory p hp)

/-- The directories are still there exactly if none of what was removed was on the way to one. -/
theorem directories_kept_iff (hdirs : ∀ p ∈ sockets, made.isDirectory p.directory = true)
    (hgrows : Grows fs' made) :
    (∀ p ∈ sockets, fs'.isDirectory p.directory = true) ↔
      ∀ loc, made.get? loc ≠ none → fs'.get? loc = none →
        ∀ p ∈ sockets, ¬ LeadsThrough made p.directory loc := by
  constructor
  · intro hkept loc _ free p hp
    obtain ⟨place, d, hlookup, -⟩ := isDirectory_iff.mp (hkept p hp)
    exact not_leadsThrough_of_lookup hgrows hlookup free
  · intro hclear p hp
    have hsame := lookup_of_not_leadsThrough hgrows fun loc there free => hclear loc there free p hp
    unfold FileSystem.isDirectory
    rw [hsame]
    exact hdirs p hp

/-- Successful preparing leaves nothing at the sockets it keeps, whose directories were all there
before it removed anything. They still are exactly if nothing that it removed, which can only be a
link, was on the way to one of them, and exactly then preparing again changes nothing. -/
theorem prepare_again_iff (h : (prepare plugin fs sockets).outcome = .ok ()) :
    let r := prepare plugin fs sockets
    ∃ made, Places fs sockets made ∧ Removes made r.sockets r.files ∧
      (∀ p ∈ r.sockets, made.isDirectory p.directory = true ∧ Absent r.files p) ∧
      ((∀ p ∈ r.sockets, r.files.isDirectory p.directory = true) ↔
        ∀ loc, made.get? loc ≠ none → r.files.get? loc = none →
          ∀ p ∈ r.sockets, ¬ LeadsThrough made p.directory loc) ∧
      (∀ loc e, made.get? loc = some e → r.files.get? loc = none →
        ∀ p ∈ r.sockets, LeadsThrough made p.directory loc → e.isLink = true) ∧
      ∀ again, prepare again r.files r.sockets = r ↔
        ∀ p ∈ r.sockets, r.files.isDirectory p.directory = true := by
  intro r
  obtain ⟨made, hplaces, hremoves⟩ := places_and_removes_of_prepare h
  have hdirs : ∀ p ∈ r.sockets, made.isDirectory p.directory = true :=
    fun p hp => hplaces.isDirectory p ((prepare_sublist plugin fs sockets).subset hp)
  refine ⟨made, hplaces, hremoves, ?ready, directories_kept_iff hdirs hremoves.grows, ?links,
    fun again => ?repeats⟩
  case ready => exact fun p hp => ⟨hdirs p hp, absent_of_prepare h p hp⟩
  case links =>
    intro loc e there gone p hp hleads
    rcases hremoves.kept_or there with hkept | ⟨hfile, -⟩
    · rw [gone] at hkept
      contradiction
    · exact hleads.isLink (hdirs p hp) there hfile
  case repeats =>
    have hr : r = ⟨r.files, r.sockets, .ok ()⟩ := by rw [← h]
    constructor
    · intro hsame
      exact isDirectory_of_unchanged (hsame.trans hr)
    · intro hthere
      rw [prepare_again h hthere again]
      exact hr.symm

instance (outcome : LifecycleOutcome) : Decidable (outcome = .ok ()) :=
  decidable_of_iff (outcome.isOk = true) (by cases outcome <;> simp [Except.isOk, Except.toBool])

theorem prepare_again_iff_aliased :
    (prepare "cpu" aliased aliasedSockets).outcome = .ok () ∧
      ∀ again, prepare again (prepare "cpu" aliased aliasedSockets).files
        (prepare "cpu" aliased aliasedSockets).sockets = prepare "cpu" aliased aliasedSockets := by
  have hok : (prepare "cpu" aliased aliasedSockets).outcome = .ok () := by decide +kernel
  obtain ⟨made, -, -, -, -, -, hagain⟩ := prepare_again_iff hok
  exact ⟨hok, fun again => (hagain again).mpr (by decide +kernel)⟩

/-- A directory with a link to it that is named like a socket. -/
def entangled : FileSystem :=
  (fresh.put ["real".toList, "work".toList, "tmp".toList] ⟨.directory, 0o755⟩).put
    ["cpu.sock".toList, "work".toList, "tmp".toList] ⟨.link (.ofString "real"), 0o777⟩

def entangledSockets : List Path := paths ([".", "cpu.sock"].map Path.ofString) "cpu"

/-- The link is removed as a stale socket. The second socket is left without its directory, so that
it cannot be bound; the next time that directory is made, and is in the way of the first socket. -/
theorem prepare_not_again_entangled :
    let r := prepare "cpu" entangled entangledSockets
    r.outcome = .ok () ∧ r.sockets = entangledSockets ∧
      (∃ p ∈ r.sockets, r.files.isDirectory p.directory = false ∧
        (r.files.bindSocket p (some 0)).isOk = false) ∧
      (prepare "cpu" r.files r.sockets).outcome ≠ .ok () := by
  intro r
  decide +kernel

end Socket

end PluginKit
