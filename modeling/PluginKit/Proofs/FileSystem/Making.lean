import PluginKit.Proofs.FileSystem.Directory

/-!
# Making directories

Making a directory, and those above it, adds directories with the bits that are asked for and
changes nothing else. When it succeeds the directory is there, and one that was there before is left
alone.
-/

namespace PluginKit

namespace FileSystem

variable {fs mid fs' : FileSystem} {p : Path} {mode : Nat}

/-- All that `fs'` has and `fs` has not are directories, as they are made. -/
structure AddsDirectories (mode : Nat) (fs fs' : FileSystem) : Prop where
  grows : Grows fs fs'
  umask : fs'.umask = fs.umask
  added : ∀ {loc e}, fs.get? loc = none → fs'.get? loc = some e →
    e = ⟨.directory, fs.granted mode⟩

theorem AddsDirectories.refl (mode : Nat) (fs : FileSystem) : AddsDirectories mode fs fs :=
  ⟨.refl fs, rfl, fun free there => by simp [free] at there⟩

theorem AddsDirectories.trans (h : AddsDirectories mode fs mid)
    (h' : AddsDirectories mode mid fs') : AddsDirectories mode fs fs' := by
  refine ⟨h.grows.trans h'.grows, h'.umask.trans h.umask, fun {loc e} free there => ?_⟩
  cases hmid : mid.get? loc with
  | none =>
      have hadded := h'.added hmid there
      rwa [granted, h.umask] at hadded
  | some e' =>
      have hkept := h'.grows.entries hmid
      rw [there] at hkept
      cases hkept
      exact h.added free hmid

theorem makeDirectory_ok (h : fs.makeDirectory mode p = .ok fs') :
    ∃ dir name asks, fs.arrive false p = .ok ⟨.vacant dir name, asks⟩ ∧
      fs' = fs.put (name :: dir) ⟨.directory, fs.granted mode⟩ := by
  unfold makeDirectory at h
  split at h
  · contradiction
  · contradiction
  · rename_i dir name asks harrive
    unfold create at h
    split at h
    · exact ⟨dir, name, asks, harrive, (Except.ok.inj h).symm⟩
    · contradiction

theorem addsDirectories_makeDirectory (h : fs.makeDirectory mode p = .ok fs') :
    AddsDirectories mode fs fs' := by
  obtain ⟨dir, name, asks, harrive, rfl⟩ := makeDirectory_ok h
  refine ⟨grows_put _ (arrive_holds harrive).1, rfl, fun {loc e} free there => ?_⟩
  by_cases heq : loc = name :: dir
  · subst heq
    rw [get?_put_self] at there
    exact (Option.some.inj there).symm
  · rw [get?_put_of_ne fs _ heq, free] at there
    contradiction

theorem addsDirectories_makeDirectories (fs : FileSystem) (mode : Nat) (p : Path) :
    AddsDirectories mode fs (fs.makeDirectories mode p).1 :=
  makeDirectories_keeps (fun h hmake => h.trans (addsDirectories_makeDirectory hmake))
    (.refl mode fs) p

/-- The bits of what is made: those asked for, without those that new entries do not get. -/
theorem testBit_granted (fs : FileSystem) (hmode : mode ≤ 0o777) (i : Nat) :
    (fs.granted mode).testBit i = (mode.testBit i && !fs.umask.testBit i) := by
  have hall : (0o777 : Nat) = 2 ^ 9 - 1 := rfl
  unfold granted
  rw [hall, Nat.testBit_and, Nat.testBit_xor, Nat.testBit_and, Nat.testBit_two_pow_sub_one]
  by_cases hi : i < 9
  · simp [hi]
  · have hpow : 2 ^ 9 ≤ 2 ^ i := Nat.pow_le_pow_right (by omega) (by omega)
    have hnone : mode.testBit i = false := Nat.testBit_lt_two_pow (by omega)
    simp [hnone]

/-! ## The directory that was made -/

theorem makeDirectories_of_directory {e : Entry} {mode : Nat} (hlookup : fs.lookup p = .ok (dir, e))
    (hdirectory : e.isDirectory = true) : fs.makeDirectories mode p = (fs, .ok ()) := by
  have hthere : fs.isDirectory p = true := isDirectory_iff.mpr ⟨dir, e, hlookup, hdirectory⟩
  have hmake : fs.makeDirectory mode p = .error .alreadyExists := by
    obtain ⟨loc, found, asks, harrive⟩ :
        ∃ loc found asks, fs.arrive false p = .ok ⟨.entry loc found, asks⟩ := by
      by_cases hlink : EndsAtLink (fs.arrive false p)
      · obtain ⟨loc, goal, bits, asks, harrive⟩ := hlink
        exact ⟨loc, _, asks, harrive⟩
      · obtain ⟨asks, harrive⟩ := arrive_of_lookupLink hlookup
        exact ⟨dir, e, asks, arrive_follow hlink ▸ harrive⟩
    simp [makeDirectory, harrive]
  unfold makeDirectories
  split
  · rfl
  · generalize ancestors p.chars.length p = above
    cases above with
    | nil => simp [makeDirectoriesFrom, hmake, hthere]
    | cons parent above => simp [makeDirectoriesFrom, hmake, hthere]

theorem Grows.isDirectory (hgrows : Grows fs fs') (h : fs.isDirectory p = true) :
    fs'.isDirectory p = true := by
  obtain ⟨loc, e, hlookup, hdirectory⟩ := isDirectory_iff.mp h
  exact isDirectory_iff.mpr ⟨loc, e, hgrows.lookup hlookup, hdirectory⟩

theorem isDirectory_of_makeDirectory (h : fs.makeDirectory mode p = .ok fs') :
    fs'.isDirectory p = true := by
  obtain ⟨dir, name, asks, harrive, rfl⟩ := makeDirectory_ok h
  have hgrows := grows_put ⟨.directory, fs.granted mode⟩ (arrive_holds harrive).1
  have hfree : ¬ EndsAtLink (fs.arrive false p) := by
    rintro ⟨_, _, _, _, hlink⟩
    simp [harrive] at hlink
  have hfound := hgrows.arrive_filled ((arrive_follow hfree).trans harrive) (get?_put_self ..) rfl
  simp [isDirectory, lookup, lookupLink, hfound, Entry.isDirectory]

theorem isDirectory_of_answer {e : IoError}
    (h : (fs, if fs.isDirectory p then .ok () else .error e) = ((fs', .ok ()) : Outcome)) :
    fs'.isDirectory p = true := by
  by_cases hthere : fs.isDirectory p = true
  · rw [if_pos hthere] at h
    cases h
    exact hthere
  · rw [if_neg hthere] at h
    cases h

/-- A directory is there once it was made, or was found to be there. -/
theorem isDirectory_of_makeDirectories (hnamed : p.chars ≠ [])
    (h : fs.makeDirectories mode p = (fs', .ok ())) : fs'.isDirectory p = true := by
  unfold makeDirectories at h
  rw [if_neg hnamed] at h
  generalize ancestors p.chars.length p = above at h
  cases above with
  | nil =>
      unfold makeDirectoriesFrom at h
      split at h
      · rename_i hmake
        cases h
        exact isDirectory_of_makeDirectory hmake
      · exact isDirectory_of_answer h
  | cons parent above =>
      unfold makeDirectoriesFrom at h
      split at h
      · rename_i hmake
        cases h
        exact isDirectory_of_makeDirectory hmake
      · split at h
        · cases h
        · split at h
          · rename_i hmake
            cases h
            exact isDirectory_of_makeDirectory hmake
          · exact isDirectory_of_answer h
      · exact isDirectory_of_answer h

end FileSystem

end PluginKit
