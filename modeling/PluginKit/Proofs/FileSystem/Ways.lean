import PluginKit.Proofs.FileSystem.Directory

/-!
# What a path leads through

An entry is on the way of a path when the path leads elsewhere without it. When several entries are
gone and a path leads elsewhere, one of them was on its way; and only a directory or a link can be on
the way to a directory.
-/

namespace PluginKit

namespace FileSystem

/-- Without the entry at `loc` the path leads elsewhere. -/
def LeadsThrough (fs : FileSystem) (p : Path) (loc : Location) : Prop :=
  (fs.erase loc).lookup p ≠ fs.lookup p

/-- If fewer entries change an answer, a single one of those missing changes it alike. -/
def DueToOne (fs' fs : FileSystem) (answer : FileSystem → Arrived) : Prop :=
  answer fs' = answer fs ∨
    ∃ loc, fs'.get? loc = none ∧ fs.get? loc ≠ none ∧ answer (fs.erase loc) = answer fs'

variable {fs fs' : FileSystem} {p : Path} {loc : Location} {e : Entry}
  {answer answer' : FileSystem → Arrived}

theorem Grows.erase (hgrows : Grows fs' fs) (free : fs'.get? loc = none) :
    Grows fs' (fs.erase loc) := by
  refine ⟨hgrows.here, fun he => ?_⟩
  rw [get?_erase_of_ne fs (ne_of_get? he free)]
  exact hgrows.entries he

/-! ## One entry that is missing -/

/-- Only file systems with at least the entries of `fs'` matter. -/
theorem DueToOne.congr (h : DueToOne fs' fs answer) (hgrows : Grows fs' fs)
    (hsame : ∀ g, Grows fs' g → answer' g = answer g) : DueToOne fs' fs answer' := by
  rcases h with heq | ⟨loc, free, there, heq⟩
  · left
    rw [hsame fs' (.refl fs'), hsame fs hgrows, heq]
  · right
    refine ⟨loc, free, there, ?_⟩
    rw [hsame _ (hgrows.erase free), hsame fs' (.refl fs'), heq]

theorem DueToOne.of_same (hgrows : Grows fs' fs)
    (h : ∀ g, Grows fs' g → answer g = answer fs') : DueToOne fs' fs answer :=
  .inl (h fs hgrows).symm

/-- An answer that an entry decides by its absence. -/
theorem DueToOne.of_missing (free : fs'.get? loc = none) (hgrows : Grows fs' fs)
    (h : ∀ g, Grows fs' g → g.get? loc = none → answer g = answer fs') :
    DueToOne fs' fs answer := by
  cases hloc : fs.get? loc with
  | none => exact .inl (h fs hgrows hloc).symm
  | some e =>
      have hwithout := h (fs.erase loc) (hgrows.erase free) (get?_erase_self fs loc)
      exact .inr ⟨loc, free, by simp [hloc], hwithout⟩

theorem dueToOne_walkNames (hgrows : Grows fs' fs)
    {jump : FileSystem → Location → Path → List (List Char) → Arrived}
    (hjump : ∀ dir goal rest, DueToOne fs' fs fun g => jump g dir goal rest)
    (follow asks : Bool) (dir : Location) (names : List (List Char)) :
    DueToOne fs' fs fun g => g.walkNames (jump g) follow asks dir names := by
  induction names generalizing dir with
  | nil =>
      cases hdir : fs'.get? dir with
      | none => exact .of_missing hdir hgrows fun g _ hnone => by simp only [walkNames, hnone, hdir]
      | some e =>
          exact .of_same hgrows fun g hg => by simp only [walkNames, hg.entries hdir, hdir]
  | cons name rest ih =>
      cases hnext : fs'.onward follow asks dir name rest.isEmpty with
      | enter next =>
          exact (ih next).congr hgrows fun g hg => by
            rw [walkNames_cons, hg.onward_of_goes hnext (by simp)]
      | jump goal =>
          exact (hjump dir goal rest).congr hgrows fun g hg => by
            rw [walkNames_cons, hg.onward_of_goes hnext (by simp)]
      | answer r =>
          -- of the two entries that decide, the first that is missing does
          have hsame : ∀ g : FileSystem, g.onward follow asks dir name rest.isEmpty =
              fs'.onward follow asks dir name rest.isEmpty →
              g.walkNames (jump g) follow asks dir (name :: rest) =
                fs'.walkNames (jump fs') follow asks dir (name :: rest) := fun g heq => by
            rw [walkNames_cons, walkNames_cons, heq, hnext]
          cases hdir : fs'.get? dir with
          | none =>
              exact .of_missing hdir hgrows fun g _ hnone =>
                hsame g (by rw [onward_of_none hnone, onward_of_none hdir])
          | some e =>
              cases hchild : fs'.get? (name :: dir) with
              | none =>
                  exact .of_missing hchild hgrows fun g hg hnone =>
                    hsame g (onward_congr (by rw [hg.entries hdir, hdir]) (by rw [hnone, hchild]))
              | some child =>
                  exact .of_same hgrows fun g hg => hsame g
                    (onward_congr (by rw [hg.entries hdir, hdir])
                      (by rw [hg.entries hchild, hchild]))

theorem dueToOne_walk (hgrows : Grows fs' fs) (follow : Bool) (links : Nat) (asks : Bool)
    (dir : Location) (names : List (List Char)) :
    DueToOne fs' fs fun g => g.walk follow links asks dir names := by
  induction links generalizing asks dir names with
  | zero => exact dueToOne_walkNames hgrows (fun _ _ _ => .inl rfl) follow asks dir names
  | succ links ih =>
      exact dueToOne_walkNames hgrows (fun dir goal rest => ih _ _ _) follow asks dir names

theorem dueToOne_arrive (hgrows : Grows fs' fs) (follow : Bool) (p : Path) :
    DueToOne fs' fs fun g => g.arrive follow p := by
  rcases arrive_cases p with ⟨err, hrefused⟩ | hwalk
  · exact .inl ((hrefused fs' follow).trans (hrefused fs follow).symm)
  · have hnames :=
      dueToOne_walk hgrows follow linkLimit (endsInSlash p) (startOf p fs'.here) (names p)
    exact hnames.congr hgrows fun g hg => by rw [hwalk, hg.here]

theorem lookup_congr (h : fs'.arrive true p = fs.arrive true p) : fs'.lookup p = fs.lookup p := by
  unfold lookup lookupLink
  rw [h]

/-- A path that leads through none of the missing entries leads where it did. -/
theorem lookup_of_not_leadsThrough (hgrows : Grows fs' fs)
    (hclear : ∀ loc, fs.get? loc ≠ none → fs'.get? loc = none → ¬ LeadsThrough fs p loc) :
    fs'.lookup p = fs.lookup p := by
  rcases dueToOne_arrive hgrows true p with hsame | ⟨loc, free, there, hwithout⟩
  · exact lookup_congr hsame
  · have hkept : (fs.erase loc).lookup p = fs.lookup p := by
      simpa [LeadsThrough] using hclear loc there free
    rw [← hkept]
    exact (lookup_congr hwithout).symm

/-- What was found without several entries is found with any of them, so none was on the way. -/
theorem not_leadsThrough_of_lookup {found : Location × Entry} (hgrows : Grows fs' fs)
    (h : fs'.lookup p = .ok found) (free : fs'.get? loc = none) : ¬ LeadsThrough fs p loc := by
  intro hleads
  apply hleads
  rw [(hgrows.erase free).lookup h, hgrows.lookup h]

/-- Of what is no directory, only links are on the way to a directory. -/
theorem LeadsThrough.isLink (hleads : LeadsThrough fs p loc) (hdir : fs.isDirectory p = true)
    (there : fs.get? loc = some e) (hfile : e.isDirectory = false) : e.isLink = true := by
  cases hlink : e.isLink with
  | true => rfl
  | false =>
      exfalso
      have hleaves : OnlyLeaves (fs.erase loc) fs :=
        onlyLeaves_erase there (Entry.isLeaf_iff.mpr ⟨hfile, hlink⟩)
      obtain ⟨place, d, hlookup, hproper⟩ := isDirectory_iff.mp hdir
      obtain ⟨asks, harrive⟩ := arrive_of_lookupLink hlookup
      have hdiffers := arrive_differs (grows_erase fs loc) true p
      rw [harrive] at hdiffers
      generalize hr : (fs.erase loc).arrive true p = r at hdiffers
      cases hdiffers with
      | same => exact hleads (lookup_congr (hr.trans harrive.symm))
      | filled free there' found =>
          have hleaf' := Entry.isLeaf_iff.mp (hleaves free there')
          cases found hleaf'.2
          simp [hproper] at hleaf'
      | beyond free there' found =>
          have hleaf' := hleaves free there'
          cases found hleaf' _ rfl
          simp [(Entry.isLeaf_iff.mp hleaf').1] at hproper

end FileSystem

end PluginKit
