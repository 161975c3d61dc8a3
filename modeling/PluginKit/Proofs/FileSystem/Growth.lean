import PluginKit.Proofs.FileSystem.Following

/-!
# Paths in a file system that grows

A path leads to the same entry when further entries are made. It can lead elsewhere only where it
led to nothing before, and then through one of the new entries. New files and sockets, which lead
nowhere themselves, open no new ways.
-/

namespace PluginKit

namespace FileSystem

/-- All entries of `fs` are in `fs'`. -/
structure Grows (fs fs' : FileSystem) : Prop where
  here : fs'.here = fs.here
  entries : ∀ {loc : Location} {e : Entry}, fs.get? loc = some e → fs'.get? loc = some e

def FindsVacancy (r : Arrived) : Prop := ∃ dir name asks, r = .ok ⟨.vacant dir name, asks⟩

/-- Nothing is found but a certain entry. -/
def FindsOnly (loc : Location) (e : Entry) (r : Arrived) : Prop :=
  ∀ arrival, r = .ok arrival → arrival.target = .entry loc e

/-- What an arrival says about the entries. -/
def Target.Holds (fs : FileSystem) : Target → Prop
  | .entry loc e => fs.get? loc = some e
  | .vacant dir name =>
      fs.get? (name :: dir) = none ∧ ∃ e, fs.get? dir = some e ∧ e.isDirectory = true

/-- How what a path leads to in `fs` goes together with what it leads to in `fs'`, which has more
entries: it is the same, or an entry that only `fs'` has lies at its end or on its way. -/
inductive Differs (fs fs' : FileSystem) : Arrived → Arrived → Prop
  | same (r : Arrived) : Differs fs fs' r r
  | filled {dir : Location} {name : List Char} {asks : Bool} {e : Entry} {r : Arrived}
      (free : fs.get? (name :: dir) = none) (there : fs'.get? (name :: dir) = some e)
      (found : e.isLink = false → r = .ok ⟨.entry (name :: dir) e, asks⟩) :
      Differs fs fs' (.ok ⟨.vacant dir name, asks⟩) r
  | beyond {loc : Location} {e : Entry} {r : Arrived}
      (free : fs.get? loc = none) (there : fs'.get? loc = some e)
      (leaf : e.isLeaf = true → FindsOnly loc e r) : Differs fs fs' (.error .notFound) r

variable {fs fs' fs'' : FileSystem} {p : Path} {loc : Location} {e : Entry}

theorem Grows.refl (fs : FileSystem) : Grows fs fs := ⟨rfl, id⟩

theorem Grows.trans (h : Grows fs fs') (h' : Grows fs' fs'') : Grows fs fs'' :=
  ⟨h'.here.trans h.here, fun he => h'.entries (h.entries he)⟩

theorem ne_of_get? {other : Location} (there : fs.get? other = some e)
    (free : fs.get? loc = none) : other ≠ loc := by
  rintro rfl
  rw [free] at there
  contradiction

theorem grows_put (e : Entry) (free : fs.get? loc = none) : Grows fs (fs.put loc e) := by
  refine ⟨rfl, fun he => ?_⟩
  rw [get?_put_of_ne fs e (ne_of_get? he free)]
  exact he

theorem get?_of_erase {other : Location} (h : (fs.erase loc).get? other = some e) :
    other ≠ loc ∧ fs.get? other = some e := by
  have hne : other ≠ loc := ne_of_get? h (get?_erase_self fs loc)
  exact ⟨hne, (get?_erase_of_ne fs hne) ▸ h⟩

theorem grows_erase (fs : FileSystem) (loc : Location) : Grows (fs.erase loc) fs :=
  ⟨rfl, fun he => (get?_of_erase he).2⟩

theorem erase_put (e : Entry) (free : fs.get? loc = none) : (fs.put loc e).erase loc = fs := by
  have habsent : ∀ item ∈ fs.entries, (item.1 != loc) = true := by
    simpa [get?, List.find?_eq_none] using free
  have hall : fs.entries.filter (fun item => item.1 != loc) = fs.entries :=
    List.filter_eq_self.mpr habsent
  simp [put, erase, hall]

theorem erase_put_of_ne {other : Location} (e : Entry) (h : other ≠ loc) :
    (fs.put other e).erase loc = (fs.erase loc).put other e := by
  simp only [put, erase, List.filter_cons, bne_iff_ne, ne_eq, h, not_false_eq_true, if_true,
    FileSystem.mk.injEq, and_true, List.cons.injEq, true_and]
  rw [List.filter_filter, List.filter_filter]
  exact List.filter_congr fun item _ => Bool.and_comm _ _

/-! ## Following names -/

theorem findsOnly_of_leaf
    {jump : Location → Path → List (List Char) → Arrived} {follow asks : Bool}
    (there : fs.get? loc = some e) (hleaf : e.isLeaf = true) (names : List (List Char)) :
    FindsOnly loc e (fs.walkNames jump follow asks loc names) := by
  have hfile : e.isDirectory = false := (Entry.isLeaf_iff.mp hleaf).1
  intro arrival h
  cases names with
  | nil =>
      simp only [walkNames, there] at h
      cases h
      rfl
  | cons first rest => simp [walkNames, there, hfile] at h

/-- A name is followed among more entries as before, unless one of the two entries that decide is a
new one. -/
theorem Grows.onward (hgrows : Grows fs fs') (follow asks : Bool) (dir : Location)
    (name : List Char) (last : Bool) :
    fs'.onward follow asks dir name last = fs.onward follow asks dir name last ∨
      (∃ e, fs.get? dir = none ∧ fs'.get? dir = some e) ∨
      ∃ e, fs.get? (name :: dir) = none ∧ fs'.get? (name :: dir) = some e ∧
        fs.onward follow asks dir name last = byEntry follow asks dir name last none ∧
        fs'.onward follow asks dir name last = byEntry follow asks dir name last (some e) := by
  cases hdir : fs.get? dir with
  | none =>
      cases hdir' : fs'.get? dir with
      | none => exact .inl (by rw [onward_of_none hdir, onward_of_none hdir'])
      | some e => exact .inr (.inl ⟨e, rfl, rfl⟩)
  | some e =>
      have hsame : fs'.byItself? dir name = fs.byItself? dir name :=
        byItself?_congr (by rw [hgrows.entries hdir, hdir])
      cases hitself : fs.byItself? dir name with
      | some o =>
          rw [hitself] at hsame
          exact .inl (by rw [onward_of_byItself hitself, onward_of_byItself hsame])
      | none =>
          rw [hitself] at hsame
          rw [onward_of_byEntry hitself, onward_of_byEntry hsame]
          cases hchild : fs.get? (name :: dir) with
          | some child => exact .inl (by rw [hgrows.entries hchild])
          | none =>
              cases hchild' : fs'.get? (name :: dir) with
              | none => exact .inl rfl
              | some child => exact .inr (.inr ⟨child, rfl, rfl, rfl, rfl⟩)

theorem Grows.onward_of_goes {follow asks last : Bool} {dir : Location} {name : List Char}
    {o : Onward} (hgrows : Grows fs fs') (h : fs.onward follow asks dir name last = o)
    (hgoes : ∀ r, o ≠ .answer r) : fs'.onward follow asks dir name last = o := by
  rcases hgrows.onward follow asks dir name last with
    hsame | ⟨e, free, -⟩ | ⟨child, -, -, hfree, -⟩
  · rw [hsame, h]
  · rw [onward_of_none free] at h
    exact absurd h.symm (hgoes _)
  · rw [h] at hfree
    exact absurd hfree (hgoes _)

theorem walkNames_differs (hgrows : Grows fs fs')
    {jump jump' : Location → Path → List (List Char) → Arrived}
    (hjump : ∀ dir goal rest, Differs fs fs' (jump dir goal rest) (jump' dir goal rest))
    (follow asks : Bool) (dir : Location) (names : List (List Char)) :
    Differs fs fs' (fs.walkNames jump follow asks dir names)
      (fs'.walkNames jump' follow asks dir names) := by
  induction names generalizing dir with
  | nil =>
      simp only [walkNames]
      cases hdir : fs.get? dir with
      | some e =>
          rw [hgrows.entries hdir]
          exact .same _
      | none =>
          cases hdir' : fs'.get? dir with
          | none => exact .same _
          | some e =>
              refine .beyond hdir hdir' fun _ arrival h => ?_
              cases h
              rfl
  | cons name rest ih =>
      rcases hgrows.onward follow asks dir name rest.isEmpty with
        hsame | ⟨e, free, there⟩ | ⟨child, free, there, hfree, hfound⟩
      · rw [walkNames_cons, walkNames_cons, hsame]
        cases fs.onward follow asks dir name rest.isEmpty with
        | answer r => exact .same r
        | enter next => exact ih next
        | jump goal => exact hjump dir goal rest
      · rw [walkNames_cons fs, onward_of_none free]
        exact .beyond free there fun hleaf => findsOnly_of_leaf there hleaf _
      · rw [walkNames_cons, walkNames_cons, hfree, hfound]
        cases rest with
        | nil =>
            refine .filled free there fun hlink => ?_
            rw [byEntry_of_not_link hlink]
            rfl
        | cons next rest =>
            refine .beyond free there fun hleaf => ?_
            rw [byEntry_of_not_link (Entry.isLeaf_iff.mp hleaf).2]
            exact findsOnly_of_leaf there hleaf _

theorem walk_differs (hgrows : Grows fs fs') (follow : Bool) (links : Nat) (asks : Bool)
    (dir : Location) (names : List (List Char)) :
    Differs fs fs' (fs.walk follow links asks dir names)
      (fs'.walk follow links asks dir names) := by
  induction links generalizing asks dir names with
  | zero => exact walkNames_differs hgrows (fun _ _ _ => .same _) follow asks dir names
  | succ links ih =>
      exact walkNames_differs hgrows (fun dir goal rest => ih _ _ _) follow asks dir names

theorem arrive_differs (hgrows : Grows fs fs') (follow : Bool) (p : Path) :
    Differs fs fs' (fs.arrive follow p) (fs'.arrive follow p) := by
  rcases arrive_cases p with ⟨err, hrefused⟩ | hwalk
  · rw [hrefused, hrefused]
    exact .same _
  · rw [hwalk, hwalk, hgrows.here]
    exact walk_differs hgrows follow linkLimit _ _ _

/-! ## Where a path ends -/

theorem walkNames_holds {jump : Location → Path → List (List Char) → Arrived}
    (hjump : ∀ dir goal rest arrival, jump dir goal rest = .ok arrival → arrival.target.Holds fs)
    {follow asks : Bool} {dir : Location} {names : List (List Char)} {arrival : Arrival}
    (h : fs.walkNames jump follow asks dir names = .ok arrival) : arrival.target.Holds fs := by
  induction names generalizing dir with
  | nil =>
      simp only [walkNames] at h
      cases hdir : fs.get? dir with
      | none => simp [hdir] at h
      | some e =>
          simp only [hdir, Except.ok.injEq] at h
          subst h
          exact hdir
  | cons name rest ih =>
      rw [walkNames_cons] at h
      have hcomes := comesTo_onward fs follow asks dir name rest.isEmpty
      generalize fs.onward follow asks dir name rest.isEmpty = o at h hcomes
      cases hcomes with
      | refused => contradiction
      | here => exact ih h
      | above => exact ih h
      | vacant opened proper free ends =>
          obtain ⟨e, hdir, hdirectory, -⟩ := opened
          cases h
          exact ⟨free, e, hdir, hdirectory⟩
      | entry opened proper there ends =>
          cases h
          exact there
      | inside => exact ih h
      | link goal => exact hjump dir goal rest arrival h

theorem walk_holds {follow asks : Bool} {links : Nat} {dir : Location}
    {names : List (List Char)} {arrival : Arrival}
    (h : fs.walk follow links asks dir names = .ok arrival) : arrival.target.Holds fs := by
  induction links generalizing asks dir names arrival with
  | zero => exact walkNames_holds (fun _ _ _ _ hjump => by contradiction) h
  | succ links ih => exact walkNames_holds (fun _ _ _ _ hjump => ih hjump) h

theorem arrive_holds {follow : Bool} {arrival : Arrival} (h : fs.arrive follow p = .ok arrival) :
    arrival.target.Holds fs := by
  rcases arrive_cases p with ⟨err, hrefused⟩ | hwalk
  · rw [hrefused] at h
    contradiction
  · rw [hwalk] at h
    exact walk_holds h

theorem arrive_of_lookupLink {follow : Bool}
    (h : fs.lookupLink follow p = .ok (loc, e)) :
    ∃ asks, fs.arrive follow p = .ok ⟨.entry loc e, asks⟩ := by
  unfold lookupLink at h
  split at h
  · contradiction
  · contradiction
  · rename_i found place asks harrive
    split at h
    · contradiction
    · cases h
      exact ⟨asks, harrive⟩

theorem holds_of_lookupLink {follow : Bool} (h : fs.lookupLink follow p = .ok (loc, e)) :
    fs.get? loc = some e := by
  obtain ⟨asks, harrive⟩ := arrive_of_lookupLink h
  exact arrive_holds harrive

/-- An entry that is found is found when there are more entries. -/
theorem Grows.arrive_entry (hgrows : Grows fs fs') {follow asks : Bool}
    (h : fs.arrive follow p = .ok ⟨.entry loc e, asks⟩) :
    fs'.arrive follow p = .ok ⟨.entry loc e, asks⟩ := by
  have hdiffers := arrive_differs hgrows follow p
  rw [h] at hdiffers
  generalize fs'.arrive follow p = r at hdiffers
  cases hdiffers with
  | same => rfl

theorem Grows.lookupLink (hgrows : Grows fs fs') {follow : Bool}
    (h : fs.lookupLink follow p = .ok (loc, e)) : fs'.lookupLink follow p = .ok (loc, e) := by
  obtain ⟨asks, harrive⟩ := arrive_of_lookupLink h
  have harrive' := hgrows.arrive_entry harrive
  unfold FileSystem.lookupLink at h ⊢
  rw [harrive] at h
  rw [harrive']
  exact h

/-- The entries that `fs'` has and `fs` has not are files and sockets. -/
def OnlyLeaves (fs fs' : FileSystem) : Prop :=
  ∀ {loc e}, fs.get? loc = none → fs'.get? loc = some e → e.isLeaf = true

theorem onlyLeaves_put (hleaf : e.isLeaf = true) : OnlyLeaves fs (fs.put loc e) := by
  intro other e' free there
  by_cases h : other = loc
  · subst h
    rw [get?_put_self] at there
    exact Option.some.inj there ▸ hleaf
  · rw [get?_put_of_ne fs e h, free] at there
    contradiction

theorem onlyLeaves_erase (there : fs.get? loc = some e) (hleaf : e.isLeaf = true) :
    OnlyLeaves (fs.erase loc) fs := by
  intro other e' free there'
  by_cases h : other = loc
  · subst h
    rw [there] at there'
    exact Option.some.inj there' ▸ hleaf
  · rw [get?_erase_of_ne fs h, there'] at free
    contradiction

/-- A name that is free among more files and sockets is free without them. -/
theorem Grows.arrive_vacant (hgrows : Grows fs fs') (hleaves : OnlyLeaves fs fs')
    {follow asks : Bool} {dir : Location} {name : List Char}
    (h : fs'.arrive follow p = .ok ⟨.vacant dir name, asks⟩) :
    fs.arrive follow p = .ok ⟨.vacant dir name, asks⟩ := by
  have hdiffers := arrive_differs hgrows follow p
  rw [h] at hdiffers
  generalize fs.arrive follow p = r at hdiffers
  cases hdiffers with
  | same => rfl
  | filled free there found => cases found (Entry.isLeaf_iff.mp (hleaves free there)).2
  | beyond free there leaf => cases leaf (hleaves free there) _ rfl

/-- A free name that is filled leads to what it is filled with. -/
theorem Grows.arrive_filled (hgrows : Grows fs fs') {follow asks : Bool} {dir : Location}
    {name : List Char} (h : fs.arrive follow p = .ok ⟨.vacant dir name, asks⟩)
    (there : fs'.get? (name :: dir) = some e) (hlink : e.isLink = false) :
    fs'.arrive follow p = .ok ⟨.entry (name :: dir) e, asks⟩ := by
  have hdiffers := arrive_differs hgrows follow p
  rw [h] at hdiffers
  generalize hr : fs'.arrive follow p = r at hdiffers
  cases hdiffers with
  | same =>
      have hvacant := (arrive_holds hr).1
      rw [there] at hvacant
      contradiction
  | filled free there' found =>
      rw [there] at there'
      cases there'
      exact found hlink

/-- A free name that is not filled remains free. -/
theorem Grows.arrive_unfilled (hgrows : Grows fs fs') {follow asks : Bool} {dir : Location}
    {name : List Char} (h : fs.arrive follow p = .ok ⟨.vacant dir name, asks⟩)
    (free : fs'.get? (name :: dir) = none) :
    fs'.arrive follow p = .ok ⟨.vacant dir name, asks⟩ := by
  have hdiffers := arrive_differs hgrows follow p
  rw [h] at hdiffers
  generalize fs'.arrive follow p = r at hdiffers
  cases hdiffers with
  | same => rfl
  | filled free' there leaf =>
      rw [free] at there
      contradiction

/-! ## Links at the end -/

def EndsAtLink (r : Arrived) : Prop :=
  ∃ loc goal mode asks, r = .ok ⟨.entry loc ⟨.link goal, mode⟩, asks⟩

/-- Whether links are followed shows only at a link under the last name. -/
theorem onward_follow (fs : FileSystem) (asks : Bool) (dir : Location) (name : List Char)
    (last : Bool) :
    fs.onward true asks dir name last = fs.onward false asks dir name last ∨
      ∃ r, EndsAtLink r ∧ fs.onward false asks dir name last = .answer r := by
  cases hitself : fs.byItself? dir name with
  | some o => exact .inl (by rw [onward_of_byItself hitself, onward_of_byItself hitself])
  | none =>
      rw [onward_of_byEntry hitself, onward_of_byEntry hitself]
      rcases fs.get? (name :: dir) with _ | ⟨_ | _ | goal | _, mode⟩
      case some.link =>
          cases last with
          | false => exact .inl rfl
          | true => exact .inr ⟨_, ⟨_, _, _, _, rfl⟩, rfl⟩
      all_goals exact .inl rfl

theorem walkNames_follow {jump jump' : Location → Path → List (List Char) → Arrived}
    (hjump : ∀ dir goal rest, ¬ EndsAtLink (jump dir goal rest) →
      jump' dir goal rest = jump dir goal rest)
    {asks : Bool} {dir : Location} {names : List (List Char)}
    (h : ¬ EndsAtLink (fs.walkNames jump false asks dir names)) :
    fs.walkNames jump' true asks dir names = fs.walkNames jump false asks dir names := by
  induction names generalizing dir with
  | nil => rfl
  | cons name rest ih =>
      rw [walkNames_cons] at h ⊢
      rw [walkNames_cons]
      rcases onward_follow fs asks dir name rest.isEmpty with hsame | ⟨r, hlink, hends⟩
      · rw [hsame]
        cases hnext : fs.onward false asks dir name rest.isEmpty with
        | answer r => rfl
        | enter next => exact ih (by simpa only [hnext] using h)
        | jump goal => exact hjump dir goal rest (by simpa only [hnext] using h)
      · rw [hends] at h
        contradiction

theorem walk_follow {links : Nat} {asks : Bool} {dir : Location} {names : List (List Char)}
    (h : ¬ EndsAtLink (fs.walk false links asks dir names)) :
    fs.walk true links asks dir names = fs.walk false links asks dir names := by
  induction links generalizing asks dir names with
  | zero => exact walkNames_follow (fun _ _ _ _ => rfl) h
  | succ links ih => exact walkNames_follow (fun _ _ _ hjump => ih hjump) h

/-- Only a link at the end of a path is followed or not. -/
theorem arrive_follow (h : ¬ EndsAtLink (fs.arrive false p)) :
    fs.arrive true p = fs.arrive false p := by
  rcases arrive_cases p with ⟨err, hrefused⟩ | hwalk
  · rw [hrefused, hrefused]
  · rw [hwalk] at h ⊢
    rw [hwalk]
    exact walk_follow h

/-! ## Paths that lead to nothing -/

/-- Nothing exists at a path, not even a link. -/
def Absent (fs : FileSystem) (p : Path) : Prop := fs.lookupLink false p = .error .notFound

/-- Nothing was found, or a free name. -/
def LeadsNowhere (r : Arrived) : Prop := r = .error .notFound ∨ FindsVacancy r

theorem absent_iff : Absent fs p ↔ LeadsNowhere (fs.arrive false p) := by
  unfold Absent lookupLink LeadsNowhere FindsVacancy
  split
  · rename_i h
    simp [h]
  · rename_i h
    simp [h]
  · rename_i h
    simp only [h]
    split <;> simp

/-- Whether links are followed or not, nothing is found at such a path. -/
theorem Absent.lookupLink (h : Absent fs p) (follow : Bool) :
    fs.lookupLink follow p = .error .notFound := by
  cases follow with
  | false => exact h
  | true =>
      have hsame : fs.arrive true p = fs.arrive false p := by
        refine arrive_follow fun ⟨_, _, _, _, hlink⟩ => ?_
        rcases absent_iff.mp h with hnone | ⟨_, _, _, hvacant⟩
        · rw [hnone] at hlink
          contradiction
        · simp [hvacant] at hlink
      rw [FileSystem.lookupLink, hsame]
      exact h

/-- A file or socket at the end of a path is found there. -/
theorem lookupLink_of_leaf (h : fs.arrive false p = .ok ⟨.entry loc e, false⟩)
    (hleaf : e.isLeaf = true) (follow : Bool) : fs.lookupLink follow p = .ok (loc, e) := by
  have hsame : fs.arrive follow p = fs.arrive false p := by
    cases follow with
    | false => rfl
    | true =>
        refine arrive_follow fun ⟨_, _, _, _, hlink⟩ => ?_
        rw [h] at hlink
        cases hlink
        contradiction
  simp [lookupLink, hsame, h]

/-- What is not there is not there when fewer entries are. -/
theorem Absent.of_grows (hgrows : Grows fs fs') (h : Absent fs' p) : Absent fs p := by
  rw [absent_iff] at h ⊢
  have hdiffers := arrive_differs hgrows false p
  generalize fs.arrive false p = r at hdiffers
  cases hdiffers with
  | same => exact h
  | filled => exact .inr ⟨_, _, _, rfl⟩
  | beyond => exact .inl rfl

theorem absent_erase {asks : Bool} (h : fs.arrive false p = .ok ⟨.entry loc e, asks⟩) :
    Absent (fs.erase loc) p := by
  rw [absent_iff]
  have hdiffers := arrive_differs (grows_erase fs loc) false p
  rw [h] at hdiffers
  generalize hr : (fs.erase loc).arrive false p = r at hdiffers
  cases hdiffers with
  | same =>
      have hthere := arrive_holds hr
      simp [Target.Holds] at hthere
  | filled => exact .inr ⟨_, _, _, rfl⟩
  | beyond => exact .inl rfl

end FileSystem

end PluginKit
