import PluginKit.Proofs.FileSystem.Tree

/-!
# The directory of a path

When a path leads to a free name, the text of its directory leads to the directory in which the name
is free. Such a directory need not be made again.
-/

namespace PluginKit

/-! ## Texts and their parts -/

namespace Path

theorem slash_not_mem_of_split {text part : List Char} (h : part ∈ split text) : '/' ∉ part := by
  induction text generalizing part with
  | nil =>
      obtain rfl : part = [] := by simpa [split] using h
      simp
  | cons c rest ih =>
      simp only [split] at h
      split at h
      · rcases List.mem_cons.mp h with rfl | hrest
        · simp
        · exact ih hrest
      · rename_i hc
        split at h
        · rename_i hnone
          exact absurd hnone (split_ne_nil rest)
        · rename_i first more hparts
          rcases List.mem_cons.mp h with rfl | hmore
          · have hfirst := ih (hparts ▸ List.mem_cons_self)
            simpa [Ne.symm hc] using hfirst
          · exact ih (hparts ▸ List.mem_cons_of_mem _ hmore)

theorem split_of_slashless {part : List Char} (h : '/' ∉ part) : split part = [part] := by
  induction part with
  | nil => rfl
  | cons c rest ih =>
      obtain ⟨hc, hrest⟩ : '/' ≠ c ∧ '/' ∉ rest := by simpa using h
      simp [split, hc.symm, ih hrest]

theorem split_append_slash {part : List Char} (h : '/' ∉ part) (rest : List Char) :
    split (part ++ '/' :: rest) = part :: split rest := by
  induction part with
  | nil => simp [split]
  | cons c more ih =>
      obtain ⟨hc, hmore⟩ : '/' ≠ c ∧ '/' ∉ more := by simpa using h
      simp [split, hc.symm, ih hmore]

/-- Parts without slashes are the parts of the text that they make. -/
theorem split_unsplit {parts : List (List Char)} (hsome : parts ≠ [])
    (h : ∀ part ∈ parts, '/' ∉ part) : split (unsplit parts) = parts := by
  induction parts with
  | nil => contradiction
  | cons part more ih =>
      have hpart := h part List.mem_cons_self
      cases more with
      | nil => exact split_of_slashless hpart
      | cons second more =>
          rw [unsplit, split_append_slash hpart,
            ih (by simp) fun q hq => h q (List.mem_cons_of_mem _ hq)]
          exact List.cons_ne_nil _ _

theorem unsplit_prefix (parts more : List (List Char)) :
    (unsplit parts).IsPrefix (unsplit (parts ++ more)) := by
  induction parts with
  | nil => exact List.nil_prefix
  | cons part rest ih =>
      cases rest with
      | nil =>
          cases more with
          | nil => exact List.prefix_refl _
          | cons next more => exact ⟨'/' :: unsplit (next :: more), rfl⟩
      | cons second rest =>
          obtain ⟨behind, hbehind⟩ := ih
          refine ⟨behind, ?_⟩
          simp only [unsplit, List.cons_append, List.append_assoc] at hbehind ⊢
          rw [hbehind]

theorem byteLength_append (a b : List Char) :
    byteLength (a ++ b) = byteLength a + byteLength b := by
  have hfoldl : ∀ (chars : List Char) (n : Nat),
      chars.foldl (fun n c => n + c.utf8Size) n = n + byteLength chars := by
    intro chars
    induction chars with
    | nil => exact fun n => rfl
    | cons c rest ih =>
        intro n
        simp only [byteLength, List.foldl_cons, ih (n + c.utf8Size), ih (0 + c.utf8Size)]
        omega
  rw [byteLength, List.foldl_append, hfoldl]
  rfl

theorem trimFillers_spec (parts : List (List Char)) :
    (∃ fillers, parts = trimFillers parts ++ fillers ∧ ∀ part ∈ fillers, isFiller part = true) ∧
      ∀ {last before}, (trimFillers parts).reverse = last :: before → isFiller last = false := by
  unfold trimFillers
  refine ⟨⟨(parts.reverse.takeWhile isFiller).reverse, ?_, fun part hpart => ?_⟩, ?_⟩
  · rw [← List.reverse_append, List.takeWhile_append_dropWhile, List.reverse_reverse]
  · have hall := List.all_takeWhile (p := isFiller) (l := parts.reverse)
    exact List.all_eq_true.mp hall part (List.mem_reverse.mp hpart)
  · intro last before h
    have hhead := List.head?_dropWhile_not isFiller parts.reverse
    rw [List.reverse_reverse] at h
    rw [h] at hhead
    exact hhead

def upTo (p : Path) (parts : List (List Char)) : Path :=
  ⟨p.chars.take p.headLength ++ unsplit parts⟩

def headNames (p : Path) : List (List Char) :=
  if p.isAbsolute then [] else if p.startsHere then [['.']] else []

variable {p q : Path} {before after : List (List Char)}

theorem upTo_parts (p : Path) : p.upTo p.parts = p := by
  simp [upTo, parts, unsplit_split]

theorem upTo_prefix (h : p.parts = before ++ after) : (p.upTo before).chars.IsPrefix p.chars := by
  obtain ⟨behind, hbehind⟩ := unsplit_prefix before after
  refine ⟨behind, ?_⟩
  have hwhole := congrArg Path.chars p.upTo_parts
  rw [h] at hwhole
  simp only [upTo] at hwhole ⊢
  rw [List.append_assoc, hbehind, hwhole]

theorem isAbsolute_of_prefix (h : q.chars.IsPrefix p.chars) (hsome : q.chars ≠ []) :
    q.isAbsolute = p.isAbsolute := by
  obtain ⟨behind, hbehind⟩ := h
  obtain ⟨c, rest, hchars⟩ := List.exists_cons_of_ne_nil hsome
  simp [isAbsolute, ← hbehind, hchars]

theorem chars_of_isAbsolute (h : p.isAbsolute = true) : ∃ rest, p.chars = '/' :: rest := by
  unfold isAbsolute at h
  cases hchars : p.chars with
  | nil => simp [hchars] at h
  | cons c rest =>
      obtain rfl : c = '/' := by simpa [hchars] using h
      exact ⟨rest, rfl⟩

theorem chars_of_startsHere (h : p.startsHere = true) :
    p.chars = ['.'] ∨ ∃ rest, p.chars = '.' :: '/' :: rest := by
  unfold startsHere at h
  rcases hchars : p.chars with _ | ⟨c, _ | ⟨c', rest⟩⟩ <;> simp_all

theorem names_of_unsplit (h : ∀ part ∈ before, '/' ∉ part) :
    (split (unsplit before)).filter (· ≠ []) = before.filter (· ≠ []) := by
  cases before with
  | nil => rfl
  | cons part more => rw [split_unsplit (by simp) h]

theorem names_upTo (h : p.parts = before ++ after) :
    FileSystem.names (p.upTo before) = p.headNames ++ before.filter (· ≠ []) := by
  have hslashless : ∀ part ∈ before, '/' ∉ part := by
    intro part hpart
    have hmem : part ∈ p.parts := h ▸ List.mem_append_left _ hpart
    exact slash_not_mem_of_split hmem
  have hnames := names_of_unsplit hslashless
  unfold FileSystem.names upTo headNames
  cases habsolute : p.isAbsolute with
  | true =>
      obtain ⟨rest, hchars⟩ := chars_of_isAbsolute habsolute
      simpa [headLength, habsolute, hchars, split] using hnames
  | false =>
      cases hhere : p.startsHere with
      | false => simpa [headLength, habsolute, hhere] using hnames
      | true =>
          rcases chars_of_startsHere hhere with hchars | ⟨rest, hchars⟩
          · have hparts : [[]] = before ++ after := by
              simpa [parts, headLength, habsolute, hhere, hchars, split] using h
            rcases List.singleton_eq_append_iff.mp hparts with ⟨rfl, -⟩ | ⟨rfl, -⟩
            · simp [headLength, hhere, hchars, unsplit, split]
            · simp [headLength, hhere, hchars, unsplit, split]
          · have hparts : [] :: split rest = before ++ after := by
              simpa [parts, headLength, habsolute, hhere, hchars, split] using h
            rcases before with _ | ⟨first, _ | ⟨second, more⟩⟩
            · simp [headLength, hhere, hchars, unsplit, split]
            · obtain rfl : first = [] := (List.cons.inj hparts).1.symm
              simp [headLength, hhere, hchars, unsplit, split]
            · obtain rfl : first = [] := (List.cons.inj hparts).1.symm
              have hmore : split (unsplit (second :: more)) = second :: more :=
                split_unsplit (by simp) fun part hpart =>
                  hslashless part (List.mem_cons_of_mem _ hpart)
              simp [headLength, hhere, hchars, unsplit, split, hmore]

theorem names_eq (p : Path) : FileSystem.names p = p.headNames ++ p.parts.filter (· ≠ []) := by
  have h := names_upTo (p := p) (List.append_nil p.parts).symm
  rwa [upTo_parts] at h

/-- The text of a path's directory, with its names: a part of the text of the path, or nothing but
the place where relative paths start. -/
inductive DirectoryText (p : Path) : List (List Char) → Prop
  | here (directory : p.directory = Path.here) (relative : p.isAbsolute = false) :
      DirectoryText p []
  | cut (front : p.directory.chars.IsPrefix p.chars) (some : p.directory.chars ≠ []) :
      DirectoryText p (FileSystem.names p.directory)

theorem dots_of_fillers {parts : List (List Char)} (h : ∀ part ∈ parts, isFiller part = true) :
    ∀ part ∈ parts.filter (· ≠ []), part = ['.'] := by
  intro part hpart
  obtain ⟨hmem, hsome⟩ := List.mem_filter.mp hpart
  have hfiller := h part hmem
  simp only [isFiller, Bool.or_eq_true, beq_iff_eq] at hfiller
  exact hfiller.resolve_left (by simpa using hsome)

theorem dots_of_headNames : ∀ part ∈ p.headNames, part = ['.'] := by
  unfold headNames
  intro part hpart
  split at hpart
  · contradiction
  split at hpart
  · exact List.mem_singleton.mp hpart
  · contradiction

/-- A last name that is not `.` has no `.` behind it. -/
theorem eq_nil_of_dots {init front dots : List (List Char)} {last : List Char}
    (h : init ++ [last] = front ++ dots) (hdots : ∀ part ∈ dots, part = ['.'])
    (hlast : last ≠ ['.']) : dots = [] := by
  rcases List.eq_nil_or_concat dots with hnone | ⟨more, dot, rfl⟩
  · exact hnone
  · rw [List.concat_eq_append, ← List.append_assoc] at h
    obtain rfl : last = dot := (List.cons.inj (List.append_inj' h rfl).2).1
    exact absurd (hdots last (by simp)) hlast

/-- The directory of a path that has a parent is the text of that parent. -/
theorem directoryText_of_parent (hparts : p.parts = before ++ after)
    (hparent : p.parent? = some (p.upTo before)) :
    DirectoryText p (p.headNames ++ before.filter (· ≠ [])) := by
  have hfront := upTo_prefix hparts
  rw [← names_upTo hparts]
  by_cases hempty : (p.upTo before).chars = []
  · have hdirectory : p.directory = Path.here := by simp [directory, hparent, hempty]
    have hnone : FileSystem.names (p.upTo before) = [] := by
      simp [FileSystem.names, hempty, split]
    have hrelative : p.isAbsolute = false := by
      cases habsolute : p.isAbsolute with
      | false => rfl
      | true =>
          obtain ⟨rest, hchars⟩ := chars_of_isAbsolute habsolute
          simp [upTo, headLength, habsolute, hchars] at hempty
    rw [hnone]
    exact .here hdirectory hrelative
  · have hdirectory : p.directory = p.upTo before := by simp [directory, hparent, hempty]
    rw [← hdirectory] at hempty hfront ⊢
    exact .cut hfront hempty

/-- The names of a path are those of its directory, `.` some times, and one more. -/
theorem directory_text {init : List (List Char)} {last : List Char}
    (h : FileSystem.names p = init ++ [last]) (hlast : last ≠ ['.']) :
    ∃ above dots, init = above ++ dots ∧ (∀ part ∈ dots, part = ['.']) ∧
      DirectoryText p above := by
  obtain ⟨⟨fillers, hparts, hfillers⟩, hproper⟩ := trimFillers_spec p.parts
  have hnames : init ++ [last] = p.headNames ++ (trimFillers p.parts).filter (· ≠ []) ++
      fillers.filter (· ≠ []) := by
    rw [← h, p.names_eq, List.append_assoc, ← List.filter_append, ← hparts]
  have hnofillers := eq_nil_of_dots hnames (dots_of_fillers hfillers) hlast
  rw [hnofillers, List.append_nil] at hnames
  cases htrimmed : (trimFillers p.parts).reverse with
  | nil =>
      -- the path has no names then but the one that its head stands for
      rw [List.reverse_eq_nil_iff.mp htrimmed] at hnames
      have hmem : last ∈ p.headNames ++ [] := hnames ▸ List.mem_append_right init List.mem_cons_self
      rw [List.append_nil] at hmem
      exact absurd (dots_of_headNames last hmem) hlast
  | cons name before =>
      have hname : isFiller name = false := hproper htrimmed
      have hsome : name ≠ [] := by
        rintro rfl
        simp [isFiller] at hname
      have htrim : trimFillers p.parts = before.reverse ++ [name] := by
        rw [← List.reverse_reverse (trimFillers p.parts), htrimmed, List.reverse_cons]
      obtain ⟨⟨between, hbefore, hbetween⟩, -⟩ := trimFillers_spec before.reverse
      have hinit : init = p.headNames ++ before.reverse.filter (· ≠ []) := by
        have hkept : [name].filter (· ≠ []) = [name] := by simp [hsome]
        rw [htrim, List.filter_append, hkept, ← List.append_assoc] at hnames
        exact (List.append_inj' hnames rfl).1
      have hcut : p.parts = trimFillers before.reverse ++ (between ++ [name] ++ fillers) := by
        calc p.parts = before.reverse ++ [name] ++ fillers := by rw [← htrim]; exact hparts
          _ = trimFillers before.reverse ++ between ++ [name] ++ fillers := by rw [← hbefore]
          _ = _ := by simp only [List.append_assoc]
      have hparent : p.parent? = some (p.upTo (trimFillers before.reverse)) := by
        unfold parent?
        rw [htrimmed]
        rfl
      refine ⟨p.headNames ++ (trimFillers before.reverse).filter (· ≠ []),
        between.filter (· ≠ []), ?_, dots_of_fillers hbetween,
        directoryText_of_parent hcut hparent⟩
      rw [hinit, List.append_assoc, ← List.filter_append, ← hbefore]

end Path

/-! ## Following all names but the last -/

namespace FileSystem

variable {fs : FileSystem} {p : Path} {dir : Location} {name : List Char}

/-- A directory was found, in which names may be looked up. -/
def Opens (fs : FileSystem) (dir : Location) (r : Arrived) : Prop :=
  ∃ e asks, r = .ok ⟨.entry dir e, asks⟩ ∧ fs.get? dir = some e ∧ e.isDirectory = true ∧
    e.searchable = true

/-- A path ends in a directory: at a free name in it or, in a tree, at an entry in it that is no
directory itself. -/
inductive Target.EndsIn (fs : FileSystem) (dir : Location) : Target → Prop
  | vacant (name : List Char) : EndsIn fs dir (.vacant dir name)
  | entry {name : List Char} {e : Entry} (tree : fs.IsTree) (file : e.isDirectory = false) :
      EndsIn fs dir (.entry (name :: dir) e)

theorem entry_endsIn_iff {loc : Location} {e : Entry} :
    (Target.entry loc e).EndsIn fs dir ↔
      fs.IsTree ∧ e.isDirectory = false ∧ ∃ name, loc = name :: dir := by
  constructor
  · intro h
    cases h with
    | entry tree file => exact ⟨tree, file, _, rfl⟩
  · rintro ⟨tree, file, name, rfl⟩
    exact .entry tree file

/-- The last name of a path that ends in a directory is not `.`. -/
theorem walkNames_last {jump : Location → Path → List (List Char) → Arrived}
    (hjump : ∀ start goal rest arrival, rest ≠ [] → jump start goal rest = .ok arrival →
      arrival.target.EndsIn fs dir → rest.getLast? ≠ some ['.'])
    {asks : Bool} {start : Location} {names : List (List Char)} {arrival : Arrival}
    (hsome : names ≠ []) (h : fs.walkNames jump false asks start names = .ok arrival)
    (hends : arrival.target.EndsIn fs dir) : names.getLast? ≠ some ['.'] := by
  induction names generalizing start with
  | nil => contradiction
  | cons first rest ih =>
      by_cases hrest : rest = []
      · subst hrest
        intro hlast
        obtain rfl : first = ['.'] := by simpa using hlast
        have opened := searchable_of_walkNames h
        rw [walkNames_dot opened] at h
        obtain ⟨e, hstart, hdirectory, -⟩ := opened
        simp only [walkNames, hstart, Except.ok.injEq] at h
        subst h
        have hfile := (entry_endsIn_iff.mp hends).2.1
        simp [hdirectory] at hfile
      · rw [List.getLast?_cons_of_ne_nil hrest]
        rw [walkNames_cons] at h
        have hcomes := comesTo_onward fs false asks start first rest.isEmpty
        generalize fs.onward false asks start first rest.isEmpty = o at h hcomes
        cases hcomes with
        | refused => contradiction
        | here => exact ih hrest h
        | above => exact ih hrest h
        | vacant opened proper free ends => exact absurd (List.isEmpty_iff.mp ends) hrest
        | entry opened proper there ends => exact absurd (List.isEmpty_iff.mp ends) hrest
        | inside => exact ih hrest h
        | link goal => exact hjump _ _ _ _ hrest h hends

theorem walk_last {links : Nat} {asks : Bool} {start : Location} {names : List (List Char)}
    {arrival : Arrival} (hsome : names ≠ [])
    (h : fs.walk false links asks start names = .ok arrival)
    (hends : arrival.target.EndsIn fs dir) : names.getLast? ≠ some ['.'] := by
  induction links generalizing asks start names arrival with
  | zero => exact walkNames_last (fun _ _ _ _ _ hjump => by contradiction) hsome h hends
  | succ links ih =>
      refine walkNames_last (fun start goal rest found hrest hjump hfound => ?_) hsome h hends
      have hlast := ih (List.append_ne_nil_of_right_ne_nil _ hrest) hjump hfound
      rw [List.getLast?_append, List.getLast?_eq_some_getLast hrest] at hlast
      rwa [List.getLast?_eq_some_getLast hrest]

/-- A last name is followed from the directory that the path ends in, also behind some `.`. -/
theorem opens_of_last {jump : Location → Path → List (List Char) → Arrived} {last : List Char}
    {dots : List (List Char)} (hdots : ∀ part ∈ dots, part = ['.']) {asks : Bool}
    {start : Location} {arrival : Arrival} (hlast : last ≠ ['.'])
    (h : fs.walkNames jump false asks start (dots ++ [last]) = .ok arrival)
    (hends : arrival.target.EndsIn fs dir) : start = dir ∧ fs.Searchable start := by
  induction dots with
  | nil =>
      rw [List.nil_append, walkNames_cons] at h
      have hcomes := comesTo_onward fs false asks start last true
      rw [List.isEmpty_nil] at h
      generalize fs.onward false asks start last true = o at h hcomes
      cases hcomes with
      | refused => contradiction
      | here opened dot => exact absurd dot hlast
      | above opened dots =>
          -- what lies above a directory is one, so nothing ends at `..`
          simp only [walkNames] at h
          split at h
          · contradiction
          · rename_i found hfound
            cases h
            obtain ⟨htree, hfile, -⟩ := entry_endsIn_iff.mp hends
            obtain ⟨e, hstart, -⟩ := opened
            obtain ⟨d, hd, hproper⟩ := htree.above hstart
            rw [hfound] at hd
            cases hd
            simp [hfile] at hproper
      | vacant opened =>
          cases h
          cases hends
          exact ⟨rfl, opened⟩
      | entry opened =>
          cases h
          cases hends
          exact ⟨rfl, opened⟩
      | inside opened proper there goes => contradiction
      | link goal opened proper followed => simp at followed
  | cons first dots ih =>
      obtain rfl : first = ['.'] := hdots first List.mem_cons_self
      rw [List.cons_append] at h
      rw [walkNames_dot (searchable_of_walkNames h)] at h
      exact ih (fun part hpart => hdots part (List.mem_cons_of_mem _ hpart)) h

/-- A name that leads on to an entry leads to it also when it is the last one and links are
followed. -/
theorem onward_of_enter {asks : Bool} {start next : Location} {first : List Char}
    (h : fs.onward false asks start first false = .enter next) (asks' last : Bool) :
    fs.onward true asks' start first last = .enter next ∨
      last = true ∧ ∃ e, fs.get? next = some e ∧
        fs.onward true asks' start first last = .answer (.ok ⟨.entry next e, asks'⟩) := by
  cases hitself : fs.byItself? start first with
  | some o =>
      rw [onward_of_byItself hitself] at h ⊢
      exact .inl h
  | none =>
      rw [onward_of_byEntry hitself] at h ⊢
      rcases hchild : fs.get? (first :: start) with _ | ⟨_ | _ | goal | _, mode⟩
      case none => simp [hchild, byEntry] at h
      case some.link => simp [hchild, byEntry] at h
      all_goals
        obtain rfl : first :: start = next := by simpa [hchild, byEntry] using h
        cases last with
        | false => exact .inl rfl
        | true => exact .inr ⟨rfl, _, hchild, rfl⟩

theorem onward_of_jump {asks : Bool} {start : Location} {first : List Char} {goal : Path}
    (h : fs.onward false asks start first false = .jump goal) (asks' last : Bool) :
    fs.onward true asks' start first last = .jump goal := by
  cases hitself : fs.byItself? start first with
  | some o =>
      rw [onward_of_byItself hitself] at h ⊢
      exact h
  | none =>
      rw [onward_of_byEntry hitself] at h ⊢
      rcases hchild : fs.get? (first :: start) with _ | ⟨_ | _ | goal | _, mode⟩
      case some.link => simpa [hchild, byEntry] using h
      all_goals simp [hchild, byEntry] at h

/-- The names before the last one lead to the directory that the path ends in, whether `.` stands
between them or not. -/
theorem walkNames_init {jump jump' : Location → Path → List (List Char) → Arrived}
    {last : List Char} {dots : List (List Char)} (hdots : ∀ part ∈ dots, part = ['.'])
    (hjump : ∀ start goal above arrival,
      jump start goal (above ++ dots ++ [last]) = .ok arrival → arrival.target.EndsIn fs dir →
        Opens fs dir (jump' start goal above))
    {asks asks' : Bool} {start : Location} {above : List (List Char)} {arrival : Arrival}
    (hlast : last ≠ ['.'])
    (h : fs.walkNames jump false asks start (above ++ dots ++ [last]) = .ok arrival)
    (hends : arrival.target.EndsIn fs dir) :
    Opens fs dir (fs.walkNames jump' true asks' start above) := by
  induction above generalizing start with
  | nil =>
      obtain ⟨rfl, e, hstart, hdirectory, hsearchable⟩ := opens_of_last hdots hlast h hends
      exact ⟨e, asks', by simp [walkNames, hstart], hstart, hdirectory, hsearchable⟩
  | cons first above ih =>
      have hsome : (above ++ dots ++ [last]).isEmpty = false := by simp
      rw [List.cons_append, List.cons_append, walkNames_cons, hsome] at h
      rw [walkNames_cons]
      cases hnext : fs.onward false asks start first false with
      | answer r =>
          -- a name with others behind it answers for the whole path by refusing it
          have hcomes := comesTo_onward fs false asks start first false
          rw [hnext] at h hcomes
          cases hcomes with
          | refused => contradiction
          | vacant opened proper free ends => contradiction
          | entry opened proper there ends => contradiction
      | enter next =>
          rw [hnext] at h
          have hopens := ih h
          rcases onward_of_enter hnext asks' above.isEmpty with
            hsame | ⟨hnone, e, hchild, hfound⟩
          · rw [hsame]
            exact hopens
          · obtain rfl : above = [] := List.isEmpty_iff.mp hnone
            rw [hfound]
            simpa [walkNames, hchild] using hopens
      | jump goal =>
          rw [hnext] at h
          rw [onward_of_jump hnext]
          exact hjump _ _ _ _ h hends

theorem walk_init {links : Nat} {asks asks' : Bool} {start : Location}
    {above dots : List (List Char)} {last : List Char} {arrival : Arrival}
    (hdots : ∀ part ∈ dots, part = ['.']) (hlast : last ≠ ['.'])
    (h : fs.walk false links asks start (above ++ dots ++ [last]) = .ok arrival)
    (hends : arrival.target.EndsIn fs dir) :
    Opens fs dir (fs.walk true links asks' start above) := by
  induction links generalizing asks asks' start above arrival with
  | zero => exact walkNames_init hdots (fun _ _ _ _ hjump => by contradiction) hlast h hends
  | succ links ih =>
      refine walkNames_init hdots (fun start goal above found hjump hfound => ?_) hlast h hends
      rw [← List.append_assoc, ← List.append_assoc] at hjump
      exact ih hjump hfound

theorem lookup_of_opens (h : Opens fs dir (fs.arrive true p)) :
    ∃ e, fs.lookup p = .ok (dir, e) ∧ e.isDirectory = true := by
  obtain ⟨e, asks, harrive, -, hdirectory, -⟩ := h
  exact ⟨e, by simp [lookup, lookupLink, harrive, hdirectory], hdirectory⟩

theorem arrive_here (h : Opens fs dir (fs.walk true linkLimit false fs.here [])) :
    Opens fs dir (fs.arrive true Path.here) := by
  obtain ⟨e, asks, hwalk, hdir, hdirectory, hsearchable⟩ := h
  have hstart : fs.here = dir := by
    simp only [linkLimit, walk, walkNames] at hwalk
    split at hwalk
    · contradiction
    · simp only [Except.ok.injEq, Arrival.mk.injEq, Target.entry.injEq] at hwalk
      exact hwalk.1.1
  subst hstart
  refine ⟨e, false, ?_, hdir, hdirectory, hsearchable⟩
  have htext : fs.arrive true Path.here = fs.walk true linkLimit false fs.here [['.']] := rfl
  rw [htext]
  simp only [linkLimit, walk]
  rw [walkNames_dot ⟨e, hdir, hdirectory, hsearchable⟩]
  simp [walkNames, hdir]

theorem isAbsolute_of_no_names (hnamed : p.chars ≠ []) (h : names p = []) :
    p.isAbsolute = true := by
  obtain ⟨c, rest, hchars⟩ := List.exists_cons_of_ne_nil hnamed
  by_cases hc : c = '/'
  · simp [Path.isAbsolute, hchars, hc]
  · exfalso
    rw [names, hchars, Path.split, if_neg hc] at h
    split at h <;> simp at h

/-- A path that ends in a directory has a last name, which is not `.`. -/
theorem last_name_of_endsIn {asks : Bool} {arrival : Arrival} (hnamed : p.chars ≠ [])
    (h : fs.walk false linkLimit asks (startOf p fs.here) (names p) = .ok arrival)
    (hends : arrival.target.EndsIn fs dir) :
    ∃ init last, names p = init ++ [last] ∧ last ≠ ['.'] := by
  have hsome : names p ≠ [] := by
    intro hnone
    -- without names the path is the root, which lies in no other directory
    have hroot : startOf p fs.here = [] := by
      simp [startOf, isAbsolute_of_no_names hnamed hnone]
    simp only [hnone, hroot, linkLimit, walk, walkNames] at h
    split at h
    · contradiction
    · cases h
      cases hends
  have hproper := walk_last hsome h hends
  refine ⟨_, _, (List.dropLast_concat_getLast hsome).symm, fun hdot => hproper ?_⟩
  rw [List.getLast?_eq_some_getLast hsome, hdot]

/-- The text of a path's directory leads to the directory that the path ends in. -/
theorem lookup_directory_of_endsIn {arrival : Arrival} (h : fs.arrive false p = .ok arrival)
    (hends : arrival.target.EndsIn fs dir) :
    ∃ e, fs.lookup p.directory = .ok (dir, e) ∧ e.isDirectory = true := by
  unfold arrive at h
  split at h
  · contradiction
  rename_i hnul
  split at h
  · contradiction
  rename_i hempty
  split at h
  · contradiction
  rename_i hlong
  obtain ⟨init, last, hnames, hlast⟩ := last_name_of_endsIn hempty h hends
  obtain ⟨above, dots, rfl, hdots, htext⟩ := Path.directory_text hnames hlast
  rw [hnames] at h
  apply lookup_of_opens
  cases htext with
  | here hdirectory hrelative =>
      have hstart : startOf p fs.here = fs.here := by simp [startOf, hrelative]
      rw [hstart] at h
      rw [hdirectory]
      exact arrive_here (walk_init hdots hlast h hends)
  | cut hfront hfull =>
      have hstart : startOf p.directory fs.here = startOf p fs.here := by
        rw [startOf, startOf, Path.isAbsolute_of_prefix hfront hfull]
      have hclean : '\x00' ∉ p.directory.chars := fun hmem => hnul (hfront.subset hmem)
      have hshort : ¬ pathLimit ≤ Path.byteLength p.directory.chars := by
        obtain ⟨behind, hbehind⟩ := hfront
        have hlength := Path.byteLength_append p.directory.chars behind
        rw [hbehind] at hlength
        omega
      rw [arrive, if_neg hclean, if_neg hfull, if_neg hshort, hstart]
      exact walk_init hdots hlast h hends

/-- The text of a path's directory leads to the directory in which the path leads to a free name. -/
theorem lookup_directory {asks : Bool} (h : fs.arrive false p = .ok ⟨.vacant dir name, asks⟩) :
    ∃ e, fs.lookup p.directory = .ok (dir, e) ∧ e.isDirectory = true :=
  lookup_directory_of_endsIn h (.vacant name)

/-- In a tree, what a path leads to lies where the text of its directory leads, unless it is a
directory. -/
theorem lookup_directory_of_file {loc : Location} {e : Entry} (htree : fs.IsTree)
    (h : fs.lookupLink false p = .ok (loc, e)) (hfile : e.isDirectory = false) :
    ∃ d, fs.lookup p.directory = .ok (loc.tail, d) ∧ d.isDirectory = true := by
  obtain ⟨asks, harrive⟩ := arrive_of_lookupLink h
  cases loc with
  | nil =>
      obtain ⟨d, hd, hproper⟩ := htree.above (holds_of_lookupLink h)
      rw [List.tail_nil, holds_of_lookupLink h] at hd
      cases hd
      simp [hfile] at hproper
  | cons name dir => exact lookup_directory_of_endsIn harrive (.entry htree hfile)

/-- What a path leads to is what it leads to among more entries. -/
theorem Grows.lookup {fs' : FileSystem} (hgrows : Grows fs fs') {loc : Location} {e : Entry}
    (h : fs.lookup p = .ok (loc, e)) : fs'.lookup p = .ok (loc, e) :=
  hgrows.lookupLink h

theorem isDirectory_iff :
    fs.isDirectory p = true ↔ ∃ loc e, fs.lookup p = .ok (loc, e) ∧ e.isDirectory = true := by
  unfold isDirectory
  cases fs.lookup p with
  | error e => simp
  | ok found =>
      obtain ⟨loc, e⟩ := found
      simp [and_assoc]

end FileSystem

end PluginKit
