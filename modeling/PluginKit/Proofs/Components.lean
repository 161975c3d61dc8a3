import PluginKit.Proofs.FileSystem.Directory

/-!
# The components of joined paths and of directories

Joining puts the components of the second path behind those of the first, and the directory of a path
has all of its components but the last.
-/

namespace PluginKit

namespace Path

variable {p q : Path} {before after : List (List Char)}

/-! ## Components as parts between slashes -/

theorem split_append (a b : List Char) : split (a ++ '/' :: b) = split a ++ split b := by
  induction a with
  | nil => rfl
  | cons c rest ih =>
      by_cases hc : c = '/'
      · simp [split, hc, ih]
      · obtain ⟨part, more, hrest⟩ := List.exists_cons_of_ne_nil (split_ne_nil rest)
        simp [split, hc, ih, hrest]

/-- Characters without a slash lengthen the last part. -/
theorem split_append_slashless (text : List Char) {more : List Char} (h : '/' ∉ more) :
    split (text ++ more) =
      (split text).dropLast ++ [(split text).getLast (split_ne_nil text) ++ more] := by
  induction text with
  | nil => simp [split, split_of_slashless h]
  | cons c rest ih =>
      by_cases hc : c = '/'
      · obtain ⟨part, parts, hrest⟩ := List.exists_cons_of_ne_nil (split_ne_nil rest)
        simp [split, hc, ih, hrest]
      · cases hrest : split rest with
        | nil => exact absurd hrest (split_ne_nil rest)
        | cons part parts =>
            cases parts with
            | nil => simp [split, hc, ih, hrest]
            | cons second parts => simp [split, hc, ih, hrest]

theorem filterMap_component?_of_fillers {parts : List (List Char)}
    (h : ∀ part ∈ parts, isFiller part = true) : parts.filterMap component? = [] := by
  rw [List.filterMap_eq_nil_iff]
  intro part hpart
  simp [component?, h part hpart]

theorem component?_eq_none_iff {part : List Char} :
    component? part = none ↔ isFiller part = true := by
  unfold component?
  split
  · simp_all
  · split <;> simp_all

theorem eq_of_component?_normal {part name : List Char}
    (h : component? part = some (.normal name)) : part = name := by
  unfold component? at h
  split at h
  · contradiction
  · split at h <;> cases h
    rfl

theorem component?_ne_current (part : List Char) : component? part ≠ some .current := by
  unfold component?
  split
  · simp
  · split <;> simp

theorem component?_ne_root (part : List Char) : component? part ≠ some .root := by
  unfold component?
  split
  · simp
  · split <;> simp

theorem current_not_mem_filterMap (parts : List (List Char)) :
    Component.current ∉ parts.filterMap component? := by
  rw [List.mem_filterMap]
  rintro ⟨part, -, hpart⟩
  exact component?_ne_current part hpart

/-- Whether a path begins with a slash or with a `.` shows in the first of its parts. -/
theorem startsHere_iff : p.startsHere = true ↔ (split p.chars).head? = some ['.'] := by
  obtain ⟨chars⟩ := p
  cases chars with
  | nil => simp [startsHere, split]
  | cons c rest =>
      by_cases hc : c = '/'
      · simp [startsHere, split, hc]
      · cases rest with
        | nil => simp [startsHere, split, hc]
        | cons d more =>
            by_cases hd : d = '/'
            · simp [startsHere, split, hc, hd]
            · cases hmore : split more with
              | nil => exact absurd hmore (split_ne_nil more)
              | cons part parts => simp [startsHere, split, hc, hd, hmore]

theorem components_eq_split (p : Path) :
    p.components = p.headComponent?.toList ++ (split p.chars).filterMap component? := by
  unfold components parts headLength
  cases habsolute : p.isAbsolute with
  | true =>
      obtain ⟨rest, hchars⟩ := chars_of_isAbsolute habsolute
      simp [hchars, split, component?, isFiller]
  | false =>
      cases hhere : p.startsHere with
      | false => simp
      | true =>
          rcases chars_of_startsHere hhere with hchars | ⟨rest, hchars⟩
          · simp [hchars, split, component?, isFiller]
          · simp [hchars, split, component?, isFiller]

theorem components_eq_nil_iff : p.components = [] ↔ p.chars = [] := by
  constructor
  · intro h
    cases hchars : p.chars with
    | nil => rfl
    | cons c rest =>
        exfalso
        obtain ⟨hhead, hparts⟩ := List.append_eq_nil_iff.mp (p.components_eq_split ▸ h)
        have hc : c ≠ '/' := by
          rintro rfl
          simp [headComponent?, isAbsolute, hchars] at hhead
        obtain ⟨part, more, hrest⟩ := List.exists_cons_of_ne_nil (split_ne_nil rest)
        have hsplit : split p.chars = (c :: part) :: more := by simp [hchars, split, hc, hrest]
        -- the first part is not empty, so it can only be the `.` that the path begins with
        have hfiller : isFiller (c :: part) = true := by
          rw [List.filterMap_eq_nil_iff] at hparts
          exact component?_eq_none_iff.mp (hparts _ (hsplit ▸ List.mem_cons_self))
        have hstart : p.startsHere = true := by
          rw [startsHere_iff, hsplit]
          simpa [isFiller] using hfiller
        unfold headComponent? at hhead
        rw [hstart] at hhead
        split at hhead <;> simp at hhead
  · intro h
    simp [components_eq_split, headComponent?, isAbsolute, startsHere, h, split, component?,
      isFiller]

/-! ## Joining -/

theorem isAbsolute_append (h : p.chars ≠ []) (more : List Char) :
    (⟨p.chars ++ more⟩ : Path).isAbsolute = p.isAbsolute := by
  obtain ⟨c, rest, hchars⟩ := List.exists_cons_of_ne_nil h
  simp [isAbsolute, hchars]

theorem headComponent?_append_slash (h : p.chars ≠ []) (more : List Char) :
    (⟨p.chars ++ '/' :: more⟩ : Path).headComponent? = p.headComponent? := by
  have hhere : (⟨p.chars ++ '/' :: more⟩ : Path).startsHere = p.startsHere := by
    obtain ⟨part, parts, hparts⟩ := List.exists_cons_of_ne_nil (split_ne_nil p.chars)
    rw [Bool.eq_iff_iff, startsHere_iff, startsHere_iff, split_append, hparts]
    rfl
  unfold headComponent?
  rw [isAbsolute_append h, hhere]

theorem components_append_slash (h : p.chars ≠ []) (more : List Char) :
    (⟨p.chars ++ '/' :: more⟩ : Path).components =
      p.components ++ (split more).filterMap component? := by
  rw [components_eq_split, components_eq_split p, headComponent?_append_slash h, split_append,
    List.filterMap_append, List.append_assoc]

/-- A slash at the end of a path means nothing, unless it is the whole path. -/
theorem components_append_of_slash {more : List Char} (h : p.chars.getLast? = some '/') :
    (⟨p.chars ++ more⟩ : Path).components =
      p.components ++ (split more).filterMap component? := by
  obtain ⟨front, hchars⟩ := List.getLast?_eq_some_iff.mp h
  have hjoined : p.chars ++ more = front ++ '/' :: more := by simp [hchars]
  have hself : p = ⟨front ++ '/' :: []⟩ := by rw [← hchars]
  rw [hjoined]
  by_cases hfront : front = []
  · subst hfront
    simp [hself, components_eq_split, headComponent?, isAbsolute, split, component?, isFiller]
  · have hsome : (⟨front⟩ : Path).chars ≠ [] := hfront
    have hslash := components_append_slash hsome []
    rw [hself, hslash, components_append_slash hsome more]
    simp [split, component?, isFiller]

theorem isAbsolute_of_slashless (h : '/' ∉ p.chars) : p.isAbsolute = false := by
  cases habsolute : p.isAbsolute with
  | false => rfl
  | true =>
      obtain ⟨rest, hchars⟩ := chars_of_isAbsolute habsolute
      have hslash : '/' ∈ p.chars := hchars ▸ List.mem_cons_self
      exact absurd hslash h

/-- What a relative path says is put behind the path it is joined to. -/
theorem components_join (h : p.chars ≠ []) (hrelative : q.isAbsolute = false) :
    (p.join q).components = p.components ++ (split q.chars).filterMap component? := by
  obtain ⟨last, hlast⟩ := Option.ne_none_iff_exists'.mp
    (fun hnone => h (List.getLast?_eq_none_iff.mp hnone) : p.chars.getLast? ≠ none)
  simp only [join, hrelative, hlast, Bool.false_eq_true, if_false]
  split
  · rename_i hslash
    exact components_append_of_slash (hslash ▸ hlast)
  · exact components_append_slash h q.chars

/-! ## Directories -/

theorem headComponent?_upTo (h : p.parts = before ++ after) :
    (p.upTo before).headComponent? = p.headComponent? := by
  cases habsolute : p.isAbsolute with
  | true =>
      obtain ⟨rest, hchars⟩ := chars_of_isAbsolute habsolute
      simp [headComponent?, upTo, headLength, isAbsolute, hchars]
  | false =>
      cases hhere : p.startsHere with
      | true =>
          rcases chars_of_startsHere hhere with hchars | ⟨rest, hchars⟩
          · have hparts : [[]] = before ++ after := by
              simpa [parts, headLength, habsolute, hhere, hchars, split] using h
            have hnone : unsplit before = [] := by
              rcases List.singleton_eq_append_iff.mp hparts with ⟨rfl, -⟩ | ⟨rfl, -⟩ <;> rfl
            simp [upTo, headLength, hchars, hnone, headComponent?, isAbsolute, startsHere]
          · have hparts : [] :: split rest = before ++ after := by
              simpa [parts, headLength, habsolute, hhere, hchars, split] using h
            rcases before with _ | ⟨first, _ | ⟨second, more⟩⟩
            · simp [upTo, headLength, hchars, unsplit, headComponent?, isAbsolute, startsHere]
            · obtain rfl : first = [] := (List.cons.inj hparts).1.symm
              simp [upTo, headLength, hchars, unsplit, headComponent?, isAbsolute, startsHere]
            · obtain rfl : first = [] := (List.cons.inj hparts).1.symm
              simp [upTo, headLength, hchars, unsplit, headComponent?, isAbsolute, startsHere]
      | false =>
          have hsplit : split p.chars = before ++ after := by
            simpa [parts, headLength, habsolute, hhere] using h
          have hchars : (p.upTo before).chars = unsplit before := by
            simp [upTo, headLength, habsolute, hhere]
          have hnone : p.headComponent? = none := by simp [headComponent?, habsolute, hhere]
          rw [hnone]
          by_cases hempty : unsplit before = []
          · simp [headComponent?, isAbsolute, startsHere, hchars, hempty]
          · have hsome : (p.upTo before).chars ≠ [] := hchars ▸ hempty
            have hleading := upTo_prefix h
            have hrelative : (p.upTo before).isAbsolute = false := by
              rw [← habsolute]
              exact isAbsolute_of_prefix hleading hsome
            have hparts : split (unsplit before) = before := by
              refine split_unsplit (fun hnil => hempty (hnil ▸ rfl)) fun part hpart => ?_
              have hmem : part ∈ split p.chars := hsplit ▸ List.mem_append_left after hpart
              exact slash_not_mem_of_split hmem
            have hstarts : (p.upTo before).startsHere = false := by
              rw [Bool.eq_false_iff, ne_eq, startsHere_iff, hchars, hparts]
              intro hhead
              have hfirst : p.startsHere = true := by
                rw [startsHere_iff, hsplit, List.head?_append, hhead]
                rfl
              simp [hhere] at hfirst
            simp [headComponent?, hrelative, hstarts]

theorem filterMap_component?_filter (parts : List (List Char)) :
    (parts.filter (· ≠ [])).filterMap component? = parts.filterMap component? := by
  induction parts with
  | nil => rfl
  | cons part more ih =>
      by_cases hempty : part = []
      · simpa [hempty, component?, isFiller] using ih
      · rw [List.filter_cons_of_pos (by simpa using hempty), List.filterMap_cons,
          List.filterMap_cons, ih]

theorem components_upTo (h : p.parts = before ++ after) :
    (p.upTo before).components = p.headComponent?.toList ++ before.filterMap component? := by
  have hhead : p.headNames.filterMap component? = [] := by
    apply filterMap_component?_of_fillers
    intro part hpart
    rw [dots_of_headNames part hpart]
    rfl
  have hnames := congrArg (List.filterMap component?) (names_upTo h)
  rw [FileSystem.names, filterMap_component?_filter, List.filterMap_append, hhead,
    List.nil_append, filterMap_component?_filter] at hnames
  rw [components_eq_split, headComponent?_upTo h, hnames]

/-- The fillers at the end of a path are none of its components. -/
theorem components_of_trimmed (p : Path) :
    p.components =
      p.headComponent?.toList ++ (trimFillers p.parts).filterMap component? := by
  obtain ⟨⟨fillers, hparts, hfillers⟩, -⟩ := trimFillers_spec p.parts
  have htrimmed := congrArg (List.filterMap component?) hparts
  rw [List.filterMap_append, filterMap_component?_of_fillers hfillers, List.append_nil] at htrimmed
  rw [components, htrimmed]

theorem parent?_of_trimmed_nil (h : trimFillers p.parts = []) :
    p.parent? = if p.startsHere && !p.isAbsolute then some ⟨[]⟩ else none := by
  rw [parent?, h]
  rfl

theorem parent?_of_trimmed {name : List Char} (h : (trimFillers p.parts).reverse = name :: before) :
    p.parent? = some (p.upTo (trimFillers before.reverse)) := by
  rw [parent?, h]
  rfl

/-- The last of the proper parts of a path is its last component. -/
theorem components_of_trimmed_cons {name : List Char}
    (h : (trimFillers p.parts).reverse = name :: before) :
    ∃ last, component? name = some last ∧
      p.components = (p.upTo (trimFillers before.reverse)).components ++ [last] := by
  obtain ⟨⟨fillers, hparts, -⟩, hproper⟩ := trimFillers_spec p.parts
  obtain ⟨⟨between, hbefore, hbetween⟩, -⟩ := trimFillers_spec before.reverse
  have htrimmed : trimFillers p.parts = before.reverse ++ [name] := by
    rw [← List.reverse_reverse (trimFillers p.parts), h, List.reverse_cons]
  have hname : component? name ≠ none := by
    rw [ne_eq, component?_eq_none_iff, hproper h]
    simp
  obtain ⟨last, hlast⟩ := Option.ne_none_iff_exists'.mp hname
  have hcut : p.parts = trimFillers before.reverse ++ (between ++ [name] ++ fillers) := by
    calc p.parts = before.reverse ++ [name] ++ fillers := by rw [← htrimmed]; exact hparts
      _ = trimFillers before.reverse ++ between ++ [name] ++ fillers := by rw [← hbefore]
      _ = _ := by simp only [List.append_assoc]
  have hkept := congrArg (List.filterMap component?) hbefore
  rw [List.filterMap_append, filterMap_component?_of_fillers hbetween, List.append_nil] at hkept
  refine ⟨last, hlast, ?_⟩
  rw [components_upTo hcut, components_of_trimmed, htrimmed, List.filterMap_append, hkept,
    ← List.append_assoc]
  simp [hlast]

/-- The parent of a path has all of its components but the last. -/
theorem components_of_parent? (h : p.parent? = some q) :
    q.components = p.components.dropLast := by
  cases htrim : (trimFillers p.parts).reverse with
  | nil =>
      have hnil : trimFillers p.parts = [] := List.reverse_eq_nil_iff.mp htrim
      rw [parent?_of_trimmed_nil hnil, Option.ite_none_right_eq_some] at h
      obtain rfl : ⟨[]⟩ = q := Option.some.inj h.2
      rw [components_of_trimmed p, hnil]
      cases p.headComponent? <;> rfl
  | cons name before =>
      obtain ⟨last, -, hcomponents⟩ := components_of_trimmed_cons htrim
      rw [parent?_of_trimmed htrim] at h
      rw [hcomponents, List.dropLast_concat, Option.some.inj h]

theorem parent?_eq_none_iff :
    p.parent? = none ↔ p.components = [] ∨ p.components = [.root] := by
  cases htrim : (trimFillers p.parts).reverse with
  | nil =>
      have hnil : trimFillers p.parts = [] := List.reverse_eq_nil_iff.mp htrim
      rw [parent?_of_trimmed_nil hnil, components_of_trimmed, hnil]
      cases habsolute : p.isAbsolute <;> cases hhere : p.startsHere <;>
        simp [headComponent?, habsolute, hhere]
  | cons name before =>
      obtain ⟨last, hlast, hcomponents⟩ := components_of_trimmed_cons htrim
      rw [parent?_of_trimmed htrim, hcomponents]
      have hroot : last ≠ .root := fun heq => component?_ne_root name (heq ▸ hlast)
      simp [List.append_eq_singleton_iff, hroot]

/-- The directory of a path has all of its components but the last; where none is left it is the one
in which the path is read. -/
theorem components_directory (p : Path) :
    p.directory.components =
      if p.components.dropLast = [] then [.current] else p.components.dropLast := by
  have hhere : Path.here.components = [.current] := rfl
  unfold directory
  cases hparent : p.parent? with
  | none =>
      have hnone : p.components.dropLast = [] := by
        rcases parent?_eq_none_iff.mp hparent with h | h <;> simp [h]
      rw [if_pos hnone, ← hhere]
  | some dir =>
      rw [← components_of_parent? hparent]
      by_cases hempty : dir.chars = []
      · simp [hempty, components_eq_nil_iff.mpr hempty, hhere]
      · simp [hempty, mt components_eq_nil_iff.mp hempty]

end Path

end PluginKit
