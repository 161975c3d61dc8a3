import PluginKit.Proofs.CommandLine.Occurrence

/-!
# What options add up to

The values that a list of options gives depend on the values of each option alone, in their order:
how different options are mixed does not matter.
-/

namespace PluginKit

namespace CommandLine

/-! ## Directories between commas -/

theorem pieces_of_commaless {text : List Char} (h : ',' ∉ text) : pieces text = [text] := by
  induction text with
  | nil => rfl
  | cons c rest ih =>
      obtain ⟨hc, hrest⟩ : ',' ≠ c ∧ ',' ∉ rest := by simpa using h
      simp [pieces, hc.symm, ih hrest]

theorem pieces_append {text : List Char} (h : ',' ∉ text) (rest : List Char) :
    pieces (text ++ ',' :: rest) = text :: pieces rest := by
  induction text with
  | nil => simp [pieces]
  | cons c more ih =>
      obtain ⟨hc, hmore⟩ : ',' ≠ c ∧ ',' ∉ more := by simpa using h
      simp [pieces, hc.symm, ih hmore]

theorem pieces_intercalate {texts : List (List Char)} (hsome : texts ≠ [])
    (h : ∀ text ∈ texts, ',' ∉ text) : pieces (List.intercalate [','] texts) = texts := by
  induction texts with
  | nil => contradiction
  | cons text rest ih =>
      have htext := h text List.mem_cons_self
      cases rest with
      | nil => simpa using pieces_of_commaless htext
      | cons next more =>
          rw [List.intercalate_cons_cons, List.append_assoc, List.singleton_append,
            pieces_append htext, ih (by simp) fun q hq => h q (List.mem_cons_of_mem _ hq)]

def directoriesIn (value : String) : List Path :=
  (pieces value.toList).map Path.mk

def joinDirectories (dirs : List Path) : String :=
  String.ofList (List.intercalate [','] (dirs.map Path.chars))

theorem directoriesIn_joinDirectories {dirs : List Path} (hsome : dirs ≠ [])
    (h : ∀ dir ∈ dirs, ',' ∉ dir.chars) : directoriesIn (joinDirectories dirs) = dirs := by
  have htexts : ∀ text ∈ dirs.map Path.chars, ',' ∉ text := by
    intro text htext
    obtain ⟨dir, hdir, rfl⟩ := List.mem_map.mp htext
    exact h dir hdir
  rw [directoriesIn, joinDirectories, String.toList_ofList,
    pieces_intercalate (by simpa using hsome) htexts, List.map_map]
  exact List.map_id dirs

theorem isPlain_joinDirectories {dirs : List Path} (hsome : dirs ≠ [])
    (h : ∀ dir ∈ dirs, isPlain dir.chars = true) :
    isPlain (joinDirectories dirs).toList = true := by
  obtain ⟨dir, rest, rfl⟩ := List.exists_cons_of_ne_nil hsome
  have hfirst := h dir List.mem_cons_self
  rw [joinDirectories, String.toList_ofList, List.map_cons]
  cases hchars : dir.chars with
  | nil => simp [isPlain, hchars] at hfirst
  | cons c more =>
      cases rest with
      | nil => simpa [isPlain, hchars] using hfirst
      | cons next rest => simpa [isPlain, hchars, List.intercalate_cons_cons] using hfirst

/-! ## Adding values -/

def values (option : Opt) (occurrences : List Occurrence) : List String :=
  (occurrences.filter (·.option = option)).map (·.value)

theorem values_append (option : Opt) (before after : List Occurrence) :
    values option (before ++ after) = values option before ++ values option after := by
  simp [values]

theorem values_singleton (option : Opt) (o : Occurrence) :
    values option [o] = if o.option = option then [o.value] else [] := by
  unfold values
  by_cases h : o.option = option <;> simp [h]

theorem mem_values {o : Occurrence} {occurrences : List Occurrence} (h : o ∈ occurrences) :
    o.value ∈ values o.option occurrences := by
  unfold values
  exact List.mem_map.mpr ⟨o, List.mem_filter.mpr ⟨h, by simp⟩, rfl⟩

def gathered (occurrences : List Occurrence) : Given where
  logPath := (values .logPath occurrences).head?.map Path.ofString
  kind := (values .kind occurrences).head?.bind PluginKind.ofArgument?
  name := (values .name occurrences).head?
  registrationDirs :=
    if values .registrationDir occurrences = [] then none
    else some ((values .registrationDir occurrences).flatMap directoriesIn)
  config := (values .config occurrences).head?.map Path.ofString

/-- A value that an option of the serving command takes. -/
def Takes (option : Opt) (value : String) : Prop :=
  match option with
  | .logPath | .config => value.toList ≠ []
  | .kind => (PluginKind.ofArgument? value).isSome = true
  | .name => True
  | .registrationDir => [] ∉ pieces value.toList
  | .socket | .timeout => False

theorem readPath_of_ne_nil (option : Opt) {value : List Char} (h : value ≠ []) :
    Given.readPath option value = .ok ⟨value⟩ := by
  simp [Given.readPath, h]

theorem mapM_readPath (option : Opt) {texts : List (List Char)} (h : [] ∉ texts) :
    texts.mapM (Given.readPath option) = .ok (texts.map Path.mk) := by
  induction texts with
  | nil => rfl
  | cons text rest ih =>
      obtain ⟨htext, hrest⟩ : [] ≠ text ∧ [] ∉ rest := by simpa using h
      rw [List.mapM_cons, readPath_of_ne_nil option htext.symm, ih hrest]
      rfl

theorem put_registrationDir (g : Given) {value : String} (h : [] ∉ pieces value.toList) :
    g.put .registrationDir value =
      .ok { g with
        registrationDirs := some (g.registrationDirs.getD [] ++ directoriesIn value) } := by
  simp [Given.put, mapM_readPath _ h, bind, Except.bind, directoriesIn]

theorem put_logPath (g : Given) {value : String} (h : value.toList ≠ []) :
    g.put .logPath value = .ok { g with logPath := some (.ofString value) } := by
  simp [Given.put, readPath_of_ne_nil _ h, bind, Except.bind, Path.ofString]

theorem put_config (g : Given) {value : String} (h : value.toList ≠ []) :
    g.put .config value = .ok { g with config := some (.ofString value) } := by
  simp [Given.put, readPath_of_ne_nil _ h, bind, Except.bind, Path.ofString]

theorem put_kind (g : Given) {value : String} {kind : PluginKind}
    (h : PluginKind.ofArgument? value = some kind) :
    g.put .kind value = .ok { g with kind := some kind } := by
  simp [Given.put, Given.readKind, h, bind, Except.bind]

theorem add_of_first {g : Given} {option : Opt} (hnew : g.has option = false) (value : String) :
    g.add option value = g.put option value := by
  simp [Given.add, hnew]

theorem add_gathered {before : List Occurrence} {o : Occurrence}
    (hfirst : o.option ≠ .registrationDir → values o.option before = [])
    (htakes : Takes o.option o.value) :
    (gathered before).add o.option o.value = .ok (gathered (before ++ [o])) := by
  obtain ⟨option, value, joined⟩ := o
  have hvalues : ∀ other, values other (before ++ [⟨option, value, joined⟩]) =
      values other before ++ if option = other then [value] else [] := fun other => by
    rw [values_append, values_singleton]
  simp only at hfirst htakes ⊢
  cases option with
  | socket => exact absurd htakes id
  | timeout => exact absurd htakes id
  | registrationDir =>
      rw [Given.add, if_neg (by simp), put_registrationDir _ htakes]
      by_cases hnone : values .registrationDir before = []
      · simp [gathered, hvalues, hnone]
      · simp [gathered, hvalues, hnone]
  | logPath =>
      have hnone := hfirst (by decide)
      rw [add_of_first (by simp [Given.has, gathered, hnone]), put_logPath _ htakes]
      simp [gathered, hvalues, hnone]
  | kind =>
      have hnone := hfirst (by decide)
      obtain ⟨kind, hkind⟩ := Option.isSome_iff_exists.mp htakes
      rw [add_of_first (by simp [Given.has, gathered, hnone]), put_kind _ hkind]
      simp [gathered, hvalues, hnone, hkind]
  | name =>
      have hnone := hfirst (by decide)
      rw [add_of_first (by simp [Given.has, gathered, hnone]), Given.put]
      simp [gathered, hvalues, hnone]
  | config =>
      have hnone := hfirst (by decide)
      rw [add_of_first (by simp [Given.has, gathered, hnone]), put_config _ htakes]
      simp [gathered, hvalues, hnone]

/-- Options that can be read together: only directories may be given more than once, and each value is
one that its option takes and that can stand in an argument of its own. -/
structure Compatible (occurrences : List Occurrence) : Prop where
  once : ∀ option, option ≠ .registrationDir → (values option occurrences).length ≤ 1
  takes : ∀ o ∈ occurrences, Takes o.option o.value
  plain : ∀ o ∈ occurrences, isPlain o.value.toList = true

theorem Compatible.first {before after : List Occurrence} {o : Occurrence}
    (h : Compatible (before ++ o :: after)) (hoption : o.option ≠ .registrationDir) :
    values o.option before = [] := by
  have honce := h.once o.option hoption
  rw [values_append, List.length_append] at honce
  have hlast : 0 < (values o.option (o :: after)).length :=
    List.length_pos_of_mem (mem_values List.mem_cons_self)
  exact List.eq_nil_of_length_eq_zero (by omega)

theorem readAll_gathered {s : Scope} {r : Reading} {before after : List Occurrence}
    (hholds : r.Holds (gathered before)) (h : Compatible (before ++ after))
    (hoptions : ∀ o ∈ after, o.option ∈ s.options) :
    ∃ r', Reading.Holds r' (gathered (before ++ after)) ∧
      Reading.readAll s r (after.flatMap Occurrence.arguments) = .ok r' := by
  induction after generalizing r before with
  | nil => exact ⟨r, by rwa [List.append_nil], rfl⟩
  | cons o rest ih =>
      have hmem : o ∈ before ++ o :: rest := List.mem_append_right _ List.mem_cons_self
      have hadd := add_gathered h.first (h.takes o hmem)
      obtain ⟨next, hnext, hread⟩ := hholds.readAll (hoptions o List.mem_cons_self)
        (h.plain o hmem) hadd (rest.flatMap Occurrence.arguments)
      rw [List.append_cons] at h
      obtain ⟨last, hlast, hrest⟩ := ih hnext h fun q hq => hoptions q (List.mem_cons_of_mem _ hq)
      rw [List.append_cons, List.flatMap_cons, hread]
      exact ⟨last, hlast, hrest⟩

theorem parseFrom_gathered (env : Environment) {r : Reading} {before after : List Occurrence}
    (hholds : r.Holds (gathered before)) (h : Compatible (before ++ after))
    (hoptions : ∀ o ∈ after, o.option = .logPath) (rest : List String) :
    ∃ r', Reading.Holds r' (gathered (before ++ after)) ∧
      parseFrom env r (after.flatMap Occurrence.arguments ++ rest) = parseFrom env r' rest := by
  induction after generalizing r before with
  | nil => exact ⟨r, by rwa [List.append_nil], rfl⟩
  | cons o more ih =>
      have hmem : o ∈ before ++ o :: more := List.mem_append_right _ List.mem_cons_self
      have hadd := add_gathered h.first (h.takes o hmem)
      obtain ⟨next, hnext, hread⟩ := parseFrom_occurrence env hholds
        (hoptions o List.mem_cons_self) (h.plain o hmem) hadd
        (more.flatMap Occurrence.arguments ++ rest)
      rw [List.append_cons] at h
      obtain ⟨last, hlast, hrest⟩ := ih hnext h fun q hq => hoptions q (List.mem_cons_of_mem _ hq)
      refine ⟨last, by rwa [List.append_cons], ?_⟩
      rw [List.flatMap_cons, List.append_assoc, hread, hrest]

end CommandLine

end PluginKit
