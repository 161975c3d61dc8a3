import PluginKit.Proofs.CommandLine.Gathering

/-!
# Command lines that say what to serve

Whatever the order and the spelling of its options, a command line for serving is read as what it says,
and the environment is asked only for what it does not say.
-/

namespace PluginKit

namespace CommandLine

/-- Options in front of the command and behind it that say what to serve, in any order: the kind once,
the directories in order under as many options as one likes, and each of the others at most once. -/
structure Says (front back : List Occurrence) (kind : PluginKind) (name : Option String)
    (dirs : List Path) (config logPath : Option Path) : Prop where
  inFront : ∀ o ∈ front, o.option = .logPath
  behind : ∀ o ∈ back, o.option ∈ Verb.serve.options
  kind : values .kind back = [kind.argument]
  name : values .name back = name.toList
  directories : ∃ groups : List (List Path), groups.flatten = dirs ∧ [] ∉ groups ∧
    values .registrationDir back = groups.map joinDirectories
  config : values .config back = config.toList.map Path.toText
  logPath : values .logPath front ++ values .logPath back = logPath.toList.map Path.toText

/-- Values that can be written on a command line. -/
structure Writable (name : Option String) (dirs : List Path) (config logPath : Option Path) :
    Prop where
  name : ∀ n ∈ name, isPlain n.toList = true
  directories : ∀ dir ∈ dirs, isPlain dir.chars = true ∧ ',' ∉ dir.chars
  config : ∀ p ∈ config, isPlain p.chars = true
  logPath : ∀ p ∈ logPath, isPlain p.chars = true

/-- The variables that are looked at are valid: the one for the log path always is, the others where
the command line does not say what they would. -/
structure Environment.Valid (env : Environment) (dirs : List Path) (config : Option Path) : Prop where
  logPath : ∀ value, env.logPath = some value → value.toList ≠ []
  registrationDirs : dirs = [] → ∀ value, env.registrationDirs = some value →
    [] ∉ pieces value.toList
  config : config = none → ∀ value, env.config = some value → value.toList ≠ []

variable {env : Environment} {front back : List Occurrence} {kind : PluginKind}
  {name : Option String} {dirs : List Path} {config logPath : Option Path}

/-! ## What is said can be read -/

theorem isPlain_ne_nil {value : List Char} (h : isPlain value = true) : value ≠ [] := by
  rintro rfl
  contradiction

theorem argument_plain (kind : PluginKind) : isPlain kind.argument.toList = true := by
  cases kind <;> decide

theorem values_eq_nil {option : Opt} {occurrences : List Occurrence}
    (h : ∀ o ∈ occurrences, o.option ≠ option) : values option occurrences = [] := by
  unfold values
  rw [List.map_eq_nil_iff, List.filter_eq_nil_iff]
  intro o ho
  simpa using h o ho

theorem mem_path_text {value : String} {p? : Option Path}
    (h : value ∈ p?.toList.map Path.toText) : ∃ p ∈ p?, value.toList = p.chars := by
  obtain ⟨p, hp, rfl⟩ := List.mem_map.mp h
  exact ⟨p, Option.mem_toList.mp hp, by simp [Path.toText]⟩

theorem Writable.group (h : Writable name dirs config logPath) {group : List Path}
    (hsome : group ≠ []) (hgroup : ∀ dir ∈ group, dir ∈ dirs) :
    [] ∉ pieces (joinDirectories group).toList ∧
      isPlain (joinDirectories group).toList = true := by
  have hcommaless : ∀ dir ∈ group, ',' ∉ dir.chars :=
    fun dir hdir => (h.directories dir (hgroup dir hdir)).2
  refine ⟨fun hempty => ?_, isPlain_joinDirectories hsome fun dir hdir =>
    (h.directories dir (hgroup dir hdir)).1⟩
  have hmem : (⟨[]⟩ : Path) ∈ directoriesIn (joinDirectories group) :=
    List.mem_map.mpr ⟨[], hempty, rfl⟩
  rw [directoriesIn_joinDirectories hsome hcommaless] at hmem
  exact isPlain_ne_nil (h.directories _ (hgroup _ hmem)).1 rfl

theorem Says.value (h : Says front back kind name dirs config logPath)
    (hwritable : Writable name dirs config logPath) {o : Occurrence} (ho : o ∈ front ++ back) :
    Takes o.option o.value ∧ isPlain o.value.toList = true := by
  have hlog : o.value ∈ values .logPath front ++ values .logPath back →
      isPlain o.value.toList = true := by
    intro hmem
    rw [h.logPath] at hmem
    obtain ⟨p, hp, hchars⟩ := mem_path_text hmem
    exact hchars ▸ hwritable.logPath p hp
  rcases List.mem_append.mp ho with hfront | hback
  · have hoption := h.inFront o hfront
    have hmem := mem_values hfront
    rw [hoption] at hmem ⊢
    have hplain := hlog (List.mem_append_left _ hmem)
    exact ⟨isPlain_ne_nil hplain, hplain⟩
  · have hmem := mem_values hback
    have hbehind := h.behind o hback
    revert hmem hbehind
    generalize o.option = option
    intro hmem hbehind
    cases option with
    | socket => simp [Verb.options] at hbehind
    | timeout => simp [Verb.options] at hbehind
    | kind =>
        rw [h.kind] at hmem
        rw [List.mem_singleton.mp hmem]
        exact ⟨by simp [Takes, PluginKind.ofArgument?_argument], argument_plain kind⟩
    | name =>
        rw [h.name] at hmem
        exact ⟨trivial, hwritable.name _ (Option.mem_toList.mp hmem)⟩
    | registrationDir =>
        obtain ⟨groups, hdirs, hsome, hvalues⟩ := h.directories
        rw [hvalues] at hmem
        obtain ⟨group, hgroup, htext⟩ := List.mem_map.mp hmem
        rw [← htext]
        refine hwritable.group (fun hnil => hsome (hnil ▸ hgroup)) fun dir hdir => ?_
        exact hdirs ▸ List.mem_flatten.mpr ⟨group, hgroup, hdir⟩
    | config =>
        rw [h.config] at hmem
        obtain ⟨p, hp, hchars⟩ := mem_path_text hmem
        have hplain := hchars ▸ hwritable.config p hp
        exact ⟨isPlain_ne_nil hplain, hplain⟩
    | logPath =>
        have hplain := hlog (List.mem_append_right _ hmem)
        exact ⟨isPlain_ne_nil hplain, hplain⟩

theorem Says.logPath_once (h : Says front back kind name dirs config logPath) :
    (values .logPath front).length + (values .logPath back).length ≤ 1 := by
  have hshort : (logPath.toList.map Path.toText).length ≤ 1 := by cases logPath <;> simp
  rwa [← h.logPath, List.length_append] at hshort

theorem Says.compatible_front (h : Says front back kind name dirs config logPath)
    (hwritable : Writable name dirs config logPath) : Compatible front where
  once := by
    intro option _
    by_cases hoption : option = .logPath
    · subst hoption
      have honce := h.logPath_once
      omega
    · have hnone : values option front = [] := by
        refine values_eq_nil fun o ho heq => hoption ?_
        rw [← heq, h.inFront o ho]
      simp [hnone]
  takes := fun o ho => (h.value hwritable (List.mem_append_left _ ho)).1
  plain := fun o ho => (h.value hwritable (List.mem_append_left _ ho)).2

theorem Says.compatible_back (h : Says front back kind name dirs config logPath)
    (hwritable : Writable name dirs config logPath) : Compatible back where
  once := by
    intro option hoption
    have hother : option ∉ Verb.serve.options → values option back = [] := by
      intro hstray
      exact values_eq_nil fun o ho heq => hstray (heq ▸ h.behind o ho)
    cases option with
    | registrationDir => contradiction
    | socket => simp [hother (by decide)]
    | timeout => simp [hother (by decide)]
    | kind => simp [h.kind]
    | name => cases name <;> simp [h.name]
    | config => cases config <;> simp [h.config]
    | logPath =>
        have honce := h.logPath_once
        omega
  takes := fun o ho => (h.value hwritable (List.mem_append_right _ ho)).1
  plain := fun o ho => (h.value hwritable (List.mem_append_right _ ho)).2

/-! ## What the environment adds -/

theorem head?_path_text (p? : Option Path) :
    (p?.toList.map Path.toText).head?.map Path.ofString = p? := by
  cases p? <;> simp [Path.ofString, Path.toText]

theorem flatMap_directoriesIn {groups : List (List Path)} (hsome : [] ∉ groups)
    (h : ∀ dir ∈ groups.flatten, ',' ∉ dir.chars) :
    (groups.map joinDirectories).flatMap directoriesIn = groups.flatten := by
  rw [List.flatMap_map]
  induction groups with
  | nil => rfl
  | cons group rest ih =>
      obtain ⟨hgroup, hrest⟩ : [] ≠ group ∧ [] ∉ rest := by simpa using hsome
      have hfirst : ∀ dir ∈ group, ',' ∉ dir.chars :=
        fun dir hdir => h dir (List.mem_flatten.mpr ⟨group, List.mem_cons_self, hdir⟩)
      rw [List.flatMap_cons, directoriesIn_joinDirectories hgroup.symm hfirst, List.flatten_cons,
        ih hrest fun dir hdir => h dir (List.mem_append_right group hdir)]

theorem Says.gathered_back (h : Says front back kind name dirs config logPath)
    (hwritable : Writable name dirs config logPath) :
    gathered back =
      { logPath := (values .logPath back).head?.map Path.ofString
        kind := some kind
        name := name
        registrationDirs := if dirs = [] then none else some dirs
        config := config } := by
  obtain ⟨groups, hdirs, hsome, hvalues⟩ := h.directories
  have hcommaless : ∀ dir ∈ groups.flatten, ',' ∉ dir.chars :=
    fun dir hdir => (hwritable.directories dir (hdirs ▸ hdir)).2
  have hnone : dirs = [] ↔ groups.map joinDirectories = [] := by
    rw [← hdirs, List.map_eq_nil_iff, List.flatten_eq_nil_iff]
    constructor
    · intro hempty
      cases groups with
      | nil => rfl
      | cons group rest => exact absurd (hempty group List.mem_cons_self ▸ List.mem_cons_self) hsome
    · rintro rfl
      simp
  have hname : name.toList.head? = name := by cases name <;> rfl
  simp only [gathered, h.kind, h.name, h.config, hvalues, head?_path_text, hname,
    flatMap_directoriesIn hsome hcommaless, hdirs, hnone]
  simp [PluginKind.ofArgument?_argument]

namespace Given

theorem fill_logPath (g : Given) (rest : List Opt)
    (h : ∀ value, env.logPath = some value → value.toList ≠ []) :
    g.fill env (.logPath :: rest) =
      { g with logPath := g.logPath.or (env.logPath.map Path.ofString) }.fill env rest := by
  obtain ⟨logPath, kind, name, registrationDirs, config, socket, timeout⟩ := g
  cases logPath with
  | some p => simp [fill, has]
  | none =>
      cases henv : env.logPath with
      | none => simp [fill, has, Environment.get?, henv]
      | some value =>
          simp [fill, has, Environment.get?, henv, put_logPath _ (h value henv), bind, Except.bind]

theorem fill_config (g : Given) (rest : List Opt)
    (h : g.config = none → ∀ value, env.config = some value → value.toList ≠ []) :
    g.fill env (.config :: rest) =
      { g with config := g.config.or (env.config.map Path.ofString) }.fill env rest := by
  obtain ⟨logPath, kind, name, registrationDirs, config, socket, timeout⟩ := g
  cases config with
  | some p => simp [fill, has]
  | none =>
      cases henv : env.config with
      | none => simp [fill, has, Environment.get?, henv]
      | some value =>
          simp [fill, has, Environment.get?, henv, put_config _ (h rfl value henv), bind,
            Except.bind]

theorem fill_registrationDir (g : Given) (rest : List Opt)
    (h : g.registrationDirs = none → ∀ value, env.registrationDirs = some value →
      [] ∉ pieces value.toList) :
    g.fill env (.registrationDir :: rest) =
      { g with
        registrationDirs :=
          g.registrationDirs.or (env.registrationDirs.map directoriesIn) }.fill env rest := by
  obtain ⟨logPath, kind, name, registrationDirs, config, socket, timeout⟩ := g
  cases registrationDirs with
  | some dirs => simp [fill, has]
  | none =>
      cases henv : env.registrationDirs with
      | none => simp [fill, has, Environment.get?, henv]
      | some value =>
          simp [fill, has, Environment.get?, henv, put_registrationDir _ (h rfl value henv), bind,
            Except.bind]

end Given

theorem Says.parseVerb (h : Says front back kind name dirs config logPath)
    (hwritable : Writable name dirs config logPath) (henv : env.Valid dirs config) :
    CommandLine.parseVerb env .serve (back.flatMap Occurrence.arguments) =
      .ok (.serve kind name
          (if dirs = [] then (env.registrationDirs.map directoriesIn).getD [] else dirs)
          (config.or (env.config.map Path.ofString)),
        (values .logPath back).head?.map Path.ofString) := by
  have hstart : Reading.Holds {} (gathered []) := ⟨rfl, rfl, rfl⟩
  obtain ⟨r, hholds, hread⟩ := readAll_gathered (s := .verb .serve) hstart
    (by simpa using h.compatible_back hwritable) h.behind
  rw [List.nil_append, h.gathered_back hwritable] at hholds
  have hdirs : (if dirs = [] then none else some dirs) = none → dirs = [] := by
    intro hnone
    split at hnone
    · assumption
    · contradiction
  simp only [CommandLine.parseVerb, hread, hholds.settles, bind, Except.bind, Verb.standIns]
  rw [Given.fill_registrationDir _ _ fun hnone => henv.registrationDirs (hdirs hnone),
    Given.fill_config _ _ fun hnone => henv.config hnone, Given.fill_logPath _ _ henv.logPath]
  by_cases hnone : dirs = [] <;> simp [Given.fill, orderOf, hnone]

/-- A command line for serving is read as what it says. What it does not say is taken from the
environment. -/
theorem parse_of_says (hsaid : Says front back kind name dirs config logPath)
    (hwritable : Writable name dirs config logPath) (henv : env.Valid dirs config) :
    parse env (front.flatMap Occurrence.arguments ++
        Verb.serve.text :: back.flatMap Occurrence.arguments) =
      .ok ⟨logPath.or (env.logPath.map Path.ofString),
        .serve kind name
          (if dirs = [] then (env.registrationDirs.map directoriesIn).getD [] else dirs)
          (config.or (env.config.map Path.ofString))⟩ := by
  have hstart : Reading.Holds {} (gathered []) := ⟨rfl, rfl, rfl⟩
  obtain ⟨r, hholds, hread⟩ := parseFrom_gathered env hstart
    (by simpa using hsaid.compatible_front hwritable) hsaid.inFront
    (Verb.serve.text :: back.flatMap Occurrence.arguments)
  rw [List.nil_append] at hholds
  have hverb : (if r.trailing = true ∨ r.awaits?.isSome = true then none
      else Verb.ofText? Verb.serve.text) = some .serve := by
    rw [if_neg (by simp [hholds.goesOn, hholds.awaitsNone]), Verb.ofText?_text]
  have hlogs : ((values .logPath back).head?.map Path.ofString).or
      (((values .logPath front).head?.map Path.ofString).or (env.logPath.map Path.ofString)) =
        logPath.or (env.logPath.map Path.ofString) := by
    have hvalues := hsaid.logPath
    cases logPath with
    | none =>
        obtain ⟨hfront, hback⟩ := List.append_eq_nil_iff.mp hvalues
        simp [hfront, hback]
    | some p =>
        rcases List.append_eq_singleton_iff.mp hvalues with ⟨hfront, hback⟩ | ⟨hfront, hback⟩ <;>
          simp [hfront, hback, Path.ofString, Path.toText]
  rw [parse, hread, parseFrom]
  simp only [hverb, hsaid.parseVerb hwritable henv, Reading.finish, hholds.settles, bind,
    Except.bind]
  rw [Given.fill_logPath _ _ henv.logPath]
  simp [Given.fill, gathered, hlogs]

/-- The log path in front of the command, and behind it directories on both sides of the kind. -/
def mixedFront : List Occurrence := [⟨.logPath, "/var/log/p.log", true⟩]

def mixedBack : List Occurrence :=
  [⟨.registrationDir, "a,b", false⟩, ⟨.kind, "qrm", false⟩, ⟨.name, "cpu=0", true⟩,
    ⟨.registrationDir, "help", true⟩]

/-- Variables that say something else; the one for the directories could not even be read. -/
def mixedEnvironment : Environment := ⟨some "serve", some ",", some "life.yaml"⟩

theorem parse_of_says_mixed :
    Says mixedFront mixedBack .qosResource (some "cpu=0") (["a", "b", "help"].map Path.ofString)
        none (some (.ofString "/var/log/p.log")) ∧
      parse mixedEnvironment
          ["--log-path=/var/log/p.log", "serve", "--registration-dir", "a,b", "--kind", "qrm",
            "--name=cpu=0", "--registration-dir=help"] =
        .ok ⟨some (.ofString "/var/log/p.log"),
          .serve .qosResource (some "cpu=0") (["a", "b", "help"].map Path.ofString)
            (some (.ofString "life.yaml"))⟩ := by
  have hsaid : Says mixedFront mixedBack .qosResource (some "cpu=0")
      (["a", "b", "help"].map Path.ofString) none (some (.ofString "/var/log/p.log")) := by
    refine ⟨by decide, by decide, by decide, by decide, ?_, by decide, by decide⟩
    exact ⟨[["a", "b"].map Path.ofString, [.ofString "help"]], by decide, by decide, by decide⟩
  have hwritable : Writable (some "cpu=0") (["a", "b", "help"].map Path.ofString) none
      (some (.ofString "/var/log/p.log")) := ⟨by decide, by decide, by decide, by decide⟩
  have henv : mixedEnvironment.Valid (["a", "b", "help"].map Path.ofString) none := by
    refine ⟨fun value hvalue => ?_, nofun, fun _ value hvalue => ?_⟩
    · obtain rfl : "serve" = value := Option.some.inj hvalue
      decide
    · obtain rfl : "life.yaml" = value := Option.some.inj hvalue
      decide
  exact ⟨hsaid, parse_of_says hsaid hwritable henv⟩

end CommandLine

end PluginKit
