import PluginKit.CommandLine.Parse

/-!
# Options as they are written

An option with its value is written in one argument or in two. Wherever it stands, reading its arguments
comes down to adding the value, so that a run of them comes down to adding their values in order.
-/

namespace PluginKit

namespace CommandLine

/-- Whether a value can stand in an argument of its own: it says something and is not taken for an
option. -/
def isPlain (value : List Char) : Bool :=
  value.head?.any (· != '-')

/-- An option with its value; joined, both stand in one argument. -/
structure Occurrence where
  option : Opt
  value : String
  joined : Bool
deriving DecidableEq, Repr

def Occurrence.arguments (o : Occurrence) : List String :=
  if o.joined then ["--" ++ o.option.long ++ "=" ++ o.value]
  else ["--" ++ o.option.long, o.value]

/-! ## What arguments look like -/

theorem long_ne_nil (o : Opt) : o.long.toList ≠ [] := by
  cases o <;> decide

theorem ofArgument_of_dashes {argument : String} {c : Char} {rest : List Char}
    (h : argument.toList = '-' :: '-' :: c :: rest) :
    Shape.ofArgument argument =
      match (c :: rest).dropWhile (· != '=') with
      | _ :: value =>
          .long (String.ofList ((c :: rest).takeWhile (· != '='))) (some (String.ofList value))
      | [] => .long (String.ofList ((c :: rest).takeWhile (· != '='))) none := by
  unfold Shape.ofArgument
  rw [h]
  rfl

theorem long_chars (o : Opt) : ∀ c ∈ o.long.toList, (c != '=') = true :=
  List.all_eq_true.mp (by cases o <;> decide)

theorem ofArgument_joined (o : Opt) (value : String) :
    Shape.ofArgument ("--" ++ o.long ++ "=" ++ value) = .long o.long (some value) := by
  obtain ⟨c, rest, hlong⟩ := List.exists_cons_of_ne_nil (long_ne_nil o)
  have htext : ("--" ++ o.long ++ "=" ++ value).toList =
      '-' :: '-' :: c :: (rest ++ '=' :: value.toList) := by
    simp [hlong]
  have hwhole : c :: (rest ++ '=' :: value.toList) = o.long.toList ++ '=' :: value.toList := by
    rw [hlong]
    rfl
  rw [ofArgument_of_dashes htext, hwhole, List.takeWhile_append_of_pos (long_chars o),
    List.dropWhile_append_of_pos (long_chars o)]
  simp

theorem ofArgument_flag (o : Opt) : Shape.ofArgument ("--" ++ o.long) = .long o.long none := by
  obtain ⟨c, rest, hlong⟩ := List.exists_cons_of_ne_nil (long_ne_nil o)
  have htext : ("--" ++ o.long).toList = '-' :: '-' :: c :: rest := by simp [hlong]
  rw [ofArgument_of_dashes htext, ← hlong]
  have hdrop : o.long.toList.dropWhile (· != '=') = [] := by
    have hall := @List.dropWhile_append_of_pos _ _ o.long.toList [] (long_chars o)
    simpa using hall
  have htake : o.long.toList.takeWhile (· != '=') = o.long.toList := by
    have hall := @List.takeWhile_append_of_pos _ _ o.long.toList [] (long_chars o)
    simpa using hall
  simp [hdrop, htake]

theorem ofArgument_plain {value : String} (h : isPlain value.toList = true) :
    Shape.ofArgument value = .word := by
  unfold Shape.ofArgument
  unfold isPlain at h
  split <;> simp_all

theorem opt?_long {s : Scope} {o : Opt} (h : o ∈ s.options) : s.opt? o.long = some o := by
  cases s with
  | program =>
      obtain rfl : o = .logPath := by simpa [Scope.options] using h
      decide
  | verb v =>
      cases v <;> cases o <;> revert h <;> decide

theorem ofText?_of_dash {argument : String} {rest : List Char}
    (h : argument.toList = '-' :: rest) : Verb.ofText? argument = none := by
  unfold Verb.ofText?
  rw [List.find?_eq_none]
  intro v _ htext
  have hlist : v.text.toList = '-' :: rest := by
    rw [← h]
    exact congrArg String.toList (of_decide_eq_true htext)
  cases v <;> simp [Verb.text] at hlist

/-! ## Reading them -/

namespace Reading

variable {s : Scope} {r : Reading} {g g' : Given} {o : Opt} {value : String}

/-- What a reading amounts to when the next argument is read: the values in it, the one that is
pending included. -/
structure Holds (r : Reading) (g : Given) : Prop where
  settles : r.settle = .ok { given := g }
  awaitsNone : r.awaits? = none
  goesOn : r.trailing = false

theorem holds_given (g : Given) : Holds { given := g } g :=
  ⟨rfl, rfl, rfl⟩

theorem holds_pending (h : g.add o value = .ok g') :
    Holds { given := g, pending := some (o, some value) } g' := by
  refine ⟨?_, rfl, rfl⟩
  simp [settle, h, bind, Except.bind]

theorem Holds.readJoined (h : Holds r g) (hoption : o ∈ s.options) (hadd : g.add o value = .ok g') :
    r.readArgument s ("--" ++ o.long ++ "=" ++ value) = .ok { given := g' } := by
  simp [readArgument, h.goesOn, ofArgument_joined, readLong, opt?_long hoption, h.settles, hadd,
    bind, Except.bind]

theorem Holds.readFlag (h : Holds r g) (hoption : o ∈ s.options) :
    r.readArgument s ("--" ++ o.long) = .ok { given := g, pending := some (o, none) } := by
  simp [readArgument, h.goesOn, ofArgument_flag, readLong, opt?_long hoption, h.settles, bind,
    Except.bind]

theorem readValue (s : Scope) (g : Given) (o : Opt) (hvalue : isPlain value.toList = true) :
    ({ given := g, pending := some (o, none) } : Reading).readArgument s value =
      .ok { given := g, pending := some (o, some value) } := by
  simp [readArgument, ofArgument_plain hvalue, awaits?]

theorem Holds.readAll (h : Holds r g) {occurrence : Occurrence}
    (hoption : occurrence.option ∈ s.options) (hvalue : isPlain occurrence.value.toList = true)
    (hadd : g.add occurrence.option occurrence.value = .ok g') (rest : List String) :
    ∃ r', Holds r' g' ∧
      Reading.readAll s r (occurrence.arguments ++ rest) = Reading.readAll s r' rest := by
  unfold Occurrence.arguments
  cases occurrence.joined with
  | true =>
      refine ⟨{ given := g' }, holds_given g', ?_⟩
      simp [Reading.readAll, h.readJoined hoption hadd, bind, Except.bind]
  | false =>
      refine ⟨{ given := g, pending := some (occurrence.option, some occurrence.value) },
        holds_pending hadd, ?_⟩
      simp [Reading.readAll, h.readFlag hoption, readValue s g _ hvalue, bind, Except.bind]

end Reading

/-- In front of the command, an argument that names none is read like one behind it. -/
theorem parseFrom_cons (env : Environment) {r : Reading} {argument : String}
    (h : r.awaits?.isSome = true ∨ ∃ rest, argument.toList = '-' :: rest) (rest : List String) :
    parseFrom env r (argument :: rest) =
      (r.readArgument .program argument).bind fun r => parseFrom env r rest := by
  have hverb : (if r.trailing = true ∨ r.awaits?.isSome = true then none
      else Verb.ofText? argument) = none := by
    rcases h with hawaits | ⟨tail, htail⟩
    · rw [if_pos (.inr hawaits)]
    · split
      · rfl
      · exact ofText?_of_dash htail
  have hhelp : ¬ (¬ r.trailing = true ∧ r.awaits? = none ∧ argument = "help") := by
    rintro ⟨-, hnone, rfl⟩
    rcases h with hawaits | ⟨tail, htail⟩
    · simp [hnone] at hawaits
    · simp at htail
  rw [parseFrom]
  simp only [hverb, if_neg hhelp]
  rfl

theorem parseFrom_occurrence (env : Environment) {r : Reading} {g g' : Given}
    (h : r.Holds g) {occurrence : Occurrence} (hoption : occurrence.option = .logPath)
    (hvalue : isPlain occurrence.value.toList = true)
    (hadd : g.add occurrence.option occurrence.value = .ok g') (rest : List String) :
    ∃ r', Reading.Holds r' g' ∧
      parseFrom env r (occurrence.arguments ++ rest) = parseFrom env r' rest := by
  have hprogram : occurrence.option ∈ Scope.program.options := by
    rw [hoption]
    exact List.mem_singleton_self _
  unfold Occurrence.arguments
  cases occurrence.joined with
  | true =>
      refine ⟨{ given := g' }, Reading.holds_given g', ?_⟩
      have hdash : ∃ tail, ("--" ++ occurrence.option.long ++ "=" ++ occurrence.value).toList =
          '-' :: tail := ⟨_, by simp; rfl⟩
      simp only [if_true, List.singleton_append]
      rw [parseFrom_cons env (.inr hdash), h.readJoined hprogram hadd]
      rfl
  | false =>
      refine ⟨{ given := g, pending := some (occurrence.option, some occurrence.value) },
        Reading.holds_pending hadd, ?_⟩
      have hdash : ∃ tail, ("--" ++ occurrence.option.long).toList = '-' :: tail :=
        ⟨_, by simp; rfl⟩
      simp only [Bool.false_eq_true, if_false, List.cons_append, List.nil_append]
      rw [parseFrom_cons env (.inr hdash), h.readFlag hprogram]
      simp only [Except.bind]
      rw [parseFrom_cons env (.inl rfl), Reading.readValue .program g _ hvalue]
      rfl

end CommandLine

end PluginKit
