import PluginKit.Proofs.Yaml.Mapping
import PluginKit.Yaml.Document

/-!
# Mappings with one entry a line as documents

The items of such a text are the start of a mapping, the keys and the values in their order, and its end.
-/

namespace PluginKit

namespace Yaml

namespace Entry

def scalars (e : Entry) : List Scalar :=
  [⟨e.key, .plain, none⟩, ⟨e.value.text, e.value.style, none⟩]

end Entry

namespace EventReader

/-- The kinds of the events that are read, and the fault that ended them. -/
def kinds (fuel : Nat) (r : EventReader) : List EventKind × Option Problem :=
  ((run fuel r).1.map Event.kind, (run fuel r).2)

variable {r : EventReader}

theorem kinds_succ {goal : Goal} {goals : List Goal} {event : Event} {r' : EventReader}
    (hgoals : r.goals = goal :: goals)
    (hmeet : { r with goals := goals }.meet goal = .ok (event, r')) (fuel : Nat) :
    kinds (fuel + 1) r = (event.kind :: (kinds fuel r').1, (kinds fuel r').2) := by
  simp [kinds, run, hgoals, hmeet]

theorem peek_cons {t : Token} {rest : List Token} (h : r.tokens = t :: rest) : r.peek = .ok t := by
  simp [peek, h]

theorem node_scalar {t : Token} {rest : List Token} {text : List Char} {style : ScalarStyle}
    (htokens : r.tokens = t :: rest) (hkind : t.kind = .scalar text style) (block indentless : Bool) :
    r.node block indentless =
      .ok (⟨.scalar none ⟨text, style, none⟩, t.start⟩, { r with tokens := rest }) := by
  simp [node, peek_cons htokens, hkind, readProperties, readAnchor, readTag, resolveTag, scalarTag, bind,
    Except.bind, emit, skip, htokens]

theorem node_blockMappingStart {t : Token} {rest : List Token} (htokens : r.tokens = t :: rest)
    (hkind : t.kind = .blockMappingStart) (indentless : Bool) :
    r.node true indentless = .ok (⟨.mappingStart {}, t.start⟩, r.push [.blockMappingStart]) := by
  simp [node, peek_cons htokens, hkind, readProperties, readAnchor, readTag, resolveTag, bind,
    Except.bind, emit]

theorem blockKey_scalar {t s : Token} {rest : List Token} {text : List Char} {style : ScalarStyle}
    (htokens : r.tokens = t :: s :: rest) (hkey : t.kind = .key) (hscalar : s.kind = .scalar text style)
    (opened : Mark) :
    r.blockKey opened = .ok (⟨.scalar none ⟨text, style, none⟩, s.start⟩,
      { r with tokens := rest, goals := .blockValue opened :: r.goals }) := by
  have hnext : (r.skip.push [.blockValue opened]).tokens = s :: rest := by
    simp [skip, push, htokens]
  simp only [blockKey, peek_cons htokens, hkey, bind, Except.bind, peek_cons hnext, hscalar,
    node_scalar hnext hscalar]
  rfl

theorem blockValue_scalar {t s : Token} {rest : List Token} {text : List Char} {style : ScalarStyle}
    (htokens : r.tokens = t :: s :: rest) (hvalue : t.kind = .value)
    (hscalar : s.kind = .scalar text style) (opened : Mark) :
    r.blockValue opened = .ok (⟨.scalar none ⟨text, style, none⟩, s.start⟩,
      { r with tokens := rest, goals := .blockKey opened :: r.goals }) := by
  have hnext : (r.push [.blockKey opened]).skip.tokens = s :: rest := by
    simp [skip, push, htokens]
  simp only [blockValue, peek_cons htokens, hvalue, bind, Except.bind, peek_cons hnext, hscalar,
    node_scalar hnext hscalar]
  rfl

theorem kinds_of_no_goals (h : r.goals = []) (fuel : Nat) : kinds fuel r = ([], none) := by
  cases fuel <;> simp [kinds, run, h]

theorem kinds_entry (e : Entry) {ks : List TokenKind} {opened : Mark} {goals : List Goal}
    (htokens : r.tokens.map Token.kind = e.tokenKinds ++ ks)
    (hgoals : r.goals = .blockKey opened :: goals) :
    ∃ rest : List Token, rest.map Token.kind = ks ∧ ∀ fuel, kinds (fuel + 2) r =
      (e.scalars.map (.scalar none) ++ (kinds fuel { r with tokens := rest }).1,
        (kinds fuel { r with tokens := rest }).2) := by
  obtain ⟨k, _, hk, hkey, htokens⟩ := List.map_eq_cons_iff.mp htokens
  obtain ⟨ks, _, rfl, hscalar, htokens⟩ := List.map_eq_cons_iff.mp htokens
  obtain ⟨v, _, rfl, hvalue, htokens⟩ := List.map_eq_cons_iff.mp htokens
  obtain ⟨vs, rest, rfl, hscalar', hrest⟩ := List.map_eq_cons_iff.mp htokens
  refine ⟨rest, hrest, fun fuel => ?_⟩
  have hmeetKey : ({ r with goals := goals } : EventReader).meet (.blockKey opened) = .ok (_,
      { r with tokens := v :: vs :: rest, goals := .blockValue opened :: goals }) :=
    blockKey_scalar (r := { r with goals := goals }) hk hkey hscalar opened
  have hmeetValue : ({ r with tokens := v :: vs :: rest, goals := goals } : EventReader).meet
      (.blockValue opened) = .ok (_, { r with tokens := rest, goals := .blockKey opened :: goals }) :=
    blockValue_scalar rfl hvalue hscalar' opened
  rw [kinds_succ hgoals hmeetKey, kinds_succ rfl hmeetValue, ← hgoals]
  rfl

/-- Behind the last entry the mapping, the document and the stream end. -/
theorem kinds_end {opened : Mark} (htokens : r.tokens.map Token.kind = [.blockEnd, .streamEnd])
    (hgoals : r.goals = [.blockKey opened, .documentEnd]) (fuel : Nat) :
    kinds (fuel + 3) r = ([.mappingEnd, .documentEnd, .streamEnd], none) := by
  obtain ⟨b, _, htokens, hb, hrest⟩ := List.map_eq_cons_iff.mp htokens
  obtain ⟨s, rfl, hs⟩ := List.map_eq_singleton_iff.mp hrest
  have hmapping : ({ r with goals := [.documentEnd] } : EventReader).meet (.blockKey opened) =
      .ok (⟨.mappingEnd, b.start⟩, { r with tokens := [s], goals := [.documentEnd] }) := by
    simp [meet, blockKey, peek, htokens, hb, bind, Except.bind, emit, skip]
  have hdocument : ({ r with tokens := [s], goals := [] } : EventReader).meet .documentEnd =
      .ok (⟨.documentEnd, s.start⟩, { r with tokens := [s], directives := {}, goals := [.document] }) := by
    simp [meet, documentEnd, peek, hs, bind, Except.bind, emit, push]
  have hstream : ({ r with tokens := [s], directives := {}, goals := [] } : EventReader).meet .document =
      .ok (⟨.streamEnd, s.start⟩, { r with tokens := [], directives := {}, goals := [] }) := by
    simp [meet, documentStart, skipDocumentEnds, peek, hs, bind, Except.bind, emit, skip]
  rw [kinds_succ hgoals hmapping, kinds_succ rfl hdocument, kinds_succ rfl hstream,
    kinds_of_no_goals rfl]

/-- The entries of a mapping are met in their order. -/
theorem kinds_entries (entries : List Entry) {r : EventReader} {opened : Mark}
    (htokens : r.tokens.map Token.kind = entries.flatMap Entry.tokenKinds ++ [.blockEnd, .streamEnd])
    (hgoals : r.goals = [.blockKey opened, .documentEnd]) (fuel : Nat) :
    kinds (2 * entries.length + (fuel + 3)) r =
      ((entries.flatMap Entry.scalars).map (.scalar none) ++ [.mappingEnd, .documentEnd, .streamEnd],
        none) := by
  induction entries generalizing r with
  | nil => simpa using kinds_end htokens hgoals fuel
  | cons e rest ih =>
      rw [List.flatMap_cons, List.append_assoc] at htokens
      obtain ⟨left, hleft, hkinds⟩ := kinds_entry e htokens hgoals
      have hfuel : 2 * (e :: rest).length + (fuel + 3) = 2 * rest.length + (fuel + 3) + 2 := by
        simp only [List.length_cons]
        omega
      rw [hfuel, hkinds, ih (r := { r with tokens := left }) hleft hgoals]
      simp

theorem kinds_blockMappingStart {t : Token} {rest : List Token} {goals : List Goal}
    (htokens : r.tokens = t :: rest) (hgoals : r.goals = .blockMappingStart :: goals) (fuel : Nat) :
    kinds fuel r = kinds fuel { r with tokens := rest, goals := .blockKey t.start :: goals } := by
  cases fuel with
  | zero => rfl
  | succ fuel =>
      have hmeet : ({ r with goals := goals } : EventReader).meet .blockMappingStart =
          ({ r with tokens := rest, goals := goals } : EventReader).meet (.blockKey t.start) := by
        simp [meet, peek, htokens, bind, Except.bind, skip]
      simp only [kinds, run, hgoals, hmeet]

theorem kinds_stream (entries : List Entry) {ts : List Token}
    (htokens : ts.map Token.kind = .streamStart :: .blockMappingStart ::
      (entries.flatMap Entry.tokenKinds ++ [.blockEnd, .streamEnd])) (fuel : Nat) :
    kinds (2 * entries.length + (fuel + 3) + 3) { tokens := ts, problem := none } =
      (.streamStart :: .documentStart :: .mappingStart {} ::
        ((entries.flatMap Entry.scalars).map (.scalar none) ++
          [.mappingEnd, .documentEnd, .streamEnd]), none) := by
  obtain ⟨s, _, rfl, hs, htokens⟩ := List.map_eq_cons_iff.mp htokens
  obtain ⟨b, rest, rfl, hb, hrest⟩ := List.map_eq_cons_iff.mp htokens
  have hstream : meet { tokens := s :: b :: rest, problem := none, goals := [] } .stream =
      .ok (⟨.streamStart, s.start⟩,
        { tokens := b :: rest, problem := none, goals := [.firstDocument] }) := rfl
  have hdocument : meet { tokens := b :: rest, problem := none, goals := [] } .firstDocument =
      .ok (⟨.documentStart, b.start⟩,
        { tokens := b :: rest, problem := none, goals := [.blockNode, .documentEnd] }) := by
    simp [meet, documentStart, peek, hb, bind, Except.bind, emit, push]
  have hmapping : meet { tokens := b :: rest, problem := none, goals := [.documentEnd] } .blockNode =
      .ok (⟨.mappingStart {}, b.start⟩,
        { tokens := b :: rest, problem := none, goals := [.blockMappingStart, .documentEnd] }) :=
    node_blockMappingStart (r := { tokens := b :: rest, problem := none, goals := [.documentEnd] }) rfl
      hb false
  rw [kinds_succ rfl hstream, kinds_succ rfl hdocument, kinds_succ rfl hmapping,
    kinds_blockMappingStart rfl rfl, kinds_entries entries hrest rfl]

end EventReader

theorem length_flatMap_entries {α : Type} {f : Entry → List α} {n : Nat}
    (h : ∀ e, (f e).length = n) (entries : List Entry) :
    (entries.flatMap f).length = n * entries.length := by
  induction entries with
  | nil => rfl
  | cons e rest ih =>
      rw [List.flatMap_cons, List.length_append, ih, h, List.length_cons, Nat.mul_succ, Nat.add_comm]

theorem events_lines (closed : Bool) (e : Entry) (rest : List Entry) :
    (events (String.ofList (Entry.lines closed (e :: rest)))).1.map Event.kind =
        .streamStart :: .documentStart :: .mappingStart {} ::
          (((e :: rest).flatMap Entry.scalars).map (.scalar none) ++
            [.mappingEnd, .documentEnd, .streamEnd]) ∧
      (events (String.ofList (Entry.lines closed (e :: rest)))).2 = none := by
  obtain ⟨hkinds, hproblem⟩ := tokens_lines closed e rest
  have hlength := congrArg List.length hkinds
  simp only [List.length_map, List.length_cons, List.length_append, List.length_nil,
    length_flatMap_entries (f := Entry.tokenKinds) (n := 4) fun _ => rfl] at hlength
  obtain ⟨fuel, hfuel⟩ : ∃ fuel,
      4 * (tokens (String.ofList (Entry.lines closed (e :: rest)))).1.length + 8 =
        2 * (e :: rest).length + (fuel + 3) + 3 := by
    refine ⟨14 * rest.length + 32, ?_⟩
    simp only [List.length_cons]
    omega
  have hstream := EventReader.kinds_stream (e :: rest) hkinds fuel
  rw [← hfuel, ← hproblem] at hstream
  obtain ⟨hfirst, hsecond⟩ := Prod.mk.inj hstream
  exact ⟨hfirst, hsecond.trans hproblem⟩

namespace Document

/-- The items of scalars and the end of their mapping make up the document. -/
theorem gather_scalars (scalars : List Scalar) {es : List Event} (g : Gathered)
    (hevents : es.map Event.kind =
      scalars.map (.scalar none) ++ [.mappingEnd, .documentEnd, .streamEnd]) :
    (gather none g es).items.map Prod.fst =
        g.items.reverse.map Prod.fst ++ scalars.map .scalar ++ [.mappingEnd] ∧
      (gather none g es).breakage = none ∧ (gather none g es).hasMore = false := by
  induction scalars generalizing g es with
  | nil =>
      obtain ⟨m, _, rfl, hm, hevents⟩ := List.map_eq_cons_iff.mp hevents
      obtain ⟨d, _, rfl, hd, hevents⟩ := List.map_eq_cons_iff.mp hevents
      obtain ⟨s, rfl, hs⟩ := List.map_eq_singleton_iff.mp hevents
      simp [gather, hm, hd, hs, Gathered.add, Gathered.close, endsStream]
  | cons scalar rest ih =>
      obtain ⟨e, es, rfl, he, hevents⟩ := List.map_eq_cons_iff.mp hevents
      have hgather : gather none g (e :: es) = gather none (g.add (.scalar scalar) e.mark) es := by
        simp [gather, he, Gathered.name]
      rw [hgather]
      simpa [Gathered.add] using ih (g.add (.scalar scalar) e.mark) hevents

theorem ofText_lines (closed : Bool) (e : Entry) (rest : List Entry) :
    (ofText (String.ofList (Entry.lines closed (e :: rest)))).items.map Prod.fst =
        .mappingStart none :: (((e :: rest).flatMap Entry.scalars).map .scalar ++ [.mappingEnd]) ∧
      (ofText (String.ofList (Entry.lines closed (e :: rest)))).breakage = none ∧
      (ofText (String.ofList (Entry.lines closed (e :: rest)))).hasMore = false := by
  obtain ⟨hevents, hproblem⟩ := events_lines closed e rest
  obtain ⟨s, _, hes, hs, hevents⟩ := List.map_eq_cons_iff.mp hevents
  obtain ⟨d, _, rfl, hd, hevents⟩ := List.map_eq_cons_iff.mp hevents
  obtain ⟨m, es, rfl, hm, hevents⟩ := List.map_eq_cons_iff.mp hevents
  have hgather : ofText (String.ofList (Entry.lines closed (e :: rest))) =
      gather none (Gathered.add {} (.mappingStart none) m.mark) es := by
    simp [ofText, hes, hproblem, gather, hs, hd, hm, Gathered.name]
  rw [hgather]
  exact gather_scalars _ (Gathered.add {} (.mappingStart none) m.mark) hevents

end Document

end Yaml

end PluginKit
