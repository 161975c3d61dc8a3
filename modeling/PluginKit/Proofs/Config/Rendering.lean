import PluginKit.Proofs.Config.Line
import PluginKit.Proofs.Yaml.Document

/-!
# Settings read back

Settings written line by line are read as what the lines say, with the default for each key that no line
gives.
-/

namespace PluginKit

namespace Config

open Yaml (Document Item Mark Scalar Entry)

def valueOf (s : Settings) : Key → Nat
  | .retryInterval => s.retryInterval
  | .dialTimeout => s.dialTimeout
  | .crashResetWindow => s.crashResetWindow
  | .crashThreshold => s.crashThreshold.toNat
  | .serverStopGrace => s.serverStopGrace

variable {d : Document} {w : Walk} {m : Mark} {rest : Yaml.Items}

theorem placing_ok {α : Type} (m : Mark) (path : List PathStep) (a : α) :
    placing m path (.ok a) = .ok a :=
  rfl

/-! ## Values -/

theorem follow_scalar {α : Type} {s : Scalar} (hitems : w.items = (.scalar s, m) :: rest)
    (read : Item → Mark → Walk → Except SettingsError (α × Walk)) :
    w.follow d read = read (.scalar s) m { w with items := rest } := by
  simp [Walk.follow, Walk.next, hitems, bind, Except.bind]

/-- What a scalar without a tag holds is read as it is. -/
theorem read_scalar {s : Scalar} {content : Content} (hitems : w.items = (.scalar s, m) :: rest)
    (htag : s.tag = none) (hcontent : Content.ofScalar s = .ok content) (limit : Nat)
    (path : List PathStep) :
    Content.read d limit path w = .ok (content, { w with items := rest }) := by
  rw [Content.read, follow_scalar hitems, Content.read.node]
  simp [htag, hcontent, Content.isOwnTag]

theorem ofScalar_plain {n : Nat} (h : n < Decimal.wordCount 64) :
    Content.ofScalar ⟨Nat.toDigits 10 n, .plain, none⟩ = .ok (.number n) := by
  simp [Content.ofScalar, Scalar.value, Scalar.isOpen, Scalar.string, Yaml.Value.ofPlain_toDigits h]

theorem ofScalar_quoted (text : List Char) :
    Content.ofScalar ⟨text, .doubleQuoted, none⟩ = .ok (.text (String.ofList text)) := by
  simp [Content.ofScalar, Scalar.value, Scalar.isOpen, Scalar.string]

/-- The blanks around the digits of a time do not matter. -/
theorem timeOf_padded {before after : String}
    (blank : ∀ c ∈ before.toList ++ after.toList, isPadding c = true) {n : Nat}
    (h : n < Decimal.wordCount 64) :
    timeOf (.text (String.ofList (padded before after n))) = .ok n := by
  have hblank : ∀ c ∈ before.toList ++ after.toList, Text.isBlank c = true := by
    intro c hc
    have := blank c hc
    simp only [isPadding, Bool.and_eq_true] at this
    exact this.1
  have hdigit : ∀ c ∈ Nat.toDigits 10 n, Text.isBlank c = false := fun c hc =>
    isBlank_of_isWordChar (Yaml.isWordChar_of_mem (isWord_toDigits n) hc)
  have htrim : Text.trim (padded before after n) = Nat.toDigits 10 n :=
    Text.trim_padded (fun c hc => hblank c (List.mem_append_left _ hc))
      (fun c hc => hblank c (List.mem_append_right _ hc)) Nat.toDigits_ne_nil hdigit
  simp only [timeOf, String.toList_ofList, htrim, Decimal.readUInt64_toDigits h]

theorem readTime_spelling (spelling : Spelling) {n : Nat} (h : n < Decimal.wordCount 64)
    (hitems : w.items = (.scalar ⟨(spelling.scalar n).text, (spelling.scalar n).style, none⟩, m) :: rest)
    (path : List PathStep) : readTime d path w = .ok (n, { w with items := rest }) := by
  cases spelling with
  | plain =>
      have hread := read_scalar (d := d) hitems rfl (ofScalar_plain h) (nestingLimit - 1) path
      simp [readTime, hread, bind, Except.bind, timeOf]
  | quoted before after blank =>
      have hread := read_scalar (d := d) hitems rfl (ofScalar_quoted _) (nestingLimit - 1) path
      have htime : timeOf (.text (String.ofList ((Spelling.quoted before after blank).scalar n).text)) =
          .ok n := timeOf_padded blank h
      simp only [readTime, hread, bind, Except.bind, htime]

theorem countOf_toDigits {n : Nat} (h : n < Decimal.wordCount 32) (path : List PathStep) :
    countOf path (.scalar ⟨Nat.toDigits 10 n, .plain, none⟩) m w = .ok (n, w) := by
  have hlt : n < Decimal.wordCount 64 := Nat.lt_trans h (by decide)
  simp [countOf, maySpellCount, Yaml.Value.readNatural?_toDigits hlt, h]

/-! ## Pairs -/

def Line.addTo (l : Line) (g : Given) : Given :=
  match l.given? with
  | some (key, n) => g.put n key
  | none => g

theorem readPair_known {g : Given} {s : Scalar} {key : Key} {n : Nat} {left : Walk}
    (hitems : w.items = (.scalar s, m) :: rest) (hkey : Key.ofText? s.string = some key)
    (hfresh : g.get? key = none)
    (hvalue : ∀ path, readValue d path key { w with items := rest } = .ok (n, left)) :
    readPair d g w = .ok (g.put n key, left) := by
  have hfollow : w.follow d keyOf = .ok (some key, { w with items := rest }) := by
    rw [follow_scalar hitems, keyOf, hkey]
  simp [readPair, hfollow, hfresh, hvalue, bind, Except.bind]

/-- The value of a key that is unknown is passed over. -/
theorem readPair_unknown {g : Given} {s v : Scalar} {m' : Mark}
    (hitems : w.items = (.scalar s, m) :: (.scalar v, m') :: rest)
    (hkey : Key.ofText? s.string = none) :
    readPair d g w = .ok (g, { w with items := rest }) := by
  have hfollow : w.follow d keyOf = .ok (none, { w with items := (.scalar v, m') :: rest }) := by
    rw [follow_scalar hitems, keyOf, hkey]
  simp [readPair, hfollow, Walk.pass, Walk.passFrom, bind, Except.bind]

theorem ofText?_string (key : Key) :
    Key.ofText? (Scalar.string ⟨key.text.toList, .plain, none⟩) = some key := by
  rw [Scalar.string, String.ofList_toList, Key.ofText?_text]

/-- A line for a key without a value is read as what it says. -/
theorem readPair_line (l : Line) {m m' : Mark} {g : Given}
    (hitems : w.items = (.scalar ⟨l.entry.key, .plain, none⟩, m) ::
      (.scalar ⟨l.entry.value.text, l.entry.value.style, none⟩, m') :: rest)
    (hfresh : ∀ kv ∈ l.given?, g.get? kv.1 = none) :
    readPair d g w = .ok (l.addTo g, { w with items := rest }) := by
  cases l with
  | time key isTime value spelling =>
      refine readPair_known hitems (ofText?_string key) (hfresh _ rfl) fun path => ?_
      have hread : readTime d path ⟨(.scalar ⟨(spelling.scalar value.toNat).text,
          (spelling.scalar value.toNat).style, none⟩, m') :: rest, w.jumps⟩ =
            .ok (value.toNat, ⟨rest, w.jumps⟩) :=
        readTime_spelling spelling value.toNat_lt rfl path
      cases key with
      | crashThreshold => exact absurd rfl isTime
      | _ => exact hread
  | threshold value =>
      refine readPair_known hitems (ofText?_string .crashThreshold) (hfresh _ rfl) fun path => ?_
      rw [readValue, follow_scalar rfl]
      exact countOf_toDigits value.toNat_lt path
  | other name value unknown nameIsWord nameIsShort valueIsWord =>
      refine readPair_unknown hitems ?_
      rw [Scalar.string, ← unknown]
      simp [Line.entry]

/-! ## All lines -/

theorem addTo_of_given {l : Line} {key : Key} {n : Nat} (h : l.given? = some (key, n)) (g : Given) :
    l.addTo g = g.put n key := by
  simp [Line.addTo, h]

theorem addTo_of_not_given {l : Line} (h : l.given? = none) (g : Given) : l.addTo g = g := by
  simp [Line.addTo, h]

theorem get?_put_of_fresh {k : Key} {kvs : List (Key × Nat)} (hnew : ∀ kv ∈ kvs, k ≠ kv.1) {g : Given}
    (hfresh : ∀ kv ∈ kvs, g.get? kv.1 = none) (n : Nat) :
    ∀ kv ∈ kvs, (g.put n k).get? kv.1 = none := by
  intro kv hkv
  rw [Given.get?_put_of_ne g n (hnew kv hkv)]
  exact hfresh kv hkv

/-- A value that is put first may as well be looked up first, if no other has its key. -/
theorem lookup_or_put {k : Key} {kvs : List (Key × Nat)} (hnew : ∀ kv ∈ kvs, k ≠ kv.1) (n : Nat)
    (g : Given) (key : Key) :
    (kvs.lookup key).or ((g.put n k).get? key) = (((k, n) :: kvs).lookup key).or (g.get? key) := by
  by_cases hkey : key = k
  · subst hkey
    have hlookup : kvs.lookup key = none := by
      rw [List.lookup_eq_none_iff]
      exact fun kv hkv => bne_iff_ne.mpr (hnew kv hkv)
    rw [hlookup, List.lookup_cons_self, Given.get?_put_self]
    rfl
  · rw [List.lookup_cons, beq_eq_false_iff_ne.mpr hkey, Given.get?_put_of_ne g n (Ne.symm hkey)]

/-- The lines up to the end of the mapping are read as what they say. -/
theorem pairs_lines {lines : List Line} {g : Given}
    (hitems : w.items.map Prod.fst =
      ((lines.map Line.entry).flatMap Entry.scalars).map .scalar ++ [.mappingEnd])
    (hdistinct : ((given lines).map Prod.fst).Nodup)
    (hfresh : ∀ kv ∈ given lines, g.get? kv.1 = none) {fuel : Nat} (hfuel : lines.length ≤ fuel) :
    ∃ g' w', Walk.pairs d (readPair d) (fuel + 1) g w = .ok (g', w') ∧
      ∀ key, g'.get? key = ((given lines).lookup key).or (g.get? key) := by
  induction lines generalizing g w fuel with
  | nil =>
      obtain ⟨⟨_, m⟩, hw, rfl⟩ := List.map_eq_singleton_iff.mp hitems
      refine ⟨g, { w with items := [] }, ?_, fun key => rfl⟩
      simp [Walk.pairs, hw]
  | cons l lines ih =>
      obtain ⟨⟨_, m⟩, _, hw, rfl, hitems⟩ := List.map_eq_cons_iff.mp hitems
      obtain ⟨⟨_, m'⟩, rest, rfl, rfl, hrest⟩ := List.map_eq_cons_iff.mp hitems
      obtain ⟨fuel, rfl⟩ : ∃ f, fuel = f + 1 :=
        Nat.exists_eq_add_one.mpr (Nat.lt_of_lt_of_le (Nat.succ_pos _) hfuel)
      have hpair : readPair d g w = .ok (l.addTo g, { w with items := rest }) := by
        refine readPair_line l hw fun kv hkv => hfresh kv ?_
        exact List.mem_filterMap.mpr ⟨l, List.mem_cons_self, hkv⟩
      have hstep : Walk.pairs d (readPair d) (fuel + 1 + 1) g w =
          Walk.pairs d (readPair d) (fuel + 1) (l.addTo g) { w with items := rest } := by
        rw [Walk.pairs]
        simp [hw, hpair, bind, Except.bind]
      have ih := fun g hdistinct hfresh => ih (w := { w with items := rest }) (g := g) hrest hdistinct
        hfresh (Nat.le_of_succ_le_succ hfuel)
      rw [hstep]
      cases hgiven : l.given? with
      | none =>
          have hlines : given (l :: lines) = given lines := List.filterMap_cons_none hgiven
          rw [hlines] at hdistinct hfresh ⊢
          rw [addTo_of_not_given hgiven]
          exact ih g hdistinct hfresh
      | some kv =>
          obtain ⟨k, n⟩ := kv
          have hlines : given (l :: lines) = (k, n) :: given lines := List.filterMap_cons_some hgiven
          rw [hlines] at hdistinct hfresh ⊢
          obtain ⟨hnotMem, hdistinct⟩ := List.nodup_cons.mp hdistinct
          have hnew : ∀ kv ∈ given lines, k ≠ kv.1 := fun kv hkv h =>
            hnotMem (List.mem_map.mpr ⟨kv, hkv, h.symm⟩)
          have hput := get?_put_of_fresh hnew (fun kv hkv => hfresh kv (List.mem_cons_of_mem _ hkv)) n
          obtain ⟨g', w', hpairs, hget⟩ := ih (g.put n k) hdistinct hput
          rw [addTo_of_given hgiven]
          exact ⟨g', w', hpairs, fun key => (hget key).trans (lookup_or_put hnew n g key)⟩

theorem valueOf_toSettings {g : Given} (h : ∀ n ∈ g.crashThreshold, n < Decimal.wordCount 32)
    (key : Key) : valueOf g.toSettings key = (g.get? key).getD (valueOf {} key) := by
  cases key with
  | crashThreshold =>
      simp only [valueOf, Given.toSettings, Given.get?]
      cases hcount : g.crashThreshold with
      | none => rfl
      | some n =>
          have hlt : n < UInt32.size := h n hcount
          exact UInt32.toNat_ofNat_of_lt' hlt
  | _ => rfl

theorem given_crashThreshold_lt {lines : List Line} {n : Nat}
    (h : (Key.crashThreshold, n) ∈ given lines) : n < Decimal.wordCount 32 := by
  obtain ⟨l, -, hl⟩ := List.mem_filterMap.mp h
  cases l with
  | time key isTime value spelling =>
      obtain ⟨hkey, -⟩ := Prod.mk.inj (Option.some.inj hl)
      exact absurd hkey isTime
  | threshold value =>
      obtain ⟨-, rfl⟩ := Prod.mk.inj (Option.some.inj hl)
      exact value.toNat_lt
  | other => contradiction

theorem trim_render_ne_nil (closed : Bool) (l : Line) (rest : List Line) :
    Text.trim (render closed (l :: rest)).toList ≠ [] := by
  obtain ⟨c, tail, hlines, hc⟩ := Entry.lines_cons closed l.entry (rest.map Line.entry)
  rw [render_eq_lines, String.toList_ofList, List.map_cons, hlines]
  exact Text.trim_ne_nil (isBlank_of_isWordChar (Yaml.isWordChar_of_opensWord hc)) tail

/-- The document of lines for different keys is read as what they say. -/
theorem readDocument_lines {lines : List Line}
    (hitems : d.items.map Prod.fst = .mappingStart none ::
      (((lines.map Line.entry).flatMap Entry.scalars).map .scalar ++ [.mappingEnd]))
    (hdistinct : ((given lines).map Prod.fst).Nodup) :
    ∃ g, readDocument d = .ok g ∧ ∀ key, g.get? key = (given lines).lookup key := by
  obtain ⟨⟨_, m⟩, rest, hd, rfl, hrest⟩ := List.map_eq_cons_iff.mp hitems
  have hlength : lines.length ≤ rest.length := by
    have := congrArg List.length hrest
    simp only [List.length_map, List.length_append,
      Yaml.length_flatMap_entries (f := Entry.scalars) (n := 2) fun _ => rfl] at this
    omega
  obtain ⟨g, w, hpairs, hget⟩ := pairs_lines (d := d) (w := ⟨rest, 0⟩) (g := {}) hrest hdistinct
    (fun kv _ => by cases kv.1 <;> rfl) hlength
  refine ⟨g, ?_, fun key => ?_⟩
  · have hbound : Walk.bound ⟨rest, 0⟩ = rest.length + 1 := rfl
    simp [readDocument, Walk.next, hd, hbound, hpairs, bind, Except.bind, placing_ok]
  · rw [hget]
    cases key <;> exact Option.or_none

/-- Lines for different keys are read as what they say. -/
theorem settingsOf_lines (closed : Bool) (l : Line) (rest : List Line)
    (hdistinct : ((given (l :: rest)).map Prod.fst).Nodup) :
    ∃ s, settingsOf (.ofText (render closed (l :: rest))) = .ok s ∧
      ∀ key, valueOf s key = ((given (l :: rest)).lookup key).getD (valueOf {} key) := by
  obtain ⟨hitems, hbreakage, hmore⟩ :=
    Document.ofText_lines closed l.entry (rest.map Line.entry)
  rw [← List.map_cons, ← render_eq_lines] at hitems hbreakage hmore
  obtain ⟨g, hread, hget⟩ := readDocument_lines hitems hdistinct
  have hfits : ∀ n ∈ g.crashThreshold, n < Decimal.wordCount 32 := by
    intro n hn
    have hlookup : (given (l :: rest)).lookup .crashThreshold = some n := by
      rw [← hget]
      exact hn
    obtain ⟨before, after, hgiven, -⟩ := List.lookup_eq_some_iff.mp hlookup
    have hmem : (Key.crashThreshold, n) ∈ given (l :: rest) := by simp [hgiven]
    exact given_crashThreshold_lt hmem
  refine ⟨g.toSettings, ?_, fun key => ?_⟩
  · simp [settingsOf, hread, hbreakage, hmore, bind, Except.bind]
  · rw [valueOf_toSettings hfits, hget]

/-- Settings written line by line, each key at most once and in any order, among any lines for other
keys, are read as what the lines say, with the defaults for the keys without a line. So is a text of blanks
only, which says nothing. -/
theorem parse_render :
    (∀ (lines : List Line) (closed : Bool), ((given lines).map Prod.fst).Nodup →
      ∃ s, parse (render closed lines) = .ok s ∧
        ∀ key, valueOf s key = ((given lines).lookup key).getD (valueOf {} key)) ∧
    ∀ text : String, (∀ c ∈ text.toList, Text.isBlank c = true) → parse text = .ok {} := by
  have hblank : ∀ text : String, (∀ c ∈ text.toList, Text.isBlank c = true) → parse text = .ok {} := by
    intro text h
    simp [parse, Text.trim_of_blank h]
  refine ⟨fun lines closed hdistinct => ?_, hblank⟩
  cases lines with
  | nil =>
      exact ⟨{}, hblank _ (List.all_eq_true.mp (by cases closed <;> decide)), fun key => rfl⟩
  | cons l rest =>
      obtain ⟨s, hread, hvalues⟩ := settingsOf_lines closed l rest hdistinct
      refine ⟨s, ?_, hvalues⟩
      rw [parse, if_neg (by simpa using trim_render_ne_nil closed l rest), hread]

theorem parse_render_mixed :
    ∃ s, parse ("log-level: 3\ndialTimeoutMs: \"\t 18446744073709551615 \"\n" ++
        "crashThreshold: 4294967295\nretryIntervalMs: 250\n") = .ok s ∧
      valueOf s .dialTimeout = 18446744073709551615 ∧ valueOf s .crashThreshold = 4294967295 ∧
      valueOf s .retryInterval = 250 ∧ valueOf s .crashResetWindow = 3600000 ∧
      valueOf s .serverStopGrace = 1000 := by
  let lines : List Line :=
    [.other "log-level" "3" (by decide) (by decide) (by decide) (by decide),
      .time .dialTimeout (by decide) 18446744073709551615 (.quoted "\t " " " (List.all_eq_true.mp (by decide))),
      .threshold 4294967295, .time .retryInterval (by decide) 250 .plain]
  obtain ⟨s, hread, hvalues⟩ := parse_render.1 lines true (by decide)
  have htext : render true lines = "log-level: 3\ndialTimeoutMs: \"\t 18446744073709551615 \"\n" ++
      "crashThreshold: 4294967295\nretryIntervalMs: 250\n" := by decide +kernel
  rw [htext] at hread
  exact ⟨s, hread, hvalues .dialTimeout, hvalues .crashThreshold, hvalues .retryInterval,
    hvalues .crashResetWindow, hvalues .serverStopGrace⟩

/-- A line for a setting, and one whose key is a character too long. -/
def longKeyLines : List Char :=
  "retryIntervalMs: 200\n".toList ++ (List.replicate (Yaml.keyLimit + 1) 'k' ++ ": 1\n".toList)

/-- The reading stops behind the long key, for which the colon comes too late. -/
theorem tokens_longKeyLines : Yaml.tokens (String.ofList longKeyLines) =
    ([⟨.streamStart, ⟨0, 0⟩, ⟨0, 0⟩⟩, ⟨.blockMappingStart, ⟨0, 0⟩, ⟨0, 0⟩⟩, ⟨.key, ⟨0, 0⟩, ⟨0, 0⟩⟩,
      ⟨.scalar "retryIntervalMs".toList .plain, ⟨0, 0⟩, ⟨0, 15⟩⟩, ⟨.value, ⟨0, 15⟩, ⟨0, 16⟩⟩,
      ⟨.scalar "200".toList .plain, ⟨0, 17⟩, ⟨0, 20⟩⟩],
      some (.fault .keyWithoutColon ⟨1, 1025⟩ (some (.simpleKey, ⟨1, 0⟩)))) := by
  have hall : longKeyLines.all (fun c => c == '\n' || Yaml.isInline c) = true := by decide +kernel
  have hinline : ∀ c ∈ longKeyLines, c = '\n' ∨ Yaml.isInline c = true := fun c hc => by
    simpa using List.all_eq_true.mp hall c hc
  exact (Yaml.tokens_of_inline (by decide) hinline).trans (by decide +kernel)

theorem parse_longKey : (parse (String.ofList longKeyLines)).toOption = none := by
  have htrim : Text.trim longKeyLines ≠ [] := Text.trim_ne_nil (by decide) _
  rw [parse, String.toList_ofList, if_neg (by simpa using htrim), Document.ofText, Yaml.events,
    tokens_longKeyLines]
  decide +kernel

end Config

end PluginKit
