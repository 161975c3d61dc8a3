import PluginKit.Proofs.Wire.Locality
import PluginKit.Proofs.Wire.RoundTrip

/-!
# Fields that a reader does not know

A peer may send fields that the schema does not declare, between the fields of a message and
between those of the messages in it, whose lengths grow with them. A reader of the padded bytes
answers what a reader of the plain ones does: the unknown fields are skipped, and each known field
is read from bytes of its own.
-/

namespace PluginKit

namespace Wire

/-! ## Fields on the wire -/

/-- The base-128 digits of a number, some of which may be zeros at the end. -/
inductive Digits : Nat → Bytes → Prop
  | last {b : UInt8} (small : b.toNat < 128) : Digits b.toNat [b]
  | more {b : UInt8} {high : Nat} {bytes : Bytes} (large : 128 ≤ b.toNat)
      (higher : Digits high bytes) : Digits (b.toNat - 128 + 128 * high) (b :: bytes)

/-- A number of sixty-four bits in at most ten digits. -/
structure Spells (n : Nat) (bytes : Bytes) : Prop where
  digits : Digits n bytes
  short : bytes.length ≤ 10
  fits : n < lengthLimit

/-- The content of a field of some wire type; groups are left aside. -/
inductive Holds : WireType → Bytes → Prop
  | varint {n : Nat} {bytes : Bytes} (spelled : Spells n bytes) : Holds .varint bytes
  | sixtyFourBit {bytes : Bytes} (length : bytes.length = 8) : Holds .sixtyFourBit bytes
  | thirtyTwoBit {bytes : Bytes} (length : bytes.length = 4) : Holds .thirtyTwoBit bytes
  | lengthDelimited {length content : Bytes} (spelled : Spells content.length length) :
      Holds .lengthDelimited (length ++ content)

structure IsKey (number : Nat) (type : WireType) (key : Bytes) : Prop where
  fits : FitsKey number
  spelled : Spells (8 * number + type.code) key

inductive IsField (number : Nat) : Bytes → Prop
  | mk {type : WireType} {key content : Bytes} (keyed : IsKey number type key)
      (holds : Holds type content) : IsField number (key ++ content)

section

variable {number n : Nat} {type : WireType} {bytes key content rest : Bytes}

theorem Digits.readDigits {left : Nat} (h : Digits n bytes) (hlength : bytes.length ≤ left + 1)
    (hn : n < 2 * Nat.pow 128 left) (rest : Bytes) :
    readDigits (left + 1) (bytes ++ rest) = some (n, rest) := by
  induction h generalizing left with
  | @last b small =>
      have hlast : ¬(left = 0 ∧ 2 ≤ b.toNat) := by
        rintro ⟨rfl, large⟩
        exact absurd hn (Nat.not_lt.mpr large)
      rw [List.singleton_append, Wire.readDigits, if_pos small, if_neg hlast]
  | @more b high bytes large higher ih =>
      have hbytes : bytes ≠ [] := by
        rintro rfl
        cases higher
      have hpos := List.length_pos_iff.mpr hbytes
      rw [List.length_cons] at hlength
      obtain ⟨left, rfl⟩ : ∃ l, left = l + 1 := ⟨left - 1, by omega⟩
      have hpower : 2 * Nat.pow 128 (left + 1) = 128 * (2 * Nat.pow 128 left) := by
        rw [Nat.pow_eq, Nat.pow_eq, Nat.pow_succ]
        omega
      rw [List.cons_append, Wire.readDigits, if_neg (by omega), ih (by omega) (by omega)]

theorem Spells.readNumber (h : Spells n bytes) (rest : Bytes) :
    readNumber (bytes ++ rest) = .ok (n, rest) := by
  have hread := h.digits.readDigits h.short h.fits rest
  rw [Wire.readNumber, readVarint, hread]

theorem IsKey.readKey (h : IsKey number type key) (rest : Bytes) :
    readKey (key ++ rest) = .ok ((number, type), rest) := by
  obtain ⟨⟨hpos, hlimit⟩, spelled⟩ := h
  have hcode := code_lt type
  have htype : (8 * number + type.code) % 8 = type.code := by omega
  have hfield : (8 * number + type.code) / 8 = number := by omega
  have hkey : ¬keyLimit ≤ 8 * number + type.code := by
    simp only [keyLimit]
    omega
  rw [readKey_eq, spelled.readNumber]
  simp only [Except.bind, splitKey, htype, hfield, WireType.ofCode?_code, if_neg hkey,
    if_neg (Nat.ne_of_gt hpos), Except.map]

theorem IsKey.ne_nil (h : IsKey number type key) : key ≠ [] := by
  rintro rfl
  have := h.readKey []
  rw [List.append_nil, readKey_nil] at this
  cases this

theorem Holds.skipField (h : Holds type content) (depth number : Nat) (rest : Bytes) :
    skipField (depth + 1) number type (content ++ rest) = .ok rest := by
  cases h with
  | varint spelled =>
      rw [Wire.skipField, spelled.readNumber]
      rfl
  | sixtyFourBit length =>
      rw [Wire.skipField, dropBytes, if_neg (by rw [List.length_append]; omega),
        List.drop_left' length]
  | thirtyTwoBit length =>
      rw [Wire.skipField, dropBytes, if_neg (by rw [List.length_append]; omega),
        List.drop_left' length]
  | lengthDelimited spelled =>
      rw [skipField_lengthDelimited, List.append_assoc, spelled.readNumber]
      simp only [Except.bind, dropBytes, List.length_append]
      rw [if_neg (by omega), List.drop_left]

end

/-! ## Known fields end where they should -/

section Framing

variable {α β : Type} {type : WireType} {content buf rest : Bytes}

/-- A reader that succeeds on the content of a field has taken all of it and nothing else. -/
def Framed (type : WireType) (read : Bytes → FieldRead α) : Prop :=
  ∀ content more value rest, Holds type content →
    read (content ++ more) = .ok (value, rest) → rest = more

theorem Framed.map {read : Bytes → FieldRead α} (h : Framed type read) (f : α → β) :
    Framed type fun buf => (read buf).map fun found => (f found.1, found.2) := by
  intro content more value rest holds hread
  obtain ⟨⟨first, left⟩, hfirst, hvalue⟩ := map_eq_ok hread
  cases hvalue
  exact h content more first left holds hfirst

theorem framed_skipField (depth number : Nat) (type : WireType) (value : α) :
    Framed type fun buf =>
      (unplaced (skipField depth number type buf)).map fun rest => (value, rest) := by
  intro content more value' rest holds hread
  obtain ⟨left, hskip, hvalue⟩ := map_eq_ok hread
  cases hvalue
  rw [unplaced_ok_iff] at hskip
  cases depth with
  | zero => cases hskip
  | succ depth =>
      rw [holds.skipField] at hskip
      exact (Except.ok.inj hskip).symm

theorem skipField_of_readDelimited (h : readDelimited buf = .ok (content, rest)) :
    skipField 1 0 .lengthDelimited buf = .ok rest := by
  rw [readDelimited] at h
  rw [skipField_lengthDelimited]
  cases hnumber : readNumber buf with
  | error e =>
      rw [hnumber] at h
      cases h
  | ok found =>
      obtain ⟨n, left⟩ := found
      simp only [hnumber] at h
      simp only [Except.bind, dropBytes]
      by_cases hshort : left.length < n
      · rw [if_pos hshort] at h
        cases h
      · rw [if_neg hshort] at h ⊢
        cases h
        rfl

theorem skipField_of_readNumber {γ : Type} (f : Nat → γ) {value : γ}
    (h : (readNumber buf).map (fun found => (f found.1, found.2)) = .ok (value, rest)) :
    skipField 1 0 .varint buf = .ok rest := by
  obtain ⟨⟨n, left⟩, hn, hvalue⟩ := map_eq_ok h
  cases hvalue
  rw [skipField, hn]
  rfl

theorem skipField_of_readFixed64 {value : UInt64} (h : readFixed64 buf = .ok (value, rest)) :
    skipField 1 0 .sixtyFourBit buf = .ok rest := by
  rw [readFixed64] at h
  change dropBytes 8 buf = .ok rest
  rw [dropBytes]
  by_cases hshort : buf.length < 8
  · rw [if_pos hshort] at h
    cases h
  · rw [if_neg hshort] at h ⊢
    cases h
    rfl

/-- What is read of a scalar is what would have been skipped. -/
theorem Scalar.skipField_of_read {s : Scalar} {value : s.Carrier}
    (h : s.read s.wireType buf = .ok (value, rest)) : skipField 1 0 s.wireType buf = .ok rest := by
  cases s with
  | string =>
      simp only [read, expectWireType, if_true] at h
      cases hcontent : readDelimited buf with
      | error e =>
          rw [hcontent] at h
          cases h
      | ok found =>
          obtain ⟨content, left⟩ := found
          simp only [hcontent] at h
          split at h
          · cases h
          · cases h
            exact skipField_of_readDelimited hcontent
  | bytes =>
      simp only [read, expectWireType, if_true] at h
      exact skipField_of_readDelimited h
  | double =>
      simp only [read, expectWireType, if_true] at h
      exact skipField_of_readFixed64 h
  | bool =>
      simp only [read, expectWireType, if_true] at h
      exact skipField_of_readNumber (fun n => n != 0) h
  | int64 =>
      simp only [read, expectWireType, if_true] at h
      exact skipField_of_readNumber (fun n => (UInt64.ofNat n).toInt64) h
  | uint64 =>
      simp only [read, expectWireType, if_true] at h
      exact skipField_of_readNumber UInt64.ofNat h
  | enum =>
      simp only [read, expectWireType, if_true] at h
      exact skipField_of_readNumber (fun n => (UInt64.ofNat n).toUInt32.toInt32) h

theorem Scalar.read_framed (s : Scalar) (type : WireType) :
    Framed type fun buf => unplaced (s.read type buf) := by
  intro content more value rest holds hread
  have hread := unplaced_ok_iff.mp hread
  by_cases htype : type = s.wireType
  · subst htype
    have hskip := Scalar.skipField_of_read hread
    rw [holds.skipField] at hskip
    exact (Except.ok.inj hskip).symm
  · simp only [read, expectWireType, if_neg htype] at hread
    cases hread

theorem Repeatable.readNested_framed {step : α → Bytes → FieldRead α} (h : Repeatable step)
    (a : α) : Framed .lengthDelimited (readNested step a) := by
  intro content more b rest holds hread
  obtain ⟨inner, hnumber, -⟩ := h.readNested_iff.mp hread
  cases holds with
  | @lengthDelimited length content spelled =>
      rw [List.append_assoc, spelled.readNumber] at hnumber
      obtain ⟨hlength, hsame⟩ := Prod.mk.inj (Except.ok.inj hnumber)
      exact (List.append_inj hsame hlength).2.symm

theorem readRepeatedScalar_framed (s : Scalar) (type : WireType) (values : List s.Carrier) :
    Framed type (readRepeatedScalar s type values) := by
  intro content more after rest holds hread
  by_cases hrun : s.isPacked ∧ type = .lengthDelimited
  · obtain ⟨hpacked, rfl⟩ := hrun
    simp only [readRepeatedScalar, hpacked, true_and, if_true] at hread
    exact (Scalar.packed_repeatable hpacked).readNested_framed values _ _ _ _ holds hread
  · simp only [readRepeatedScalar, if_neg hrun] at hread
    exact ((s.read_framed type).map fun value => values ++ [value]) _ _ _ _ holds hread

theorem readMessage_framed (depth : Nat)
    {merge : Nat → Nat → WireType → α → Bytes → FieldRead α}
    (h : ∀ depth number type value, Local (merge depth number type value)) (type : WireType)
    (value : α) : Framed type (readMessage depth merge type value) := by
  intro content more after rest holds hread
  by_cases htype : type = .lengthDelimited
  · subst htype
    cases depth with
    | zero => cases hread
    | succ depth => exact (keyed_repeatable (h depth)).readNested_framed value _ _ _ _ holds hread
  · simp only [readMessage, expectWireType, if_neg htype, unplaced] at hread
    cases hread

theorem Element.merge_framed (e : Element) (depth : Nat) (type : WireType) (value : e.Carrier) :
    Framed type (e.merge depth type value) := by
  cases e with
  | scalar s => exact s.read_framed type
  | message name fields => exact readMessage_framed depth (fields.merge_local _) type value

theorem readEntry_framed (default : α) (depth : Nat)
    {read : Nat → WireType → α → Bytes → FieldRead α}
    (h : ∀ depth type value, Local (read depth type value)) :
    Framed .lengthDelimited (readEntry default depth read) := by
  intro content more entry rest holds hread
  cases depth with
  | zero => cases hread
  | succ depth =>
      rw [readEntry_eq] at hread
      exact (keyed_repeatable (mergeEntry_local (h depth))).readNested_framed _ _ _ _ _ holds hread

/-- The type of a map field is not looked at, so an entry is framed by a length only. -/
theorem mergeHead_framed (occurrence : Occurrence) (element : Element) (depth : Nat)
    (type : WireType) (first : occurrence.Carrier element element.Carrier)
    (h : type = .lengthDelimited ∨ occurrence ≠ .map) :
    Framed type (mergeHead occurrence element depth type first) := by
  cases occurrence with
  | one =>
      cases element with
      | scalar s => exact s.read_framed type
      | message name fields => exact (Element.merge_framed _ depth type _).map some
  | many =>
      cases element with
      | scalar s => exact readRepeatedScalar_framed s type first
      | message name fields =>
          exact (Element.merge_framed _ depth type _).map fun found => first ++ [found]
  | map =>
      obtain rfl : type = .lengthDelimited := h.resolve_right fun hnot => hnot rfl
      exact (readEntry_framed element.default depth element.merge_local).map
        fun entry => first.insert entry.1 entry.2

end Framing

/-! ## What lies in a field -/

def entryFields (element : Element) : Fields :=
  .cons ⟨1, "key", "key"⟩ .one (.scalar .string)
    (.cons ⟨2, "value", "value"⟩ .one element .nil)

/-- The fields of the messages that a field holds; those of a map are its entries. -/
def Occurrence.inner? : Occurrence → Element → Option Fields
  | .map, element => some (entryFields element)
  | _, .message _ fields => some fields
  | _, .scalar _ => none

/-- The fields of the messages that the field `number` holds. -/
def Fields.inner? : Fields → Nat → Option Fields
  | .nil, _ => none
  | .cons field occurrence element rest, number =>
      if number = field.number then occurrence.inner? element else rest.inner? number

/-- The merges of a reader that knows some fields: those of a message, and those of an entry. -/
inductive Knows : Fields → {α : Type} → (Nat → WireType → α → Bytes → FieldRead α) → Prop
  | record {fields : Fields} {depth : Nat} (owner : String)
      (readable : fields.isReadable depth = true) : Knows fields (fields.merge owner (depth + 1))
  | entry {element : Element} {depth : Nat} (readable : element.isReadable depth = true) :
      Knows (entryFields element) (mergeEntry (depth + 1) element.merge)

section Knows

variable {α : Type} {fields inner : Fields} {merge : Nat → WireType → α → Bytes → FieldRead α}
  {number : Nat} {type : WireType}

theorem Knows.isLocal (h : Knows fields merge) (number : Nat) (type : WireType) (a : α) :
    Local (merge number type a) := by
  cases h with
  | record owner => exact fields.merge_local owner _ number type a
  | entry => exact mergeEntry_local (Element.merge_local _ _) number type a

theorem Knows.repeatable (h : Knows fields merge) : Repeatable (keyed merge) :=
  keyed_repeatable h.isLocal

theorem Fields.merge_of_unknown : (fields : Fields) → (owner : String) → (depth : Nat) →
    number ∉ fields.numbers → (type : WireType) → (value : fields.Record) → (buf : Bytes) →
      fields.merge owner depth number type value buf =
        (unplaced (skipField depth number type buf)).map fun rest => (value, rest)
  | .nil, _, _, _, _, _, _ => by rw [Fields.merge]
  | .cons field _ _ rest, owner, depth, h, type, value, buf => by
      have hne : number ≠ field.number := fun heq => h (heq ▸ List.mem_cons_self)
      have hrest : number ∉ rest.numbers := fun hmem => h (List.mem_cons_of_mem _ hmem)
      rw [Fields.merge_of_ne hne, rest.merge_of_unknown owner depth hrest]
      cases skipField depth number type buf <;> rfl

theorem mergeEntry_of_unknown {β : Type} (depth : Nat)
    (read : Nat → WireType → β → Bytes → FieldRead β) (h1 : number ≠ 1) (h2 : number ≠ 2)
    (type : WireType) (entry : String × β) (buf : Bytes) :
    mergeEntry depth read number type entry buf =
      (unplaced (skipField depth number type buf)).map fun rest => (entry, rest) := by
  rcases number with _ | _ | _ | number
  · rfl
  · exact absurd rfl h1
  · exact absurd rfl h2
  · rfl

theorem Knows.skips (h : Knows fields merge) (unknown : number ∉ fields.numbers) {content : Bytes}
    (holds : Holds type content) (a : α) : Takes (merge number type a) content a := by
  intro more
  cases h with
  | record owner =>
      rw [Fields.merge_of_unknown _ _ _ unknown, holds.skipField]
      rfl
  | entry =>
      have h1 : number ≠ 1 := fun heq => unknown (heq ▸ List.mem_cons_self)
      have h2 : number ≠ 2 := fun heq => unknown (heq ▸ List.mem_cons_of_mem _ List.mem_cons_self)
      rw [mergeEntry_of_unknown _ _ h1 h2, holds.skipField]
      rfl

theorem Fields.merge_framed : (fields : Fields) → (owner : String) → (depth : Nat) →
    (type : WireType) → (value : fields.Record) →
    type = .lengthDelimited ∨ fields.inner? number = none →
      Framed type (fields.merge owner depth number type value)
  | .nil, _, depth, type, value, _ => by
      intro content more after rest holds hread
      rw [Fields.merge] at hread
      exact framed_skipField depth number type value _ _ _ _ holds hread
  | .cons field occurrence element rest, owner, depth, type, value, h => by
      intro content more after left holds hread
      by_cases hnumber : number = field.number
      · subst hnumber
        rw [Fields.merge_head] at hread
        obtain ⟨⟨first, left'⟩, hfirst, hafter⟩ := map_eq_ok hread
        cases hafter
        refine mergeHead_framed occurrence element depth type value.1 (h.imp_right ?_) _ _ _ _ holds
          (placed_ok_iff.mp hfirst)
        rintro hflat rfl
        simp [Fields.inner?, Occurrence.inner?] at hflat
      · rw [Fields.merge_of_ne hnumber] at hread
        obtain ⟨⟨others, left'⟩, hothers, hafter⟩ := map_eq_ok hread
        cases hafter
        refine rest.merge_framed owner depth type value.2 (h.imp_right ?_) _ _ _ _ holds hothers
        rw [Fields.inner?, if_neg hnumber]
        exact id

theorem mergeEntry_framed {element : Element} {depth : Nat} {type : WireType}
    (entry : String × element.Carrier) :
    Framed type (mergeEntry depth element.merge number type entry) := by
  rcases number with _ | _ | _ | number
  · exact framed_skipField depth 0 type entry
  · exact (Scalar.string.read_framed type).map fun key => (key, entry.2)
  · exact (element.merge_framed depth type entry.2).map fun value => (entry.1, value)
  · exact framed_skipField depth (number + 3) type entry

theorem Knows.framed (h : Knows fields merge)
    (framed : type = .lengthDelimited ∨ fields.inner? number = none) (a : α) :
    Framed type (merge number type a) := by
  cases h with
  | record owner => exact fields.merge_framed owner _ type a framed
  | entry => exact mergeEntry_framed a

/-- A reader that reads nested fields, by a merge that knows them. -/
def Opens (read : α → Bytes → FieldRead α) (inner : Fields) : Prop :=
  ∃ (β : Type) (nested : Nat → WireType → β → Bytes → FieldRead β), Knows inner nested ∧
    ∀ a, ∃ (before : β) (finish : β → α), ∀ buf b rest,
      read a buf = .ok (b, rest) ↔
        ∃ after, readNested (keyed nested) before buf = .ok (after, rest) ∧ b = finish after

/-- A reader that does the same to a part of its value reads the same fields. -/
theorem Opens.lift {γ : Type} {read : α → Bytes → FieldRead α} {read' : γ → Bytes → FieldRead γ}
    (h : Opens read inner) (get : γ → α) (put : γ → α → γ)
    (same : ∀ c buf found, read' c buf = .ok found ↔
      (read (get c) buf).map (fun found => (put c found.1, found.2)) = .ok found) :
    Opens read' inner := by
  obtain ⟨β, nested, knows, hreads⟩ := h
  refine ⟨β, nested, knows, fun c => ?_⟩
  obtain ⟨before, finish, hread⟩ := hreads (get c)
  refine ⟨before, fun after => put c (finish after), fun buf b rest => ?_⟩
  rw [same]
  constructor
  · intro hfound
    obtain ⟨⟨a, left⟩, ha, hb⟩ := map_eq_ok hfound
    cases hb
    obtain ⟨after, hafter, rfl⟩ := (hread _ _ _).mp ha
    exact ⟨after, hafter, rfl⟩
  · rintro ⟨after, hafter, rfl⟩
    rw [(hread _ _ _).mpr ⟨after, hafter, rfl⟩]
    rfl

theorem opens_message {name : String} {depth : Nat}
    (readable : (Element.message name inner).isReadable depth = true) :
    Opens ((Element.message name inner).merge (depth + 1) .lengthDelimited) inner := by
  obtain ⟨depth, rfl⟩ := Element.exists_depth readable
  refine ⟨_, _, .record (MessageType.shortName name) readable, fun a => ⟨a, id, ?_⟩⟩
  intro buf b rest
  constructor
  · intro hread
    exact ⟨b, hread, rfl⟩
  · rintro ⟨after, hread, rfl⟩
    exact hread

theorem opens_entry {element : Element} {depth : Nat} (readable : element.isReadable depth = true) :
    Opens (fun _ => readEntry element.default (depth + 2) element.merge) (entryFields element) := by
  refine ⟨_, _, .entry readable, fun _ => ⟨("", element.default), id, ?_⟩⟩
  intro buf b rest
  change readEntry _ (depth + 1 + 1) _ buf = _ ↔ _
  rw [readEntry_eq]
  constructor
  · intro hread
    exact ⟨b, hread, rfl⟩
  · rintro ⟨after, hread, rfl⟩
    exact hread

theorem mergeHead_opens {occurrence : Occurrence} {element : Element} {depth : Nat}
    (hinner : occurrence.inner? element = some inner)
    (item : occurrence ≠ .map → element.isReadable depth = true)
    (value : occurrence = .map → ∃ left, depth = left + 1 ∧ element.isReadable left = true) :
    Opens (mergeHead occurrence element (depth + 1) .lengthDelimited) inner := by
  cases occurrence with
  | one =>
      cases element with
      | scalar s => cases hinner
      | message name fields =>
          cases hinner
          exact (opens_message (item (by decide))).lift (fun first => first.getD inner.default)
            (fun _ => some) fun _ _ _ => Iff.rfl
  | many =>
      cases element with
      | scalar s => cases hinner
      | message name fields =>
          cases hinner
          exact (opens_message (item (by decide))).lift (fun _ => inner.default)
            (fun first found => first ++ [found]) fun _ _ _ => Iff.rfl
  | map =>
      cases hinner
      obtain ⟨left, rfl, readable⟩ := value rfl
      exact (opens_entry readable).lift (fun _ => ("", element.default))
        (fun first entry => first.insert entry.1 entry.2) fun _ _ _ => Iff.rfl

theorem Fields.merge_opens : (fields : Fields) → (owner : String) → {depth : Nat} →
    fields.isReadable depth = true → fields.inner? number = some inner →
      Opens (fields.merge owner (depth + 1) number .lengthDelimited) inner
  | .nil, _, _, _, hinner => by cases hinner
  | .cons field occurrence element rest, owner, depth, readable, hinner => by
      obtain ⟨-, -, others, item, value⟩ := Fields.heads readable
      by_cases hnumber : number = field.number
      · subst hnumber
        rw [Fields.inner?, if_pos rfl] at hinner
        refine (mergeHead_opens hinner item value).lift Prod.fst (fun all first => (first, all.2)) ?_
        intro all buf found
        rw [Fields.merge_head]
        cases mergeHead occurrence element (depth + 1) .lengthDelimited all.1 buf <;>
          simp [placed, Except.map]
      · rw [Fields.inner?, if_neg hnumber] at hinner
        refine (rest.merge_opens owner others hinner).lift Prod.snd
          (fun all others => (all.1, others)) ?_
        intro all buf found
        rw [Fields.merge_of_ne hnumber]

/-- Whatever lies in a field is read by a merge that knows it. -/
theorem Knows.opens (h : Knows fields merge) (hinner : fields.inner? number = some inner) :
    Opens (merge number .lengthDelimited) inner := by
  cases h with
  | record owner readable => exact Fields.merge_opens _ owner readable hinner
  | @entry element depth readable =>
      by_cases hkey : number = 1
      · subst hkey
        cases hinner
      · by_cases hvalue : number = 2
        · subst hvalue
          cases element with
          | scalar s => cases hinner
          | message name fields =>
              cases hinner
              exact (opens_message readable).lift Prod.snd (fun entry value => (entry.1, value))
                fun _ _ _ => Iff.rfl
        · simp [entryFields, Fields.inner?, hkey, hvalue] at hinner

end Knows

/-! ## Padding -/

/-- The same fields with others between them that are not declared, also in the messages that
fields hold. -/
inductive Fields.Pads : Fields → Bytes → Bytes → Prop
  | done (fields : Fields) : Fields.Pads fields [] []
  | unknown {fields : Fields} {number : Nat} {field plain padded : Bytes}
      (undeclared : number ∉ fields.numbers) (isField : IsField number field)
      (others : Fields.Pads fields plain padded) : Fields.Pads fields plain (field ++ padded)
  | same {fields : Fields} {number : Nat} {field plain padded : Bytes}
      (flat : fields.inner? number = none) (isField : IsField number field)
      (others : Fields.Pads fields plain padded) :
      Fields.Pads fields (field ++ plain) (field ++ padded)
  | nested {fields inner : Fields} {number : Nat}
      {key length length' content content' plain padded : Bytes}
      (holds : fields.inner? number = some inner) (isKey : IsKey number .lengthDelimited key)
      (spelled : Spells content.length length) (spelled' : Spells content'.length length')
      (pads : Fields.Pads inner content content') (others : Fields.Pads fields plain padded) :
      Fields.Pads fields (key ++ (length ++ content) ++ plain)
        (key ++ (length' ++ content') ++ padded)

section Padding

variable {α : Type} {fields inner : Fields} {merge : Nat → WireType → α → Bytes → FieldRead α}
  {number : Nat} {type : WireType} {a b : α}

theorem keyed_of_isKey {key : Bytes} (isKey : IsKey number type key)
    (merge : Nat → WireType → α → Bytes → FieldRead α) (a : α) (buf : Bytes) :
    keyed merge a (key ++ buf) = merge number type a buf := by
  rw [keyed, isKey.readKey]
  rfl

/-- The first step over bytes that begin with a field takes this field. -/
theorem Knows.cut (h : Knows fields merge) {key content plain : Bytes}
    (framed : type = .lengthDelimited ∨ fields.inner? number = none)
    (isKey : IsKey number type key) (holds : Holds type content)
    (consumes : Consumes (keyed merge) a (key ++ content ++ plain) b) :
    ∃ middle, Takes (keyed merge a) (key ++ content) middle ∧
      Consumes (keyed merge) middle plain b := by
  obtain ⟨hempty, -⟩ | ⟨piece, others, middle, hsplit, takes, hothers⟩ := consumes.uncons
  · rw [List.append_assoc] at hempty
    exact absurd (List.append_eq_nil_iff.mp hempty).1 isKey.ne_nil
  · have hstep := takes others
    rw [← hsplit, List.append_assoc, keyed_of_isKey isKey] at hstep
    obtain rfl := h.framed framed a _ _ _ _ holds hstep
    rw [List.append_cancel_right hsplit]
    exact ⟨middle, takes, hothers⟩

/-- A field that holds messages leads to the same value when these are padded. -/
theorem Knows.takes_nested (h : Knows fields merge) (hinner : fields.inner? number = some inner)
    {key length length' content content' : Bytes} (isKey : IsKey number .lengthDelimited key)
    (spelled : Spells content.length length) (spelled' : Spells content'.length length')
    (hcontent : ∀ {β : Type} {nested : Nat → WireType → β → Bytes → FieldRead β} {before after : β},
      Knows inner nested → Consumes (keyed nested) before content after →
        Consumes (keyed nested) before content' after)
    (takes : Takes (keyed merge a) (key ++ (length ++ content)) b) :
    Takes (keyed merge a) (key ++ (length' ++ content')) b := by
  obtain ⟨β, nested, knows, hreads⟩ := h.opens hinner
  obtain ⟨before, finish, hread⟩ := hreads a
  intro more
  have hplain := takes more
  rw [List.append_assoc, keyed_of_isKey isKey, List.append_assoc] at hplain ⊢
  obtain ⟨after, hnested, rfl⟩ := (hread _ _ _).mp hplain
  obtain ⟨content'', hnumber, hconsumes⟩ := knows.repeatable.readNested_iff.mp hnested
  rw [spelled.readNumber] at hnumber
  obtain rfl := List.append_cancel_right (Prod.mk.inj (Except.ok.inj hnumber)).2
  refine (hread _ _ _).mpr ⟨after, ?_, rfl⟩
  exact knows.repeatable.readNested_iff.mpr
    ⟨content', spelled'.readNumber _, hcontent knows hconsumes⟩

/-- What leads a reader from one value to another does so when it is padded. -/
theorem Fields.Pads.consumes {plain padded : Bytes} (h : fields.Pads plain padded)
    (knows : Knows fields merge) (consumes : Consumes (keyed merge) a plain b) :
    Consumes (keyed merge) a padded b := by
  induction h generalizing α with
  | done fields => exact consumes
  | unknown undeclared isField _ ih =>
      obtain ⟨isKey, holds⟩ := isField
      refine .more ?_ ?_ (ih knows consumes)
      · exact List.append_ne_nil_of_left_ne_nil isKey.ne_nil _
      · intro rest
        rw [List.append_assoc, keyed_of_isKey isKey]
        exact knows.skips undeclared holds a rest
  | same flat isField _ ih =>
      obtain ⟨isKey, holds⟩ := isField
      obtain ⟨middle, takes, hothers⟩ := knows.cut (.inr flat) isKey holds consumes
      exact .more (List.append_ne_nil_of_left_ne_nil isKey.ne_nil _) takes (ih knows hothers)
  | nested holds isKey spelled spelled' _ _ ihContent ih =>
      obtain ⟨middle, takes, hothers⟩ :=
        knows.cut (.inl rfl) isKey (.lengthDelimited spelled) consumes
      refine .more (List.append_ne_nil_of_left_ne_nil isKey.ne_nil _) ?_ (ih knows hothers)
      exact knows.takes_nested holds isKey spelled spelled' ihContent takes

end Padding

/-- A message that can be read is read the same when it is padded. -/
theorem MessageType.decode_of_pads {t : MessageType} {plain padded : Bytes} {m : t.Value}
    (readable : t.fields.isReadable (depthLimit - 1) = true) (h : t.fields.Pads plain padded)
    (hread : t.decode plain = .ok m) : t.decode padded = .ok m := by
  have knows : Knows t.fields (t.fields.merge (shortName t.name) depthLimit) :=
    .record (shortName t.name) readable
  obtain ⟨⟨m', rest⟩, hwhile, rfl⟩ := map_eq_ok hread
  obtain ⟨hend, content, rfl, hconsumes⟩ := knows.repeatable.consumes hwhile
  obtain rfl := List.eq_nil_of_length_eq_zero (Nat.le_zero.mp hend)
  rw [List.append_nil] at h
  have hpadded := MessageType.merge_append (h.consumes knows hconsumes) (.done m')
  rw [List.append_nil] at hpadded
  exact hpadded

end Wire

end PluginKit
