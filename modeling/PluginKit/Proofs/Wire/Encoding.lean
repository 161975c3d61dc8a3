import PluginKit.Proofs.Wire.Feeding
import PluginKit.Proofs.Wire.Combination

/-!
# What bytes stand for a message

A writer may write the entries of a map in any order, so a message has more than one form on the
wire. Each of them feeds a reader, from any record, to the combination of that record with what
comes back of the message.
-/

namespace PluginKit

namespace Wire

/-! ## The forms of a message -/

mutual

def Element.Encodes : (e : Element) → e.Carrier → Bytes → Prop
  | .scalar s, value, bytes => bytes = s.write value
  | .message _ fields, value, bytes =>
      ∃ content, fields.Encodes value content ∧ bytes = writeDelimited content

/-- Bytes that a writer may write for a record, with the entries of a map in any order. -/
def Fields.Encodes : (fields : Fields) → fields.Record → Bytes → Prop
  | .nil, _, bytes => bytes = []
  | .cons field .one (.scalar s) rest, value, bytes =>
      ∃ tail, rest.Encodes value.2 tail ∧
        bytes = writeScalarField field.number s value.1 ++ tail
  | .cons field .one (.message _ fields) rest, value, bytes =>
      ∃ head tail, rest.Encodes value.2 tail ∧ bytes = head ++ tail ∧
        match value.1 with
        | none => head = []
        | some inner => ∃ content, fields.Encodes inner content ∧
            head = writeField field.number .lengthDelimited (writeDelimited content)
  | .cons field .many element rest, value, bytes =>
      ∃ (items : List (element.Carrier × Bytes)) (tail : Bytes), rest.Encodes value.2 tail ∧
        items.map Prod.fst = value.1 ∧ (∀ item ∈ items, element.Encodes item.1 item.2) ∧
        bytes = writeRepeated field.number element Prod.snd items ++ tail
  | .cons field .map element rest, value, bytes =>
      ∃ (entries : List (String × element.Carrier × Bytes)) (tail : Bytes),
        rest.Encodes value.2 tail ∧
        (entries.map fun entry => (entry.1, entry.2.1)).Perm value.1.entries ∧
        (∀ entry ∈ entries, element.Encodes entry.2.1 entry.2.2) ∧
        bytes = writeEntries field.number element Prod.snd (fun v => element.isDefault v.1)
          entries ++ tail

end

def MessageType.Encodes (t : MessageType) (value : t.Value) (bytes : Bytes) : Prop :=
  t.fields.Encodes value bytes

theorem writeRepeated_map {α β : Type} (number : Nat) (element : Element) (write : β → Bytes)
    (f : α → β) (values : List α) :
    writeRepeated number element write (values.map f) =
      writeRepeated number element (write ∘ f) values := by
  cases element <;> simp [writeRepeated, List.flatMap_map, Function.comp_def]

theorem writeEntries_map {α β : Type} (number : Nat) (element : Element) (write : β → Bytes)
    (isDefault : β → Bool) (f : α → β) (entries : List (String × α)) :
    writeEntries number element write isDefault (entries.map fun entry => (entry.1, f entry.2)) =
      writeEntries number element (write ∘ f) (isDefault ∘ f) entries := by
  simp only [writeEntries, List.flatMap_map]
  rfl

/-- The entries of a map may be written in any order. -/
theorem Fields.encodes_map {field : FieldName} {element : Element} {rest : Fields}
    (hwrite : ∀ v, element.Encodes v (element.write v)) {first : KeyMap element.Carrier}
    {entries : List (String × element.Carrier)} (hentries : entries.Perm first.entries)
    {others : rest.Record} {tail : Bytes} (htail : rest.Encodes others tail) :
    (Fields.cons field .map element rest).Encodes (first, others)
      (writeEntries field.number element element.write element.isDefault entries ++ tail) := by
  refine ⟨entries.map fun entry => (entry.1, entry.2, element.write entry.2), _, htail, ?_, ?_, ?_⟩
  · simpa [Function.comp_def] using hentries
  · intro item hitem
    obtain ⟨entry, -, rfl⟩ := List.mem_map.mp hitem
    exact hwrite entry.2
  · rw [writeEntries_map _ _ _ _ fun v => (v, element.write v)]
    rfl

mutual

theorem Element.encodes_write : (e : Element) → (v : e.Carrier) → e.Encodes v (e.write v)
  | .scalar _, _ => rfl
  | .message _ fields, v => ⟨_, fields.encodes_write v, rfl⟩

theorem Fields.encodes_write :
    (fields : Fields) → (v : fields.Record) → fields.Encodes v (fields.write v)
  | .nil, _ => rfl
  | .cons _ .one (.scalar _) rest, (_, others) => ⟨_, rest.encodes_write others, rfl⟩
  | .cons _ .one (.message _ fields) rest, (first, others) => by
      refine ⟨_, _, rest.encodes_write others, rfl, ?_⟩
      cases first with
      | none => rfl
      | some inner => exact ⟨_, fields.encodes_write inner, rfl⟩
  | .cons _ .many element rest, (first, others) => by
      refine ⟨first.map fun v => (v, element.write v), _, rest.encodes_write others, ?_, ?_, ?_⟩
      · simp [Function.comp_def]
      · intro item hitem
        obtain ⟨v, -, rfl⟩ := List.mem_map.mp hitem
        exact element.encodes_write v
      · rw [writeRepeated_map]
        rfl
  | .cons _ .map element rest, (_, others) =>
      Fields.encodes_map element.encodes_write (.refl _) (rest.encodes_write others)

end

/-! ## Schemas that can be read -/

def Fields.numbers : Fields → List Nat
  | .nil => []
  | .cons field _ _ rest => field.number :: rest.numbers

mutual

def Element.isReadable : Element → Nat → Bool
  | .scalar _, _ => true
  | .message _ _, 0 => false
  | .message _ fields, depth + 1 => fields.isReadable depth

/-- Whether all fields can be told apart, and nest no deeper than a reader goes. The entries of a
map are messages of their own. -/
def Fields.isReadable : Fields → Nat → Bool
  | .nil, _ => true
  | .cons field occurrence element rest, depth =>
      decide (0 < field.number ∧ field.number < 536870912) &&
        !rest.numbers.contains field.number &&
        (if occurrence = .map then decide (0 < depth) && element.isReadable (depth - 1)
          else element.isReadable depth) &&
        rest.isReadable depth

end

/-- What readable fields say of the first of them. -/
structure Heads (field : FieldName) (occurrence : Occurrence) (element : Element) (rest : Fields)
    (depth : Nat) : Prop where
  fits : FitsKey field.number
  fresh : field.number ∉ rest.numbers
  others : rest.isReadable depth = true
  item : occurrence ≠ .map → element.isReadable depth = true
  value : occurrence = .map → ∃ left, depth = left + 1 ∧ element.isReadable left = true

theorem Fields.heads {field : FieldName} {occurrence : Occurrence} {element : Element}
    {rest : Fields} {depth : Nat}
    (h : (Fields.cons field occurrence element rest).isReadable depth = true) :
    Heads field occurrence element rest depth := by
  simp only [isReadable, Bool.and_eq_true, decide_eq_true_eq, Bool.not_eq_true',
    List.contains_eq_mem, decide_eq_false_iff_not] at h
  obtain ⟨⟨⟨hfits, hfresh⟩, helement⟩, hrest⟩ := h
  refine ⟨hfits, hfresh, hrest, fun hnot => ?_, fun hmap => ?_⟩
  · simpa [hnot] using helement
  · simp only [hmap, if_true, Bool.and_eq_true, decide_eq_true_eq] at helement
    exact ⟨depth - 1, by omega, helement.2⟩

end Wire

end PluginKit
