import PluginKit.Proofs.Wire.Encoding

/-!
# Every form of a message feeds a reader

The bytes of a message lead a reader from any record to the combination of that record with what
comes back of the message: field by field, by recursion on the schema.
-/

namespace PluginKit

namespace Wire

/-! ## Lengths of pieces -/

theorem length_lt_of_field {number : Nat} {type : WireType} {content : Bytes}
    (h : (writeField number type content).length < lengthLimit) : content.length < lengthLimit := by
  rw [writeField, List.length_append] at h
  omega

theorem length_lt_of_delimited {content : Bytes}
    (h : (writeDelimited content).length < lengthLimit) : content.length < lengthLimit :=
  Nat.lt_trans (length_writeDelimited content) h

theorem length_lt_of_mem {α : Type} {items : List α} {write : α → Bytes} {item : α}
    (hmem : item ∈ items) (h : (items.flatMap write).length < lengthLimit) :
    (write item).length < lengthLimit := by
  have hpiece : (write item).Sublist (items.flatMap write) :=
    List.sublist_flatten_of_mem (List.mem_map_of_mem hmem)
  exact Nat.lt_of_le_of_lt hpiece.length_le h

section Fields

variable {field : FieldName} {occurrence : Occurrence} {element : Element} {fields rest : Fields}
  {owner name : String} {depth : Nat} {allowed : Nat → Prop} {s : Scalar} {content : Bytes}

/-! ## The place of a field -/

/-- A field that comes later than the first is merged into the record behind it. -/
theorem Fields.merge_of_ne {number : Nat} (h : number ≠ field.number) (type : WireType)
    (value : (Fields.cons field occurrence element rest).Record) (buf : Bytes) :
    (Fields.cons field occurrence element rest).merge owner depth number type value buf =
      (rest.merge owner depth number type value.2 buf).map
        fun read => ((value.1, read.1), read.2) := by
  cases occurrence <;> cases element <;> simp only [Fields.merge, if_neg h]

theorem feeds_cons {first first' : occurrence.Carrier element element.Carrier}
    {others others' : rest.Record} {head tail : Bytes}
    (hfresh : field.number ∉ rest.numbers)
    (hhead : Feeds ((Fields.cons field occurrence element rest).merge owner depth)
      (· ∈ (Fields.cons field occurrence element rest).numbers) (first, others) head
      (first', others))
    (htail : Feeds (rest.merge owner depth) (· ∈ rest.numbers) others tail others') :
    Feeds ((Fields.cons field occurrence element rest).merge owner depth)
      (· ∈ (Fields.cons field occurrence element rest).numbers) (first, others) (head ++ tail)
      (first', others') := by
  refine hhead.append (htail.lift (fun others => (first', others)) ?_ ?_)
  · intro number hnumber
    exact List.mem_cons_of_mem _ hnumber
  · intro number type value buf value' left hnumber hmerge
    have hne : number ≠ field.number := fun heq => hfresh (heq ▸ hnumber)
    rw [Fields.merge_of_ne hne, hmerge]
    rfl

/-! ## Fields that occur once -/

theorem feeds_scalarField (hfits : FitsKey field.number) (hknown : allowed field.number)
    (first value : s.Carrier) (others : rest.Record)
    (hlength : (writeScalarField field.number s value).length < lengthLimit) :
    Feeds ((Fields.cons field .one (.scalar s) rest).merge owner depth) allowed (first, others)
      (writeScalarField field.number s value) (s.combine first (s.kept value), others) := by
  rw [Scalar.combine_kept]
  cases hdefault : s.isDefault value with
  | true =>
      simp only [writeScalarField, hdefault, if_true]
      exact .done _
  | false =>
      simp only [writeScalarField, hdefault, Bool.false_eq_true, if_false] at hlength ⊢
      have hread := s.read_write (length_lt_of_field hlength)
      refine .single hfits hknown fun more => ?_
      simp only [Fields.merge, if_true, hread, unplaced, placed, Except.map]

theorem Feeds.readMessage {α : Type} {merge : Nat → Nat → WireType → α → Bytes → FieldRead α}
    {a b : α} (h : Feeds (merge depth) allowed a content b) (hlength : content.length < lengthLimit)
    (more : Bytes) :
    readMessage (depth + 1) merge .lengthDelimited a (writeDelimited content ++ more) =
      .ok (b, more) :=
  h.consumes.readNested hlength more

theorem feeds_messageField {known : Nat → Prop} {first : Option fields.Record}
    {others : rest.Record} {value : fields.Record}
    (hfits : FitsKey field.number) (hknown : allowed field.number)
    (hcontent : Feeds (fields.merge (MessageType.shortName name) depth) known
      (first.getD fields.default) content value)
    (hlength : content.length < lengthLimit) :
    Feeds ((Fields.cons field .one (.message name fields) rest).merge owner (depth + 1)) allowed
      (first, others) (writeField field.number .lengthDelimited (writeDelimited content))
      (some value, others) := by
  refine .single hfits hknown fun more => ?_
  simp only [Fields.merge, if_true, hcontent.readMessage hlength more, placed, Except.map]

/-! ## Fields that occur many times -/

theorem Scalar.write_ne_nil_of_packed (h : s.isPacked = true) (value : s.Carrier) :
    s.write value ≠ [] := by
  cases s with
  | string => cases h
  | bytes => cases h
  | double => simp [write, writeFixed64]
  | _ => exact writeVarint_ne_nil _

/-- The values of a packed run are appended one after the other. -/
theorem consumes_run (hpacked : s.isPacked = true) (values more : List s.Carrier)
    (hlength : (more.flatMap s.write).length < lengthLimit) :
    Consumes (fun (values : List s.Carrier) buf =>
      (unplaced (s.read s.wireType buf)).map fun (value, rest) => (values ++ [value], rest))
      values (more.flatMap s.write) (values ++ more) := by
  induction more generalizing values with
  | nil =>
      rw [List.append_nil]
      exact .done _
  | cons value more ih =>
      rw [List.flatMap_cons, List.length_append] at hlength
      have hvalue : (s.write value).length < lengthLimit := by omega
      have hmore := ih (values ++ [value]) (by omega)
      rw [List.append_assoc, List.singleton_append] at hmore
      rw [List.flatMap_cons]
      refine .more (Scalar.write_ne_nil_of_packed hpacked value) (fun after => ?_) hmore
      simp only [s.read_write hvalue, unplaced, Except.map]

theorem readRepeatedScalar_packed (hpacked : s.isPacked = true) (values more : List s.Carrier)
    (hlength : (more.flatMap s.write).length < lengthLimit) (after : Bytes) :
    readRepeatedScalar s .lengthDelimited values (writeDelimited (more.flatMap s.write) ++ after) =
      .ok (values ++ more, after) := by
  simp only [readRepeatedScalar, hpacked, true_and, if_true]
  exact (consumes_run hpacked values more hlength).readNested hlength after

theorem readRepeatedScalar_single (hpacked : s.isPacked = false) (values : List s.Carrier)
    {value : s.Carrier} (hlength : (s.write value).length < lengthLimit) (after : Bytes) :
    readRepeatedScalar s s.wireType values (s.write value ++ after) =
      .ok (values ++ [value], after) := by
  simp only [readRepeatedScalar, hpacked, Bool.false_eq_true, false_and, if_false,
    s.read_write hlength, unplaced, Except.map]

theorem feeds_scalars (hfits : FitsKey field.number) (hknown : allowed field.number)
    (first values : List s.Carrier) (others : rest.Record)
    (hlength : (writeRepeated field.number (.scalar s) s.write values).length < lengthLimit) :
    Feeds ((Fields.cons field .many (.scalar s) rest).merge owner depth) allowed (first, others)
      (writeRepeated field.number (.scalar s) s.write values) (first ++ values, others) := by
  cases hpacked : s.isPacked with
  | true =>
      simp only [writeRepeated, hpacked, if_true] at hlength ⊢
      by_cases hempty : values = []
      · subst hempty
        rw [List.append_nil]
        exact .done _
      · simp only [List.isEmpty_iff, hempty, if_false] at hlength ⊢
        refine .single hfits hknown fun more => ?_
        have hrun := readRepeatedScalar_packed hpacked first values
          (length_lt_of_delimited (length_lt_of_field hlength)) more
        simp only [Fields.merge, if_true, hrun, placed, Except.map]
  | false =>
      simp only [writeRepeated, hpacked, Bool.false_eq_true, if_false] at hlength ⊢
      have hall : Feeds ((Fields.cons field .many (.scalar s) rest).merge owner depth) allowed
          (first ++ [], others)
          (values.flatMap fun value => writeField field.number s.wireType (s.write value))
          (first ++ values, others) := by
        refine Feeds.flatMap (fun before => (first ++ before, others)) _ values
          fun before value after hsplit => ?_
        have hmem : value ∈ values := hsplit ▸ List.mem_append_right before List.mem_cons_self
        have hfield := length_lt_of_mem hmem hlength
        have hone := readRepeatedScalar_single hpacked (first ++ before)
          (length_lt_of_field hfield)
        refine .single hfits hknown fun more => ?_
        simp only [Fields.merge, if_true, hone, placed, Except.map, List.append_assoc]
      rwa [List.append_nil] at hall

theorem writeRepeated_forms {number : Nat} {items : List (s.Carrier × Bytes)}
    (hitems : ∀ item ∈ items, item.2 = s.write item.1) :
    writeRepeated number (.scalar s) Prod.snd items =
      writeRepeated number (.scalar s) s.write (items.map Prod.fst) := by
  have hforms : (items.map Prod.fst).map (fun value => (value, s.write value)) = items := by
    rw [List.map_map]
    refine (List.map_congr_left fun item hmem => ?_).trans (List.map_id items)
    exact Prod.ext rfl (hitems item hmem).symm
  have hwritten := writeRepeated_map number (.scalar s) Prod.snd
    (fun value => (value, s.write value)) (items.map Prod.fst)
  rwa [hforms] at hwritten

theorem feeds_messages (known : Nat → Prop) (hfits : FitsKey field.number)
    (hknown : allowed field.number) (first : List fields.Record) (others : rest.Record)
    (items : List (fields.Record × Bytes)) (result : fields.Record → fields.Record)
    (hitems : ∀ item ∈ items, ∃ content, content.length < lengthLimit ∧
      item.2 = writeDelimited content ∧
      Feeds (fields.merge (MessageType.shortName name) depth) known fields.default content
        (result item.1)) :
    Feeds ((Fields.cons field .many (.message name fields) rest).merge owner (depth + 1)) allowed
      (first, others) (writeRepeated field.number (.message name fields) Prod.snd items)
      (first ++ (items.map Prod.fst).map result, others) := by
  have hall : Feeds ((Fields.cons field .many (.message name fields) rest).merge owner (depth + 1))
      allowed (first ++ (([] : List (fields.Record × Bytes)).map Prod.fst).map result, others)
      (writeRepeated field.number (.message name fields) Prod.snd items)
      (first ++ (items.map Prod.fst).map result, others) := by
    refine Feeds.flatMap (fun before => (first ++ (before.map Prod.fst).map result, others)) _ items
      fun before item after hsplit => ?_
    have hmem : item ∈ items := hsplit ▸ List.mem_append_right before List.mem_cons_self
    obtain ⟨content, hlength, hitem, hcontent⟩ := hitems item hmem
    rw [hitem]
    refine .single hfits hknown fun more => ?_
    simp only [Fields.merge, Element.wireType, if_true, hcontent.readMessage hlength more, placed,
      Except.map, List.map_append, List.map_cons, List.map_nil, List.append_assoc]
  rwa [List.map_nil, List.map_nil, List.append_nil] at hall

/-! ## Maps -/

/-- Merges one field of the entry of a map, whose key has been read. -/
def mergeEntry {α : Type} (depth : Nat) (read : Nat → WireType → α → Bytes → FieldRead α) :
    Nat → WireType → String × α → Bytes → FieldRead (String × α)
  | 1, type, entry, buf =>
      (unplaced (Scalar.string.read type buf)).map fun (key, rest) => ((key, entry.2), rest)
  | 2, type, entry, buf =>
      (read depth type entry.2 buf).map fun (value, rest) => ((entry.1, value), rest)
  | number, type, entry, buf =>
      (unplaced (skipField depth number type buf)).map fun rest => (entry, rest)

theorem readEntry_eq {α : Type} (default : α) (depth : Nat)
    (read : Nat → WireType → α → Bytes → FieldRead α) (buf : Bytes) :
    readEntry default (depth + 1) read buf =
      readNested (keyed (mergeEntry depth read)) ("", default) buf := by
  rw [readEntry]
  congr 1
  funext entry buf
  rw [keyed]
  rcases unplaced (readKey buf) with error | ⟨⟨number, type⟩, rest⟩
  · rfl
  · rcases number with _ | _ | _ | number <;> rfl

theorem feeds_entry {α : Type} {default value result : α} {item : Bytes}
    {read : Nat → WireType → α → Bytes → FieldRead α} {isDefault : α → Bool} {key : String}
    (hlength : (writeEntry element Prod.snd (fun v => isDefault v.1) key (value, item)).length <
      lengthLimit)
    (hdefault : isDefault value = true → result = default)
    (hread : isDefault value = false → item.length < lengthLimit →
      ∀ more, read depth element.wireType default (item ++ more) = .ok (result, more)) :
    Feeds (mergeEntry depth read) (fun _ => True) ("", default)
      (writeEntry element Prod.snd (fun v => isDefault v.1) key (value, item)) (key, result) := by
  have hfits : FitsKey 1 ∧ FitsKey 2 := by simp [FitsKey]
  simp only [writeEntry, List.length_append] at hlength
  have hkeyLength : (writeScalarField 1 .string key).length < lengthLimit := by omega
  refine Feeds.append (b := (key, default)) ?_ ?_
  · by_cases hempty : key = ""
    · subst hempty
      exact .done _
    · have hset : Scalar.string.isDefault key = false := by simpa [Scalar.isDefault] using hempty
      simp only [writeScalarField, hset, Bool.false_eq_true, if_false] at hkeyLength ⊢
      have hkey := Scalar.read_write .string (length_lt_of_field hkeyLength)
      refine .single hfits.1 trivial fun more => ?_
      simp only [mergeEntry, hkey, unplaced, Except.map]
  · cases hvalue : isDefault value with
    | true =>
        simp only [hvalue, if_true, hdefault]
        exact .done _
    | false =>
        simp only [hvalue, Bool.false_eq_true, if_false] at hlength ⊢
        have hfield : (writeField 2 element.wireType item).length < lengthLimit := by omega
        have hitem := length_lt_of_field hfield
        refine .single hfits.2 trivial fun more => ?_
        simp only [mergeEntry, hread hvalue hitem, Except.map]

theorem feeds_entries (hfits : FitsKey field.number) (hknown : allowed field.number)
    (first : KeyMap element.Carrier) (others : rest.Record) {value : KeyMap element.Carrier}
    {entries : List (String × element.Carrier × Bytes)}
    (hvalue : (entries.map fun entry => (entry.1, element.kept entry.2.1)).Perm value.entries)
    (hlength : (writeEntries field.number element Prod.snd (fun v => element.isDefault v.1)
      entries).length < lengthLimit)
    (hread : ∀ entry ∈ entries, element.isDefault entry.2.1 = false →
      entry.2.2.length < lengthLimit → ∀ more,
        element.merge depth element.wireType element.default (entry.2.2 ++ more) =
          .ok (element.kept entry.2.1, more)) :
    Feeds ((Fields.cons field .map element rest).merge owner (depth + 1)) allowed (first, others)
      (writeEntries field.number element Prod.snd (fun v => element.isDefault v.1) entries)
      (first.override value, others) := by
  rw [← KeyMap.foldl_insert_perm hvalue, List.foldl_map]
  refine Feeds.flatMap (fun before : List (String × element.Carrier × Bytes) =>
    (before.foldl (fun m entry => m.insert entry.1 (element.kept entry.2.1)) first, others)) _
    entries fun before entry after hsplit => ?_
  have hmem : entry ∈ entries := hsplit ▸ List.mem_append_right before List.mem_cons_self
  have hfield := length_lt_of_mem hmem hlength
  have hcontent := length_lt_of_delimited (length_lt_of_field hfield)
  have hfeeds := feeds_entry hcontent (element.kept_of_isDefault entry.2.1) (hread entry hmem)
  have hentry := hfeeds.consumes.readNested hcontent
  refine .single hfits hknown fun more => ?_
  simp only [Fields.merge, if_true, readEntry_eq, hentry, placed, Except.map, List.foldl_append,
    List.foldl_cons, List.foldl_nil]

end Fields

/-! ## Records -/

theorem Element.exists_depth {name : String} {fields : Fields} {depth : Nat}
    (h : (Element.message name fields).isReadable depth = true) : ∃ left, depth = left + 1 := by
  cases depth with
  | zero => simp [isReadable] at h
  | succ left => exact ⟨left, rfl⟩

mutual

theorem Element.merge_encodes : (e : Element) → {depth : Nat} → (v : e.Carrier) → {item : Bytes} →
    e.isReadable depth = true → e.Encodes v item → e.isDefault v = false →
    item.length < lengthLimit → ∀ more,
      e.merge depth e.wireType e.default (item ++ more) = .ok (e.kept v, more)
  | .scalar s, _, v, _, _, rfl, hset, hlength, more => by
      simp only [Element.merge, Element.wireType, Element.kept, s.read_write hlength, unplaced,
        Scalar.kept_of_not_isDefault hset]
  | .message name fields, 0, _, _, hreadable, _, _, _, _ => by
      simp only [Element.isReadable, Bool.false_eq_true] at hreadable
  | .message name fields, depth + 1, v, _, hreadable, ⟨content, hcontent, hitem⟩, _, hlength,
      more => by
      subst hitem
      have hshort := length_lt_of_delimited hlength
      have hfeeds := fields.feeds (MessageType.shortName name) fields.default v hreadable hcontent
        hshort
      rw [fields.combine_default_kept] at hfeeds
      exact hfeeds.readMessage hshort more

/-- Bytes of a message lead from any record to its combination with what comes back of it. -/
theorem Fields.feeds : (fields : Fields) → (owner : String) → {depth : Nat} →
    (a b : fields.Record) → {bytes : Bytes} → fields.isReadable depth = true →
    fields.Encodes b bytes → bytes.length < lengthLimit →
      Feeds (fields.merge owner depth) (· ∈ fields.numbers) a bytes
        (fields.combine a (fields.kept b))
  | .nil, _, _, _, _, _, _, rfl, _ => .done _
  | .cons field .one (.scalar s) rest, owner, _, (first, others), (value, more), _, hreadable,
      ⟨tail, htail, hbytes⟩, hlength => by
      obtain ⟨hfits, hfresh, hothers, -, -⟩ := Fields.heads hreadable
      simp only [hbytes, List.length_append] at hlength ⊢
      have hrest := rest.feeds owner others more hothers htail (by omega)
      exact feeds_cons hfresh
        (feeds_scalarField hfits List.mem_cons_self first value others (by omega)) hrest
  | .cons field .one (.message name fields) rest, owner, depth, (first, others), (value, more), _,
      hreadable, ⟨head, tail, htail, hbytes, hhead⟩, hlength => by
      obtain ⟨hfits, hfresh, hothers, hitem, -⟩ := Fields.heads hreadable
      simp only [hbytes, List.length_append] at hlength ⊢
      have hrest := rest.feeds owner others more hothers htail (by omega)
      refine feeds_cons hfresh ?_ hrest
      cases value with
      | none =>
          obtain rfl : head = [] := hhead
          cases first <;> exact .done _
      | some inner =>
          obtain ⟨content, hcontent, rfl⟩ := hhead
          obtain ⟨left, rfl⟩ := Element.exists_depth (hitem (by decide))
          have hfield : (writeField field.number .lengthDelimited
            (writeDelimited content)).length < lengthLimit := by omega
          have hshort := length_lt_of_delimited (length_lt_of_field hfield)
          have hinner := fields.feeds (MessageType.shortName name) (first.getD fields.default)
            inner (hitem (by decide)) hcontent hshort
          cases first with
          | none =>
              rw [Option.getD_none, fields.combine_default_kept] at hinner
              exact feeds_messageField hfits List.mem_cons_self hinner hshort
          | some before => exact feeds_messageField hfits List.mem_cons_self hinner hshort
  | .cons field .many (.scalar s) rest, owner, _, (first, others), (value, more), _, hreadable,
      ⟨items, tail, htail, hvalues, hitems, hbytes⟩, hlength => by
      obtain ⟨hfits, hfresh, hothers, -, -⟩ := Fields.heads hreadable
      obtain rfl : items.map Prod.fst = value := hvalues
      rw [writeRepeated_forms hitems] at hbytes
      simp only [hbytes, List.length_append] at hlength ⊢
      have hrest := rest.feeds owner others more hothers htail (by omega)
      exact feeds_cons hfresh
        (feeds_scalars hfits List.mem_cons_self first _ others (by omega)) hrest
  | .cons field .many (.message name fields) rest, owner, depth, (first, others), (value, more), _,
      hreadable, ⟨items, tail, htail, hvalues, hitems, hbytes⟩, hlength => by
      obtain ⟨hfits, hfresh, hothers, hitem, -⟩ := Fields.heads hreadable
      obtain ⟨left, rfl⟩ := Element.exists_depth (hitem (by decide))
      obtain rfl : items.map Prod.fst = value := hvalues
      simp only [hbytes, List.length_append] at hlength ⊢
      have hrest := rest.feeds owner others more hothers htail (by omega)
      have hhead : (items.flatMap fun item =>
          writeField field.number .lengthDelimited item.2).length < lengthLimit :=
        Nat.lt_of_le_of_lt (Nat.le_add_right _ _) hlength
      refine feeds_cons hfresh (feeds_messages (· ∈ fields.numbers) hfits List.mem_cons_self first
        others items fields.kept fun item hmem => ?_) hrest
      obtain ⟨content, hcontent, hform⟩ := hitems item hmem
      have hfield := length_lt_of_mem hmem hhead
      rw [hform] at hfield
      have hshort := length_lt_of_delimited (length_lt_of_field hfield)
      have hinner := fields.feeds (MessageType.shortName name) fields.default item.1
        (hitem (by decide)) hcontent hshort
      rw [fields.combine_default_kept] at hinner
      exact ⟨content, hshort, hform, hinner⟩
  | .cons field .map element rest, owner, depth, (first, others), (value, more), _, hreadable,
      ⟨entries, tail, htail, hvalues, hitems, hbytes⟩, hlength => by
      obtain ⟨hfits, hfresh, hothers, -, hvalue⟩ := Fields.heads hreadable
      obtain ⟨left, rfl, hleft⟩ := hvalue rfl
      simp only [hbytes, List.length_append] at hlength ⊢
      have hrest := rest.feeds owner others more hothers htail (by omega)
      have hkept : (entries.map fun entry => (entry.1, element.kept entry.2.1)).Perm
          (value.mapValues element.kept).entries := by
        simpa [KeyMap.mapValues, Function.comp_def] using
          hvalues.map fun entry => (entry.1, element.kept entry.2)
      refine feeds_cons hfresh (feeds_entries hfits List.mem_cons_self first others hkept
        (by omega) fun entry hmem hset hshort more => ?_) hrest
      exact element.merge_encodes entry.2.1 hleft (hitems entry hmem) hset hshort more

end

end Wire

end PluginKit
