import PluginKit.Proofs.Wire.Padding

/-!
# Peers that know more

The bytes of a contract message are fields one after the other, down to the messages in it, so
whatever is put between them pads the message. A padded message is decoded as the plain one.
-/

namespace PluginKit

namespace Wire

/-! ## What is written is made of fields -/

theorem digits_writeVarint (n : Nat) : Digits n (writeVarint n) := by
  induction n using Nat.strongRecOn with
  | ind n ih =>
      rw [writeVarint]
      by_cases hlast : n < 128
      · have hbyte := toNat_ofNat_of_lt (show n < 256 by omega)
        have hdigit : Digits (UInt8.ofNat n).toNat [UInt8.ofNat n] :=
          .last (by rw [hbyte]; exact hlast)
        rw [hbyte] at hdigit
        rw [if_pos hlast]
        exact hdigit
      · have hbyte := toNat_ofNat_of_lt (show n % 128 + 128 < 256 by omega)
        have hdigits : Digits ((UInt8.ofNat (n % 128 + 128)).toNat - 128 + 128 * (n / 128))
            (UInt8.ofNat (n % 128 + 128) :: writeVarint (n / 128)) :=
          .more (by rw [hbyte]; omega) (ih (n / 128) (by omega))
        have hsum : n % 128 + 128 - 128 + 128 * (n / 128) = n := by omega
        rw [hbyte, hsum] at hdigits
        rw [if_neg hlast]
        exact hdigits

theorem length_writeVarint_le {n digits : Nat} (h : n < Nat.pow 128 (digits + 1)) :
    (writeVarint n).length ≤ digits + 1 := by
  induction digits generalizing n with
  | zero =>
      have hlast : n < 128 := h
      rw [writeVarint, if_pos hlast]
      exact Nat.le_refl 1
  | succ digits ih =>
      rw [writeVarint]
      by_cases hlast : n < 128
      · rw [if_pos hlast]
        exact Nat.le_add_left 1 (digits + 1)
      · have hhigh : n / 128 < Nat.pow 128 (digits + 1) := by
          rw [Nat.div_lt_iff_lt_mul (by omega)]
          exact h
        rw [if_neg hlast, List.length_cons]
        exact Nat.succ_le_succ (ih hhigh)

theorem spells_writeVarint {n : Nat} (h : n < lengthLimit) : Spells n (writeVarint n) where
  digits := digits_writeVarint n
  short := length_writeVarint_le (Nat.lt_of_lt_of_le h (by decide))
  fits := h

theorem isKey_writeKey {number : Nat} (fits : FitsKey number) (type : WireType) :
    IsKey number type (writeKey number type) := by
  refine ⟨fits, spells_writeVarint ?_⟩
  have hcode := code_lt type
  have hlimit := fits.2
  simp only [lengthLimit]
  omega

theorem holds_writeDelimited {content : Bytes} (h : content.length < lengthLimit) :
    Holds .lengthDelimited (writeDelimited content) :=
  .lengthDelimited (spells_writeVarint h)

theorem Scalar.holds_write (s : Scalar) {value : s.Carrier}
    (h : (s.write value).length < lengthLimit) : Holds s.wireType (s.write value) := by
  cases s with
  | string => exact holds_writeDelimited (length_lt_of_delimited h)
  | bytes => exact holds_writeDelimited (length_lt_of_delimited h)
  | double => exact .sixtyFourBit (by simp [write, writeFixed64])
  | bool => exact .varint (spells_writeVarint (by cases value <;> decide))
  | int64 => exact .varint (spells_writeVarint value.toUInt64.toNat_lt)
  | uint64 => exact .varint (spells_writeVarint value.toNat_lt)
  | enum => exact .varint (spells_writeVarint value.toInt64.toUInt64.toNat_lt)

section Writing

variable {α : Type} {all inner : Fields} {number : Nat} {type : WireType} {content : Bytes}

theorem Fields.Pads.append {plain padded plain' padded' : Bytes} (h : all.Pads plain padded)
    (h' : all.Pads plain' padded') : all.Pads (plain ++ plain') (padded ++ padded') := by
  induction h with
  | done => exact h'
  | unknown undeclared isField _ ih =>
      rw [List.append_assoc]
      exact .unknown undeclared isField (ih h')
  | same flat isField _ ih =>
      rw [List.append_assoc, List.append_assoc]
      exact .same flat isField (ih h')
  | nested holds isKey spelled spelled' pads _ _ ih =>
      rw [List.append_assoc _ _ plain', List.append_assoc _ _ padded']
      exact .nested holds isKey spelled spelled' pads (ih h')

theorem pads_writeField (fits : FitsKey number) (flat : all.inner? number = none)
    (holds : Holds type content) :
    all.Pads (writeField number type content) (writeField number type content) := by
  have h := Fields.Pads.same flat (.mk (isKey_writeKey fits type) holds) (.done all)
  rwa [List.append_nil] at h

theorem pads_unknownField {plain padded : Bytes} (fits : FitsKey number)
    (undeclared : number ∉ all.numbers) (holds : Holds type content)
    (others : all.Pads plain padded) : all.Pads plain (writeField number type content ++ padded) :=
  .unknown undeclared (.mk (isKey_writeKey fits type) holds) others

theorem pads_writeNested {content' : Bytes} (fits : FitsKey number)
    (hinner : all.inner? number = some inner) (hlength : content.length < lengthLimit)
    (hlength' : content'.length < lengthLimit) (pads : inner.Pads content content') :
    all.Pads (writeField number .lengthDelimited (writeDelimited content))
      (writeField number .lengthDelimited (writeDelimited content')) := by
  have h := Fields.Pads.nested hinner (isKey_writeKey fits .lengthDelimited)
    (spells_writeVarint hlength) (spells_writeVarint hlength') pads (.done all)
  rwa [List.append_nil, List.append_nil] at h

theorem pads_flatMap {write : α → Bytes} {items : List α}
    (h : ∀ item ∈ items, all.Pads (write item) (write item)) :
    all.Pads (items.flatMap write) (items.flatMap write) := by
  induction items with
  | nil => exact .done all
  | cons item items ih =>
      rw [List.flatMap_cons]
      exact (h item List.mem_cons_self).append
        (ih fun other hmem => h other (List.mem_cons_of_mem item hmem))

theorem pads_writeScalarField {s : Scalar} {value : s.Carrier} (fits : FitsKey number)
    (flat : all.inner? number = none)
    (hlength : (writeScalarField number s value).length < lengthLimit) :
    all.Pads (writeScalarField number s value) (writeScalarField number s value) := by
  unfold writeScalarField at hlength ⊢
  by_cases hdefault : s.isDefault value = true
  · rw [if_pos hdefault]
    exact .done all
  · rw [if_neg hdefault] at hlength ⊢
    exact pads_writeField fits flat (s.holds_write (length_lt_of_field hlength))

/-- As a field of an element, an item pads itself, whichever message the field is in. -/
def Element.WritesField (e : Element) (item : Bytes) : Prop :=
  ∀ (all : Fields) (number : Nat), FitsKey number →
    all.inner? number = Occurrence.one.inner? e → item.length < lengthLimit →
      all.Pads (writeField number e.wireType item) (writeField number e.wireType item)

theorem pads_writeRepeated {element : Element} {write : α → Bytes} {values : List α}
    (h : ∀ value ∈ values, element.WritesField (write value)) (fits : FitsKey number)
    (hinner : all.inner? number = Occurrence.many.inner? element)
    (hlength : (writeRepeated number element write values).length < lengthLimit) :
    all.Pads (writeRepeated number element write values)
      (writeRepeated number element write values) := by
  have happart : (values.flatMap fun value =>
      writeField number element.wireType (write value)).length < lengthLimit →
      all.Pads (values.flatMap fun value => writeField number element.wireType (write value))
        (values.flatMap fun value => writeField number element.wireType (write value)) := by
    intro hshort
    refine pads_flatMap fun value hmem => ?_
    have hfield := @length_lt_of_mem _ values
      (fun value => writeField number element.wireType (write value)) value hmem hshort
    refine h value hmem all number fits ?_ (length_lt_of_field hfield)
    cases element <;> exact hinner
  cases element with
  | message name fields => exact happart hlength
  | scalar s =>
      unfold writeRepeated at hlength ⊢
      by_cases hpacked : s.isPacked = true
      · simp only [if_pos hpacked] at hlength ⊢
        by_cases hempty : values.isEmpty = true
        · rw [if_pos hempty]
          exact .done all
        · rw [if_neg hempty] at hlength ⊢
          exact pads_writeField fits hinner
            (holds_writeDelimited (length_lt_of_delimited (length_lt_of_field hlength)))
      · simp only [if_neg hpacked] at hlength ⊢
        exact happart hlength

theorem pads_writeEntries {element : Element} {write : α → Bytes} {isDefault : α → Bool}
    {entries : List (String × α)} (h : ∀ entry ∈ entries, element.WritesField (write entry.2))
    (fits : FitsKey number) (hinner : all.inner? number = Occurrence.map.inner? element)
    (hlength : (writeEntries number element write isDefault entries).length < lengthLimit) :
    all.Pads (writeEntries number element write isDefault entries)
      (writeEntries number element write isDefault entries) := by
  refine pads_flatMap fun entry hmem => ?_
  have hfield := length_lt_of_mem hmem hlength
  have hshort := length_lt_of_delimited (length_lt_of_field hfield)
  refine pads_writeNested fits hinner hshort hshort ?_
  have hfits : FitsKey 1 ∧ FitsKey 2 := by simp [FitsKey]
  simp only [writeEntry, List.length_append] at hshort ⊢
  refine (pads_writeScalarField hfits.1 rfl (by omega)).append ?_
  by_cases hdefault : isDefault entry.2 = true
  · rw [if_pos hdefault]
    exact .done _
  · rw [if_neg hdefault] at hshort ⊢
    have hvalue : (writeField 2 element.wireType (write entry.2)).length < lengthLimit := by
      omega
    exact h entry hmem _ 2 hfits.2 rfl (length_lt_of_field hvalue)

end Writing

mutual

theorem Element.writesField : (e : Element) → {depth : Nat} → e.isReadable depth = true →
    {value : e.Carrier} → {item : Bytes} → e.Encodes value item → e.WritesField item
  | .scalar s, _, _, _, _, rfl => fun _ _ fits flat hlength =>
      pads_writeField fits flat (s.holds_write hlength)
  | .message _ fields, depth, readable, value, _, ⟨content, hcontent, hitem⟩ =>
      fun all number fits hinner hlength => by
        subst hitem
        obtain ⟨left, rfl⟩ := Element.exists_depth readable
        have hshort := length_lt_of_delimited hlength
        exact pads_writeNested fits hinner hshort hshort
          (fields.pads_encodes value readable fields (fun _ _ => rfl) hcontent hshort)

/-- What is written of a record is made of fields, also as a part of more fields. -/
theorem Fields.pads_encodes : (fields : Fields) → (value : fields.Record) → {depth : Nat} →
    fields.isReadable depth = true → (all : Fields) →
    (∀ number ∈ fields.numbers, all.inner? number = fields.inner? number) → {bytes : Bytes} →
    fields.Encodes value bytes → bytes.length < lengthLimit → all.Pads bytes bytes
  | .nil, _, _, _, all, _, _, rfl, _ => .done all
  | .cons field occurrence element rest, (first, others), depth, readable, all, same, bytes,
      hencodes, hlength => by
      obtain ⟨fits, fresh, hothers, item, value⟩ := Fields.heads readable
      have hinner : all.inner? field.number = occurrence.inner? element := by
        rw [same field.number List.mem_cons_self, Fields.inner?, if_pos rfl]
      have hrest : ∀ number ∈ rest.numbers, all.inner? number = rest.inner? number := by
        intro number hnumber
        have hne : number ≠ field.number := fun heq => fresh (heq ▸ hnumber)
        rw [same number (List.mem_cons_of_mem _ hnumber), Fields.inner?, if_neg hne]
      -- every occurrence writes a head of its own in front of the other fields
      have happend : ∀ {head tail : Bytes}, rest.Encodes others tail → bytes = head ++ tail →
          (head.length < lengthLimit → all.Pads head head) → all.Pads bytes bytes := by
        rintro head tail htail rfl hhead
        rw [List.length_append] at hlength
        exact (hhead (by omega)).append
          (rest.pads_encodes others hothers all hrest htail (by omega))
      cases occurrence with
      | one =>
          cases element with
          | scalar s =>
              obtain ⟨tail, htail, hbytes⟩ := hencodes
              exact happend htail hbytes (pads_writeScalarField fits hinner)
          | message name fields =>
              obtain ⟨head, tail, htail, hbytes, hhead⟩ := hencodes
              refine happend htail hbytes fun hshort => ?_
              cases first with
              | none =>
                  obtain rfl : head = [] := hhead
                  exact .done all
              | some inner =>
                  obtain ⟨content, hcontent, rfl⟩ := hhead
                  exact (Element.message name fields).writesField (item (by decide))
                    ⟨content, hcontent, rfl⟩ all field.number fits hinner
                    (length_lt_of_field hshort)
      | many =>
          obtain ⟨items, tail, htail, -, hitems, hbytes⟩ := hencodes
          exact happend htail hbytes (pads_writeRepeated (fun entry hmem =>
            element.writesField (item (by decide)) (hitems entry hmem)) fits hinner)
      | map =>
          obtain ⟨entries, tail, htail, -, hitems, hbytes⟩ := hencodes
          obtain ⟨left, -, hleft⟩ := value rfl
          exact happend htail hbytes (pads_writeEntries (fun entry hmem =>
            element.writesField hleft (hitems entry hmem)) fits hinner)

end

/-! ## The contracts -/

namespace Contracts

/-- No contract nests so deep that a reader could not skip a field at the bottom. -/
theorem spare_of_mem {t : MessageType} (h : t ∈ all) :
    t.fields.isReadable (MessageType.depthLimit - 1) = true := by
  have hall : ∀ t ∈ all, t.fields.isReadable (MessageType.depthLimit - 1) = true := by decide
  exact hall t h

/-- The bytes of a message, with the entries of its maps in any order, can be padded wherever a
field begins or ends, and however they are padded with fields that are not declared, they are
decoded as before. -/
theorem decode_of_padded {t : MessageType} (h : t ∈ all) (m : t.Value) :
    t.Encodes m (t.encode m) ∧
      ∀ plain, t.Encodes m plain → plain.length < lengthLimit →
        t.fields.Pads plain plain ∧
          ∀ padded, t.fields.Pads plain padded →
            t.decode padded = t.decode plain ∧ t.decode padded = .ok (t.fields.kept m) := by
  have readable := spare_of_mem h
  refine ⟨t.encodes_encode m, fun plain hencodes hlength => ⟨?_, fun padded hpads => ?_⟩⟩
  · exact t.fields.pads_encodes m readable t.fields (fun _ _ => rfl) hencodes hlength
  · have hplain := hencodes.decode (readable_of_mem h) hlength
    rw [hplain, MessageType.decode_of_pads readable hpads hplain]
    exact ⟨rfl, rfl⟩

def hintedRequest : Resource.resourceRequest.Value :=
  ("u", "", "", "", "", KeyMap.empty, some ([], true, ()),
    (KeyMap.empty.insert "a" "1").insert "b" "", KeyMap.empty, ())

/-- The request with the later label written first. -/
def hintedRequestBytes : Bytes :=
  writeField 1 .lengthDelimited (writeDelimited [117]) ++
    (writeField 7 .lengthDelimited (writeDelimited (writeField 2 .varint [1])) ++
      (writeField 8 .lengthDelimited (writeDelimited
          (writeField 1 .lengthDelimited (writeDelimited [98]))) ++
        writeField 8 .lengthDelimited (writeDelimited
          (writeField 1 .lengthDelimited (writeDelimited [97]) ++
            writeField 2 .lengthDelimited (writeDelimited [49])))))

theorem encodes_hintedRequest :
    Resource.resourceRequest.Encodes hintedRequest hintedRequestBytes := by
  have hbackwards : [("b", ""), ("a", "1")].Perm
      ((KeyMap.empty.insert "a" "1").insert "b" "").entries := .swap _ _ []
  have hlabels : (Fields.ofList [table 8 "labels" .string, table 9 "annotations" .string]).Encodes
      ((KeyMap.empty.insert "a" "1").insert "b" "", KeyMap.empty, ()) _ :=
    Fields.encodes_map (Element.scalar .string).encodes_write hbackwards (Fields.encodes_write _ _)
  have hhint := Resource.topologyHint.fields.encodes_write ([], true, ())
  exact ⟨_, ⟨_, ⟨_, ⟨_, ⟨_, Fields.encodes_map (Element.scalar .double).encodes_write (.refl _)
    ⟨_, _, hlabels, rfl, _, hhint, rfl⟩, rfl⟩, rfl⟩, rfl⟩, rfl⟩, by decide +kernel⟩

/-- The request from a peer that knows more fields: of the request itself, of the hint and of the
entries of a map. The zero in front is written with a digit too many. -/
def extendedRequest : Bytes :=
  writeField 100 .varint [128, 0] ++ (writeField 1 .lengthDelimited (writeDelimited [117]) ++
    (writeField 10 .sixtyFourBit [1, 2, 3, 4, 5, 6, 7, 8] ++
      (writeField 7 .lengthDelimited (writeDelimited
          (writeField 3 .thirtyTwoBit [9, 9, 9, 9] ++ writeField 2 .varint [1])) ++
        (writeField 8 .lengthDelimited (writeDelimited
            (writeField 1 .lengthDelimited (writeDelimited [98]))) ++
          writeField 8 .lengthDelimited (writeDelimited
            (writeField 1 .lengthDelimited (writeDelimited [97]) ++
              (writeField 5 .lengthDelimited (writeDelimited [255, 255]) ++
                writeField 2 .lengthDelimited (writeDelimited [49]))))))))

theorem pads_extendedRequest :
    Resource.resourceRequest.fields.Pads hintedRequestBytes extendedRequest := by
  have hfits : ∀ number, 0 < number → number < 536870912 → FitsKey number := fun _ => And.intro
  have htext : ∀ byte : UInt8, Holds .lengthDelimited (writeDelimited [byte]) := fun _ =>
    holds_writeDelimited (show 1 < lengthLimit by decide)
  have hzero : Holds .varint [128, 0] :=
    .varint ⟨.more (by decide) (.last (by decide)), by decide, by decide⟩
  have hone : Holds .varint [1] := .varint ⟨.last (by decide), by decide, by decide⟩
  have hhint : Resource.topologyHint.fields.Pads (writeField 2 .varint [1])
      (writeField 3 .thirtyTwoBit [9, 9, 9, 9] ++ writeField 2 .varint [1]) :=
    pads_unknownField (hfits 3 (by decide) (by decide)) (by decide) (.thirtyTwoBit rfl)
      (pads_writeField (hfits 2 (by decide) (by decide)) rfl hone)
  have hkey : ∀ byte : UInt8, (entryFields (.scalar .string)).Pads
      (writeField 1 .lengthDelimited (writeDelimited [byte]))
      (writeField 1 .lengthDelimited (writeDelimited [byte])) := fun byte =>
    pads_writeField (hfits 1 (by decide) (by decide)) rfl (htext byte)
  have hentry : (entryFields (.scalar .string)).Pads
      (writeField 1 .lengthDelimited (writeDelimited [97]) ++
        writeField 2 .lengthDelimited (writeDelimited [49]))
      (writeField 1 .lengthDelimited (writeDelimited [97]) ++
        (writeField 5 .lengthDelimited (writeDelimited [255, 255]) ++
          writeField 2 .lengthDelimited (writeDelimited [49]))) :=
    (hkey 97).append
      (pads_unknownField (hfits 5 (by decide) (by decide)) (by decide)
        (holds_writeDelimited (by decide))
        (pads_writeField (hfits 2 (by decide) (by decide)) rfl (htext 49)))
  rw [hintedRequestBytes, extendedRequest]
  refine pads_unknownField (hfits 100 (by decide) (by decide)) (by decide) hzero ?_
  refine (pads_writeField (hfits 1 (by decide) (by decide)) rfl (htext 117)).append ?_
  refine pads_unknownField (hfits 10 (by decide) (by decide)) (by decide) (.sixtyFourBit rfl) ?_
  refine (pads_writeNested (hfits 7 (by decide) (by decide)) rfl (by decide +kernel)
    (by decide +kernel) hhint).append ?_
  exact (pads_writeNested (hfits 8 (by decide) (by decide)) rfl (by decide +kernel)
    (by decide +kernel) (hkey 98)).append
      (pads_writeNested (hfits 8 (by decide) (by decide)) rfl (by decide +kernel)
        (by decide +kernel) hentry)

/-- The request is read as if the peer had known no more. -/
theorem decode_of_padded_request :
    Resource.resourceRequest ∈ all ∧
      Resource.resourceRequest.Encodes hintedRequest hintedRequestBytes ∧
      hintedRequestBytes.length < lengthLimit ∧
      Resource.resourceRequest.fields.Pads hintedRequestBytes extendedRequest ∧
      Resource.resourceRequest.decode extendedRequest = .ok hintedRequest := by
  have hmem : Resource.resourceRequest ∈ all := by simp [all]
  have hlength : hintedRequestBytes.length < lengthLimit := by decide +kernel
  have hplain : Resource.resourceRequest.fields.Plain hintedRequest := by
    simp [hintedRequest, Fields.Plain, Element.Plain, Scalar.Plain, KeyMap.insert, KeyMap.empty,
      KeyMap.insertEntry]
  obtain ⟨-, hforms⟩ := decode_of_padded hmem hintedRequest
  obtain ⟨-, hpadded⟩ := hforms _ encodes_hintedRequest hlength
  obtain ⟨-, hread⟩ := hpadded _ pads_extendedRequest
  rw [Resource.resourceRequest.fields.kept_of_plain _ hplain] at hread
  exact ⟨hmem, encodes_hintedRequest, hlength, pads_extendedRequest, hread⟩

end Contracts

end Wire

end PluginKit
