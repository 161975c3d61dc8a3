import PluginKit.Proofs.Wire.Merging
import PluginKit.Wire.Contracts

/-!
# Contract messages come back

A message of the contracts that was written, with the entries of its maps in any order, is read as
the same message, up to the sign of zeros. One that is read into another message, or behind it,
gives the combination of the two.
-/

namespace PluginKit

namespace Wire

namespace MessageType

variable {t : MessageType} {bytes more : Bytes}

theorem encodes_encode (t : MessageType) (m : t.Value) : t.Encodes m (t.encode m) :=
  t.fields.encodes_write m

/-- A reader of messages goes on from where the first bytes have led it. -/
theorem merge_append {a b : t.Value}
    (h : Consumes (keyed (t.fields.merge (shortName t.name) depthLimit)) a bytes b)
    {c : t.Value}
    (hmore : Consumes (keyed (t.fields.merge (shortName t.name) depthLimit)) b more c) :
    t.merge a (bytes ++ more) = .ok c := by
  have hall := (h.append hmore).readWhile []
  rw [List.append_nil, List.length_nil] at hall
  change (readWhile 0 (keyed (t.fields.merge (shortName t.name) depthLimit)) a
    (bytes ++ more)).map Prod.fst = .ok c
  rw [hall]
  rfl

/-- The bytes of a message lead to its combination with what was there. -/
theorem Encodes.consumes {m : t.Value} (h : t.Encodes m bytes)
    (hreadable : t.fields.isReadable depthLimit = true) (hlength : bytes.length < lengthLimit)
    (a : t.Value) :
    Consumes (keyed (t.fields.merge (shortName t.name) depthLimit)) a bytes
      (t.fields.combine a (t.fields.kept m)) :=
  (t.fields.feeds _ a m hreadable h hlength).consumes

theorem Encodes.merge {m : t.Value} (h : t.Encodes m bytes)
    (hreadable : t.fields.isReadable depthLimit = true) (hlength : bytes.length < lengthLimit)
    (a : t.Value) : t.merge a bytes = .ok (t.fields.combine a (t.fields.kept m)) := by
  have hmerge := merge_append (h.consumes hreadable hlength a) (.done _)
  rwa [List.append_nil] at hmerge

theorem Encodes.decode {m : t.Value} (h : t.Encodes m bytes)
    (hreadable : t.fields.isReadable depthLimit = true) (hlength : bytes.length < lengthLimit) :
    t.decode bytes = .ok (t.fields.kept m) := by
  rw [MessageType.decode, h.merge hreadable hlength, MessageType.default,
    t.fields.combine_default_kept]

end MessageType

/-! ## The contracts -/

namespace Contracts

/-- No contract nests as deep as a reader goes. -/
theorem readable_of_mem {t : MessageType} (h : t ∈ all) :
    t.fields.isReadable MessageType.depthLimit = true := by
  have hall : ∀ t ∈ all, t.fields.isReadable MessageType.depthLimit = true := by decide
  exact hall t h

/-- What was written of a message is read as this message. A negative zero can come back as a
positive one; a message without negative zeros comes back as it is. -/
theorem decode_of_encodes {t : MessageType} (h : t ∈ all) (m : t.Value) :
    t.Encodes m (t.encode m) ∧
      ∀ bytes, t.Encodes m bytes → bytes.length < lengthLimit →
        t.decode bytes = .ok (t.fields.kept m) ∧
          (t.fields.Plain m → t.decode bytes = .ok m) := by
  refine ⟨t.encodes_encode m, fun bytes hbytes hlength => ?_⟩
  have hread := hbytes.decode (readable_of_mem h) hlength
  refine ⟨hread, fun hplain => ?_⟩
  rw [hread, t.fields.kept_of_plain m hplain]

/-- A threshold of negative zero, numbers that no enumeration declares, and a condition whose
second value is empty. -/
def thresholdMet : Eviction.thresholdMetResponse.Value :=
  (0x8000000000000000, 0x3ff8000000000000, 7, -1, "", 30,
    (KeyMap.empty.insert "a" "1").insert "b" "", ())

/-- The threshold with the later entry of its condition written first. -/
def thresholdMetBytes : Bytes :=
  [17, 0, 0, 0, 0, 0, 0, 248, 63, 24, 7, 32, 255, 255, 255, 255, 255, 255, 255, 255, 255, 1,
    48, 30, 58, 3, 10, 1, 98, 58, 6, 10, 1, 97, 18, 1, 49]

theorem encodes_thresholdMet :
    Eviction.thresholdMetResponse.Encodes thresholdMet thresholdMetBytes := by
  have hbackwards : [("b", ""), ("a", "1")].Perm
      ((KeyMap.empty.insert "a" "1").insert "b" "").entries := .swap _ _ []
  have hcondition : (Fields.ofList [table 7 "condition" .string]).Encodes
      ((KeyMap.empty.insert "a" "1").insert "b" "", ()) _ :=
    Fields.encodes_map (Element.scalar .string).encodes_write hbackwards rfl
  exact ⟨_, ⟨_, ⟨_, ⟨_, ⟨_, ⟨_, hcondition, rfl⟩, rfl⟩, rfl⟩, rfl⟩, rfl⟩, by decide +kernel⟩

def allocations : Resource.getResourcesAllocationResponse.Value :=
  (KeyMap.empty.insert "uid"
    (KeyMap.empty.insert "main"
      (KeyMap.empty.insert "cpu"
        ("CpusetCpus", true, false, 0x4000000000000000, "0-1", KeyMap.empty.insert "A" "",
          KeyMap.empty, ()), ()), ()), ())

theorem plain_allocations : Resource.getResourcesAllocationResponse.fields.Plain allocations := by
  simp [allocations, Fields.Plain, Element.Plain, Scalar.Plain, KeyMap.insert, KeyMap.empty,
    KeyMap.insertEntry]
  rintro _ _ quantity _ _ _ - - rfl - - -
  decide

/-- The threshold comes back as zero, whatever the order of the conditions; the allocations come
back as they are. -/
theorem decode_of_encodes_backwards :
    Eviction.thresholdMetResponse ∈ all ∧
      Eviction.thresholdMetResponse.Encodes thresholdMet thresholdMetBytes ∧
      thresholdMetBytes.length < lengthLimit ∧
      Eviction.thresholdMetResponse.decode thresholdMetBytes =
        .ok (0, 0x3ff8000000000000, 7, -1, "", 30,
          (KeyMap.empty.insert "a" "1").insert "b" "", ()) ∧
      Resource.getResourcesAllocationResponse ∈ all ∧
      Resource.getResourcesAllocationResponse.fields.Plain allocations ∧
      (Resource.getResourcesAllocationResponse.encode allocations).length < lengthLimit ∧
      Resource.getResourcesAllocationResponse.decode
        (Resource.getResourcesAllocationResponse.encode allocations) = .ok allocations := by
  have hthreshold : Eviction.thresholdMetResponse ∈ all := by simp [all]
  have hallocations : Resource.getResourcesAllocationResponse ∈ all := by simp [all]
  have hshort : thresholdMetBytes.length < lengthLimit := by decide
  have hlength : (Resource.getResourcesAllocationResponse.encode allocations).length <
      lengthLimit := by decide +kernel
  obtain ⟨-, hmet⟩ := decode_of_encodes hthreshold thresholdMet
  obtain ⟨hforms, hallocated⟩ := decode_of_encodes hallocations allocations
  exact ⟨hthreshold, encodes_thresholdMet, hshort, (hmet _ encodes_thresholdMet hshort).1,
    hallocations, plain_allocations, hlength, (hallocated _ hforms hlength).2 plain_allocations⟩

/-- What was written of a message combines with another one that it is read into, or behind. -/
theorem merge_of_encode {t : MessageType} (h : t ∈ all) {a b : t.Value}
    (ha : t.fields.Plain a) (hb : t.fields.Plain b) :
    t.Encodes a (t.encode a) ∧ t.Encodes b (t.encode b) ∧
      ∀ bytes, t.Encodes b bytes → bytes.length < lengthLimit →
        t.merge a bytes = .ok (t.fields.combine a b) ∧
          ∀ before, t.Encodes a before → before.length < lengthLimit →
            t.decode (before ++ bytes) = .ok (t.fields.combine a b) := by
  have hreadable := readable_of_mem h
  refine ⟨t.encodes_encode a, t.encodes_encode b, fun bytes hbytes hlength => ⟨?_, ?_⟩⟩
  · rw [hbytes.merge hreadable hlength a, t.fields.kept_of_plain b hb]
  · intro before hbefore hlength'
    have hfirst := hbefore.consumes hreadable hlength' t.default
    have hsecond := hbytes.consumes hreadable hlength a
    rw [MessageType.default, t.fields.combine_default_kept, t.fields.kept_of_plain a ha] at hfirst
    rw [t.fields.kept_of_plain b hb] at hsecond
    exact MessageType.merge_append hfirst hsecond

def firstRequest : Resource.resourceRequest.Value :=
  ("uid", "", "pod", "", "", KeyMap.empty.insert "cpu" 0x4000000000000000,
    some ([0], true, ()), KeyMap.empty.insert "a" "1", KeyMap.empty, ())

def secondRequest : Resource.resourceRequest.Value :=
  ("", "", "other", "", "cpu", KeyMap.empty, some ([1, 300], false, ()),
    (KeyMap.empty.insert "a" "2").insert "b" "", KeyMap.empty, ())

/-- The second request with the later label written first. -/
def secondRequestBytes : Bytes :=
  [26, 5, 111, 116, 104, 101, 114, 42, 3, 99, 112, 117, 58, 5, 10, 3, 1, 172, 2,
    66, 3, 10, 1, 98, 66, 6, 10, 1, 97, 18, 1, 50]

theorem encodes_secondRequest :
    Resource.resourceRequest.Encodes secondRequest secondRequestBytes := by
  have hbackwards : [("b", ""), ("a", "2")].Perm
      ((KeyMap.empty.insert "a" "2").insert "b" "").entries := .swap _ _ []
  have hlabels : (Fields.ofList [table 8 "labels" .string, table 9 "annotations" .string]).Encodes
      ((KeyMap.empty.insert "a" "2").insert "b" "", KeyMap.empty, ()) _ :=
    Fields.encodes_map (Element.scalar .string).encodes_write hbackwards (Fields.encodes_write _ _)
  have hhint := Resource.topologyHint.fields.encodes_write ([1, 300], false, ())
  exact ⟨_, ⟨_, ⟨_, ⟨_, ⟨_, Fields.encodes_map (Element.scalar .double).encodes_write (.refl _)
    ⟨_, _, hlabels, rfl, _, hhint, rfl⟩, rfl⟩, rfl⟩, rfl⟩, rfl⟩, by decide +kernel⟩

theorem plain_requests :
    Resource.resourceRequest.fields.Plain firstRequest ∧
      Resource.resourceRequest.fields.Plain secondRequest := by
  simp [firstRequest, secondRequest, Fields.Plain, Element.Plain, Scalar.Plain, KeyMap.insert,
    KeyMap.empty, KeyMap.insertEntry]

/-- The nodes of both hints are kept in order, and of the labels the later ones. -/
theorem merge_of_encode_requests :
    Resource.resourceRequest ∈ all ∧
      Resource.resourceRequest.fields.Plain firstRequest ∧
      Resource.resourceRequest.fields.Plain secondRequest ∧
      Resource.resourceRequest.Encodes secondRequest secondRequestBytes ∧
      secondRequestBytes.length < lengthLimit ∧
      Resource.resourceRequest.merge firstRequest secondRequestBytes =
        .ok ("uid", "", "other", "", "cpu", KeyMap.empty.insert "cpu" 0x4000000000000000,
          some ([0, 1, 300], true, ()), (KeyMap.empty.insert "a" "2").insert "b" "",
          KeyMap.empty, ()) ∧
      (Resource.resourceRequest.encode firstRequest).length < lengthLimit ∧
      Resource.resourceRequest.decode
          (Resource.resourceRequest.encode firstRequest ++ secondRequestBytes) =
        Resource.resourceRequest.merge firstRequest secondRequestBytes := by
  have hmem : Resource.resourceRequest ∈ all := by simp [all]
  have hfirst : (Resource.resourceRequest.encode firstRequest).length < lengthLimit := by
    decide +kernel
  have hsecond : secondRequestBytes.length < lengthLimit := by decide
  obtain ⟨hplain, hplain'⟩ := plain_requests
  obtain ⟨hforms, -, hread⟩ := merge_of_encode hmem hplain hplain'
  obtain ⟨hmerge, hbehind⟩ := hread _ encodes_secondRequest hsecond
  exact ⟨hmem, hplain, hplain', encodes_secondRequest, hsecond, hmerge, hfirst,
    (hbehind _ hforms hfirst).trans hmerge.symm⟩

end Contracts

end Wire

end PluginKit
