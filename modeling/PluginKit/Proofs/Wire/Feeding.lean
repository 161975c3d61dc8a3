import PluginKit.Proofs.Wire.Framing

/-!
# Readers in a loop

A reader of fields is a step that is repeated until a length is used up. Bytes that are made of
pieces, each of which one step takes, are taken piece by piece, whatever follows them; and so are
fields by their numbers, of which only the merge of their contents has to be known.
-/

namespace PluginKit

namespace Wire

/-! ## Steps -/

section Steps

variable {α ε : Type} {step : α → Bytes → Except ε (α × Bytes)} {a b c : α} {bytes more : Bytes}

/-- Bytes that lead from one value to another, a piece at a time. -/
inductive Consumes (step : α → Bytes → Except ε (α × Bytes)) : α → Bytes → α → Prop
  | done (a : α) : Consumes step a [] a
  | more {a b c : α} {piece bytes : Bytes} (some : piece ≠ [])
      (takes : ∀ rest, step a (piece ++ rest) = .ok (b, rest))
      (others : Consumes step b bytes c) : Consumes step a (piece ++ bytes) c

theorem Consumes.append (h : Consumes step a bytes b) (hmore : Consumes step b more c) :
    Consumes step a (bytes ++ more) c := by
  induction h with
  | done a => exact hmore
  | more hsome htakes _ ih =>
      rw [List.append_assoc]
      exact .more hsome htakes (ih hmore)

theorem Consumes.readWhile (h : Consumes step a bytes b) (rest : Bytes) :
    readWhile rest.length step a (bytes ++ rest) = .ok (b, rest) := by
  induction h with
  | done a =>
      have hend : ¬ rest.length < (([] : Bytes) ++ rest).length := Nat.lt_irrefl _
      rw [Wire.readWhile, if_neg hend]
      rfl
  | @more a b c piece bytes hsome htakes _ ih =>
      have hpiece := List.length_pos_iff.mpr hsome
      have hleft : rest.length < (piece ++ (bytes ++ rest)).length := by
        simp only [List.length_append]
        omega
      have hshorter : (bytes ++ rest).length < (piece ++ (bytes ++ rest)).length := by
        simp only [List.length_append]
        omega
      rw [Wire.readWhile, List.append_assoc, if_pos hleft, htakes]
      simp only [hshorter, dif_pos]
      exact ih

end Steps

section Nested

variable {α : Type} {step : α → Bytes → FieldRead α} {a b : α} {content : Bytes}

theorem Consumes.readNested (h : Consumes step a content b)
    (hlength : content.length < lengthLimit) (rest : Bytes) :
    readNested step a (writeDelimited content ++ rest) = .ok (b, rest) := by
  have hleft : (content ++ rest).length - content.length = rest.length := by
    rw [List.length_append]
    omega
  rw [Wire.readNested, writeDelimited, List.append_assoc, readNumber_writeVarint hlength]
  simp only [unplaced, hleft, h.readWhile rest]
  rw [if_neg (by rw [List.length_append]; omega)]
  simp

end Nested

/-! ## Fields -/

section Fields

variable {α β : Type} {merge : Nat → WireType → α → Bytes → FieldRead α}
  {allowed : Nat → Prop} {a b c : α} {bytes more : Bytes} {number : Nat} {type : WireType}
  {content : Bytes}

/-- The step of a reader that takes one field with its key. -/
def keyed (merge : Nat → WireType → α → Bytes → FieldRead α) (value : α) (buf : Bytes) :
    FieldRead α :=
  match unplaced (readKey buf) with
  | .error e => .error e
  | .ok ((number, type), rest) => merge number type value rest

/-- Fields with allowed numbers that lead from one value to another when they are merged. -/
inductive Feeds (merge : Nat → WireType → α → Bytes → FieldRead α) (allowed : Nat → Prop) :
    α → Bytes → α → Prop
  | done (a : α) : Feeds merge allowed a [] a
  | field {a b c : α} {number : Nat} {type : WireType} {content bytes : Bytes}
      (fits : FitsKey number) (known : allowed number)
      (merges : ∀ rest, merge number type a (content ++ rest) = .ok (b, rest))
      (others : Feeds merge allowed b bytes c) :
      Feeds merge allowed a (writeField number type content ++ bytes) c

theorem Feeds.single (fits : FitsKey number) (known : allowed number)
    (merges : ∀ rest, merge number type a (content ++ rest) = .ok (b, rest)) :
    Feeds merge allowed a (writeField number type content) b := by
  have h : Feeds merge allowed a (writeField number type content ++ []) b :=
    .field fits known merges (.done b)
  rwa [List.append_nil] at h

theorem Feeds.append (h : Feeds merge allowed a bytes b) (hmore : Feeds merge allowed b more c) :
    Feeds merge allowed a (bytes ++ more) c := by
  induction h with
  | done a => exact hmore
  | field hfits hknown hmerges _ ih =>
      rw [List.append_assoc]
      exact .field hfits hknown hmerges (ih hmore)

/-- What feeds one merge feeds another that does the same to a part of its value. -/
theorem Feeds.lift {mergeAll : Nat → WireType → β → Bytes → FieldRead β}
    {allowedAll : Nat → Prop} (place : α → β) (h : Feeds merge allowed a bytes b)
    (hallowed : ∀ number, allowed number → allowedAll number)
    (hmerge : ∀ {number type value buf value' rest}, allowed number →
      merge number type value buf = .ok (value', rest) →
        mergeAll number type (place value) buf = .ok (place value', rest)) :
    Feeds mergeAll allowedAll (place a) bytes (place b) := by
  induction h with
  | done a => exact .done _
  | field hfits hknown hmerges _ ih =>
      exact .field hfits (hallowed _ hknown) (fun rest => hmerge hknown (hmerges rest)) ih

theorem Feeds.consumes (h : Feeds merge allowed a bytes b) : Consumes (keyed merge) a bytes b := by
  induction h with
  | done a => exact .done a
  | @field a b c number type content bytes hfits _ hmerges _ ih =>
      refine .more ?_ (fun rest => ?_) ih
      · simp [writeField, writeKey_ne_nil]
      · rw [keyed, writeField, List.append_assoc, readKey_writeKey hfits]
        exact hmerges rest

theorem Feeds.flatMap {γ : Type} (place : List γ → α) (write : γ → Bytes) (items : List γ)
    (hitem : ∀ before item after, before ++ item :: after = items →
      Feeds merge allowed (place before) (write item) (place (before ++ [item]))) :
    Feeds merge allowed (place []) (items.flatMap write) (place items) := by
  suffices h : ∀ before after, before ++ after = items →
      Feeds merge allowed (place before) (after.flatMap write) (place items) from h [] items rfl
  intro before after
  induction after generalizing before with
  | nil =>
      intro hitems
      rw [← hitems, List.append_nil]
      exact .done _
  | cons item after ih =>
      intro hitems
      rw [List.flatMap_cons]
      exact (hitem before item after hitems).append (ih (before ++ [item]) (by simpa using hitems))

end Fields

end Wire

end PluginKit
