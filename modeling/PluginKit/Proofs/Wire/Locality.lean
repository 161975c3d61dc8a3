import PluginKit.Proofs.Wire.Merging

/-!
# Readers look at what they take

Every reader of the wire is local: where it succeeds it has taken a piece of the bytes from the
front, and it takes the same piece with the same answer whatever follows. So a run of steps that
succeeded can be cut into its pieces again.
-/

namespace PluginKit

namespace Wire

section Local

variable {α β ε : Type}

theorem bind_eq_ok {result : Except ε α} {next : α → Except ε β} {value : β}
    (h : result.bind next = .ok value) : ∃ first, result = .ok first ∧ next first = .ok value := by
  cases result with
  | error e => cases h
  | ok first => exact ⟨first, rfl, h⟩

theorem map_eq_ok {result : Except ε α} {f : α → β} {value : β} (h : result.map f = .ok value) :
    ∃ first, result = .ok first ∧ f first = value := by
  cases result with
  | error e => cases h
  | ok first => exact ⟨first, rfl, Except.ok.inj h⟩

/-! ## Local readers -/

/-- A reader takes a piece for a value, whatever follows. -/
def Takes (read : Bytes → Except ε (α × Bytes)) (piece : Bytes) (value : α) : Prop :=
  ∀ more, read (piece ++ more) = .ok (value, more)

/-- A reader that answers by what it takes alone. -/
def Local (read : Bytes → Except ε (α × Bytes)) : Prop :=
  ∀ buf value rest, read buf = .ok (value, rest) →
    ∃ piece, buf = piece ++ rest ∧ Takes read piece value

def LocalSkip (skip : Bytes → Except ε Bytes) : Prop :=
  ∀ buf rest, skip buf = .ok rest →
    ∃ piece, buf = piece ++ rest ∧ ∀ more, skip (piece ++ more) = .ok more

variable {read : Bytes → Except ε (α × Bytes)} {next : α → Bytes → Except ε (β × Bytes)}
  {skip : Bytes → Except ε Bytes}

theorem local_error (e : ε) : Local (fun _ => (.error e : Except ε (α × Bytes))) := by
  intro buf value rest h
  cases h

theorem local_pure (value : α) : Local (fun buf => (.ok (value, buf) : Except ε (α × Bytes))) := by
  intro buf value' rest h
  cases h
  exact ⟨[], rfl, fun more => rfl⟩

/-- One reader after the other takes the piece of the one and then the piece of the other. -/
theorem Local.bind (h : Local read) (hnext : ∀ value, Local (next value)) :
    Local fun buf => (read buf).bind fun found => next found.1 found.2 := by
  intro buf value rest hread
  obtain ⟨⟨first, middle⟩, hfirst, hsecond⟩ := bind_eq_ok hread
  obtain ⟨piece, rfl, takes⟩ := h _ _ _ hfirst
  obtain ⟨piece', rfl, takes'⟩ := hnext first _ _ _ hsecond
  refine ⟨piece ++ piece', (List.append_assoc piece piece' rest).symm, ?_⟩
  intro more
  change (read _).bind _ = _
  rw [List.append_assoc, takes]
  exact takes' more

theorem Local.check (h : Local read) (f : α → Except ε β) :
    Local fun buf => (read buf).bind fun found => (f found.1).map fun value => (value, found.2) := by
  have hnext : ∀ value, Local fun rest => (f value).map fun checked => (checked, rest) := by
    intro value
    cases f value with
    | error e => exact local_error e
    | ok checked => exact local_pure checked
  exact h.bind hnext

theorem Local.map (h : Local read) (f : α → β) :
    Local fun buf => (read buf).map fun found => (f found.1, found.2) := by
  intro buf value rest hread
  obtain ⟨⟨first, middle⟩, hfirst, hvalue⟩ := map_eq_ok hread
  obtain ⟨piece, rfl, takes⟩ := h _ _ _ hfirst
  cases hvalue
  refine ⟨piece, rfl, ?_⟩
  intro more
  change (read _).map _ = _
  rw [takes]
  rfl

/-- What does not change an answer does not change that it is local. -/
theorem Local.recast {ε' : Type} {read' : Bytes → Except ε' (α × Bytes)} (h : Local read)
    (same : ∀ buf value rest, read' buf = .ok (value, rest) ↔ read buf = .ok (value, rest)) :
    Local read' := by
  intro buf value rest hread
  obtain ⟨piece, hbuf, takes⟩ := h _ _ _ ((same buf value rest).mp hread)
  exact ⟨piece, hbuf, fun more => (same _ _ _).mpr (takes more)⟩

theorem LocalSkip.keep (h : LocalSkip skip) (value : α) :
    Local fun buf => (skip buf).map fun rest => (value, rest) := by
  intro buf value' rest hskip
  obtain ⟨left, hleft, hvalue⟩ := map_eq_ok hskip
  obtain ⟨piece, hbuf, skips⟩ := h _ _ hleft
  cases hvalue
  refine ⟨piece, hbuf, ?_⟩
  intro more
  change (skip _).map _ = _
  rw [skips]
  rfl

end Local

section Placing

variable {α : Type}

theorem unplaced_ok_iff {result : Except DecodeCause α} {value : α} :
    unplaced result = .ok value ↔ result = .ok value := by
  cases result <;> simp [unplaced]

theorem placed_ok_iff {owner : String} {field : FieldName} {result : Except DecodeError α}
    {value : α} : placed owner field result = .ok value ↔ result = .ok value := by
  cases result <;> simp [placed]

theorem Local.unplaced {read : Bytes → Read α} (h : Local read) :
    Local fun buf => Wire.unplaced (read buf) :=
  h.recast fun _ _ _ => unplaced_ok_iff

theorem Local.placed {read : Bytes → FieldRead α} (h : Local read) (owner : String)
    (field : FieldName) : Local fun buf => Wire.placed owner field (read buf) :=
  h.recast fun _ _ _ => placed_ok_iff

end Placing

/-! ## Runs of steps -/

section Steps

variable {α ε : Type} {step : α → Bytes → Except ε (α × Bytes)} {a b : α} {limit : Nat}
  {buf rest : Bytes}

/-- A step that is local and takes something can be repeated. -/
structure Repeatable (step : α → Bytes → Except ε (α × Bytes)) : Prop where
  isLocal : ∀ a, Local (step a)
  hungry : ∀ a, ∃ e, step a [] = .error e

theorem Repeatable.ne_nil (h : Repeatable step) {piece : Bytes} (takes : Takes (step a) piece b) :
    piece ≠ [] := by
  rintro rfl
  obtain ⟨e, hungry⟩ := h.hungry a
  have := takes []
  rw [List.append_nil, hungry] at this
  cases this

/-- Steps that were repeated with success have consumed what is gone, piece by piece. -/
theorem Repeatable.consumes (h : Repeatable step)
    (hread : readWhile limit step a buf = .ok (b, rest)) :
    rest.length ≤ limit ∧ ∃ content, buf = content ++ rest ∧ Consumes step a content b := by
  induction hlength : buf.length using Nat.strongRecOn generalizing a buf with
  | ind n ih =>
      rw [readWhile] at hread
      by_cases hmore : limit < buf.length
      · rw [if_pos hmore] at hread
        cases hstep : step a buf with
        | error e =>
            rw [hstep] at hread
            cases hread
        | ok found =>
            obtain ⟨middle, left⟩ := found
            obtain ⟨piece, rfl, takes⟩ := h.isLocal a _ _ _ hstep
            have hpiece := h.ne_nil takes
            have hshorter : left.length < (piece ++ left).length := by
              have := List.length_pos_iff.mpr hpiece
              rw [List.length_append]
              omega
            rw [hstep] at hread
            simp only [hshorter, dif_pos] at hread
            obtain ⟨hend, content, rfl, hcontent⟩ := ih _ (hlength ▸ hshorter) hread rfl
            exact ⟨hend, piece ++ content, (List.append_assoc ..).symm,
              .more hpiece takes hcontent⟩
      · rw [if_neg hmore] at hread
        cases hread
        exact ⟨Nat.le_of_not_lt hmore, [], rfl, .done _⟩

theorem Consumes.uncons {bytes : Bytes} (h : Consumes step a bytes b) :
    bytes = [] ∧ a = b ∨ ∃ piece others middle, bytes = piece ++ others ∧
      Takes (step a) piece middle ∧ Consumes step middle others b := by
  cases h with
  | done => exact .inl ⟨rfl, rfl⟩
  | more _ takes others => exact .inr ⟨_, _, _, rfl, takes, others⟩

end Steps

/-! ## The readers of the wire -/

theorem readDigits_local {left n : Nat} {buf rest : Bytes}
    (h : readDigits left buf = some (n, rest)) :
    ∃ piece, buf = piece ++ rest ∧ ∀ more, readDigits left (piece ++ more) = some (n, more) := by
  induction left generalizing buf n with
  | zero => cases h
  | succ left ih =>
      cases buf with
      | nil => cases h
      | cons byte tail =>
          rw [readDigits] at h
          by_cases hlast : byte.toNat < 128
          · rw [if_pos hlast] at h
            by_cases htenth : left = 0 ∧ 2 ≤ byte.toNat
            · rw [if_pos htenth] at h
              cases h
            · rw [if_neg htenth] at h
              cases h
              refine ⟨[byte], rfl, ?_⟩
              intro more
              rw [List.singleton_append, readDigits, if_pos hlast, if_neg htenth]
          · rw [if_neg hlast] at h
            cases hhigh : readDigits left tail with
            | none =>
                rw [hhigh] at h
                cases h
            | some found =>
                obtain ⟨high, left'⟩ := found
                rw [hhigh] at h
                cases h
                obtain ⟨piece, rfl, takes⟩ := ih hhigh
                refine ⟨byte :: piece, rfl, ?_⟩
                intro more
                rw [List.cons_append, readDigits, if_neg hlast, takes]

theorem readNumber_local : Local readNumber := by
  intro buf n rest h
  rw [readNumber] at h
  cases hvarint : readVarint buf with
  | none =>
      rw [hvarint] at h
      cases h
  | some found =>
      rw [hvarint] at h
      cases h
      obtain ⟨piece, hbuf, takes⟩ := readDigits_local hvarint
      refine ⟨piece, hbuf, ?_⟩
      intro more
      rw [readNumber, readVarint, takes]

def splitKey (key : Nat) : Except DecodeCause (Nat × WireType) :=
  if keyLimit ≤ key then .error (.keyTooLarge key)
  else
    match WireType.ofCode? (key % 8) with
    | none => .error (.unknownWireType (key % 8))
    | some type => if key / 8 = 0 then .error .fieldNumberZero else .ok (key / 8, type)

theorem readKey_eq (buf : Bytes) :
    readKey buf = (readNumber buf).bind fun found =>
      (splitKey found.1).map fun key => (key, found.2) := by
  rw [readKey]
  cases readNumber buf with
  | error e => rfl
  | ok found =>
      obtain ⟨key, rest⟩ := found
      simp only [Except.bind, splitKey]
      by_cases hlimit : keyLimit ≤ key
      · simp only [if_pos hlimit, Except.map]
      · simp only [if_neg hlimit]
        cases WireType.ofCode? (key % 8) with
        | none => rfl
        | some type => by_cases hzero : key / 8 = 0 <;> simp only [hzero, if_true, if_false, Except.map]

theorem readKey_local : Local readKey :=
  (readNumber_local.check splitKey).recast fun buf _ _ => by rw [readKey_eq]

theorem dropBytes_local (n : Nat) : LocalSkip (dropBytes n) := by
  intro buf rest h
  rw [dropBytes] at h
  by_cases hshort : buf.length < n
  · rw [if_pos hshort] at h
    cases h
  · rw [if_neg hshort] at h
    cases h
    refine ⟨buf.take n, (List.take_append_drop n buf).symm, ?_⟩
    intro more
    have hlength : (buf.take n).length = n := by
      rw [List.length_take]
      omega
    rw [dropBytes, if_neg (by rw [List.length_append]; omega), List.drop_left' hlength]

theorem readKey_nil : readKey [] = .error .malformedVarint := rfl

theorem length_lt_of_readKey {buf rest : Bytes} {key : Nat × WireType}
    (h : readKey buf = .ok (key, rest)) : rest.length < buf.length := by
  obtain ⟨piece, rfl, takes⟩ := readKey_local _ _ _ h
  have hpiece : piece ≠ [] := by
    rintro rfl
    have := takes []
    rw [List.append_nil, readKey_nil] at this
    cases this
  have := List.length_pos_iff.mpr hpiece
  rw [List.length_append]
  omega

/-- Within a group, a key that does not end it is that of a field to be skipped. -/
theorem skipGroup_of_ne {skip : Nat → WireType → Bytes → Except DecodeCause Bytes}
    {number inner : Nat} {type : WireType} {buf left : Bytes} (h : type ≠ .endGroup)
    (hkey : readKey buf = .ok ((inner, type), left)) :
    skipGroup skip number buf = (skip inner type left).bind fun left' =>
      if left'.length < buf.length then skipGroup skip number left' else .ok left' := by
  rw [skipGroup, hkey]
  cases type with
  | endGroup => exact absurd rfl h
  | _ =>
      simp only []
      cases skip inner _ left <;> simp [Except.bind]

theorem skipGroup_local {skip : Nat → WireType → Bytes → Except DecodeCause Bytes}
    (hskip : ∀ number type, LocalSkip (skip number type)) (number : Nat) :
    LocalSkip (skipGroup skip number) := by
  intro buf rest h
  induction hlength : buf.length using Nat.strongRecOn generalizing buf with
  | ind n ih =>
      cases hkey : readKey buf with
      | error e =>
          rw [skipGroup, hkey] at h
          cases h
      | ok found =>
          obtain ⟨⟨inner, type⟩, left⟩ := found
          have hshort := length_lt_of_readKey hkey
          obtain ⟨key, rfl, takes⟩ := readKey_local _ _ _ hkey
          by_cases hend : type = .endGroup
          · subst hend
            rw [skipGroup, hkey] at h
            by_cases hinner : inner = number
            · simp only [hinner, if_true] at h
              cases h
              refine ⟨key, rfl, ?_⟩
              intro more
              rw [skipGroup, takes]
              simp only [hinner, if_true]
            · simp only [if_neg hinner] at h
              cases h
          · rw [skipGroup_of_ne hend hkey] at h
            obtain ⟨left', hfield, hothers⟩ := bind_eq_ok h
            obtain ⟨field, rfl, skips⟩ := hskip inner type _ _ hfield
            have hless : left'.length < (key ++ (field ++ left')).length := by
              rw [List.length_append] at hshort
              omega
            rw [if_pos hless] at hothers
            obtain ⟨others, rfl, skips'⟩ := ih _ (hlength ▸ hless) left' hothers rfl
            refine ⟨key ++ field ++ others, by simp only [List.append_assoc], ?_⟩
            intro more
            have hmore : (others ++ more).length < (key ++ (field ++ (others ++ more))).length := by
              simp only [List.length_append] at hless ⊢
              omega
            rw [List.append_assoc, List.append_assoc, skipGroup_of_ne hend (takes _), skips]
            simp only [Except.bind, if_pos hmore]
            exact skips' more

theorem skipDelimited_local : LocalSkip fun buf =>
    (readNumber buf).bind fun found => dropBytes found.1 found.2 := by
  intro buf rest h
  obtain ⟨⟨n, left⟩, hnumber, hdrop⟩ := bind_eq_ok h
  obtain ⟨length, rfl, takes⟩ := readNumber_local _ _ _ hnumber
  obtain ⟨content, rfl, drops⟩ := dropBytes_local n _ _ hdrop
  refine ⟨length ++ content, (List.append_assoc ..).symm, ?_⟩
  intro more
  change (readNumber _).bind _ = _
  rw [List.append_assoc, takes]
  exact drops more

theorem skipField_lengthDelimited (depth number : Nat) (buf : Bytes) :
    skipField (depth + 1) number .lengthDelimited buf =
      (readNumber buf).bind fun found => dropBytes found.1 found.2 := by
  rw [skipField]
  cases readNumber buf <;> rfl

theorem skipField_local (depth number : Nat) (type : WireType) :
    LocalSkip (skipField depth number type) := by
  induction depth generalizing number type with
  | zero =>
      intro buf rest h
      cases h
  | succ depth ih =>
      intro buf rest h
      cases type with
      | varint =>
          obtain ⟨⟨n, left⟩, hnumber, hrest⟩ := map_eq_ok h
          obtain ⟨piece, rfl, takes⟩ := readNumber_local _ _ _ hnumber
          cases hrest
          refine ⟨piece, rfl, ?_⟩
          intro more
          rw [skipField, takes]
          rfl
      | thirtyTwoBit => exact dropBytes_local 4 _ _ h
      | sixtyFourBit => exact dropBytes_local 8 _ _ h
      | lengthDelimited =>
          rw [skipField_lengthDelimited] at h
          obtain ⟨piece, hbuf, skips⟩ := skipDelimited_local _ _ h
          refine ⟨piece, hbuf, ?_⟩
          intro more
          rw [skipField_lengthDelimited]
          exact skips more
      | startGroup => exact skipGroup_local ih number _ _ h
      | endGroup => cases h

theorem readDelimited_local : Local readDelimited := by
  intro buf content rest h
  rw [readDelimited] at h
  cases hnumber : readNumber buf with
  | error e =>
      rw [hnumber] at h
      cases h
  | ok found =>
      obtain ⟨n, left⟩ := found
      obtain ⟨length, rfl, takes⟩ := readNumber_local _ _ _ hnumber
      rw [hnumber] at h
      by_cases hshort : left.length < n
      · simp only [if_pos hshort] at h
        cases h
      · simp only [if_neg hshort] at h
        cases h
        refine ⟨length ++ left.take n, by simp only [List.append_assoc, List.take_append_drop], ?_⟩
        intro more
        have hlength : (left.take n).length = n := by
          rw [List.length_take]
          omega
        rw [readDelimited, List.append_assoc, takes]
        simp only [List.length_append, List.take_left' hlength, List.drop_left' hlength]
        rw [if_neg (by omega)]

theorem readFixed64_local : Local readFixed64 := by
  intro buf value rest h
  rw [readFixed64] at h
  by_cases hshort : buf.length < 8
  · rw [if_pos hshort] at h
    cases h
  · rw [if_neg hshort] at h
    cases h
    refine ⟨buf.take 8, (List.take_append_drop 8 buf).symm, ?_⟩
    intro more
    have hlength : (buf.take 8).length = 8 := by
      rw [List.length_take]
      omega
    rw [readFixed64, if_neg (by rw [List.length_append]; omega), List.take_left' hlength,
      List.drop_left' hlength]

def textOf (content : Bytes) : Except DecodeCause String :=
  match String.fromUTF8? ⟨content.toArray⟩ with
  | none => .error .notUtf8
  | some text => .ok text

theorem Scalar.read_local (s : Scalar) (type : WireType) : Local (s.read type) := by
  by_cases htype : type = s.wireType
  · cases s with
    | string =>
        refine (readDelimited_local.check textOf).recast fun buf value rest => ?_
        simp only [read, expectWireType, if_pos htype]
        cases readDelimited buf with
        | error e => rfl
        | ok found =>
            simp only [Except.bind, textOf]
            cases String.fromUTF8? ⟨found.1.toArray⟩ <;> rfl
    | bytes =>
        exact readDelimited_local.recast fun _ _ _ => by
          simp only [read, expectWireType, if_pos htype]
    | double =>
        exact readFixed64_local.recast fun _ _ _ => by
          simp only [read, expectWireType, if_pos htype]
    | bool =>
        exact (readNumber_local.map fun n => n != 0).recast fun _ _ _ => by
          simp only [read, expectWireType, if_pos htype]
    | int64 =>
        exact (readNumber_local.map fun n => (UInt64.ofNat n).toInt64).recast fun _ _ _ => by
          simp only [read, expectWireType, if_pos htype]
    | uint64 =>
        exact (readNumber_local.map UInt64.ofNat).recast fun _ _ _ => by
          simp only [read, expectWireType, if_pos htype]
    | enum =>
        exact (readNumber_local.map fun n => (UInt64.ofNat n).toUInt32.toInt32).recast
          fun _ _ _ => by simp only [read, expectWireType, if_pos htype]
  · intro buf value rest h
    simp only [read, expectWireType, if_neg htype] at h
    cases h

/-! ## Nested readers -/

section Nested

variable {α : Type} {step : α → Bytes → FieldRead α} {a b : α} {buf rest : Bytes}

/-- Reading nested content is taking a length and consuming as many bytes. -/
theorem Repeatable.readNested_iff (h : Repeatable step) :
    readNested step a buf = .ok (b, rest) ↔ ∃ content,
      readNumber buf = .ok (content.length, content ++ rest) ∧ Consumes step a content b := by
  rw [readNested]
  constructor
  · intro hread
    cases hnumber : readNumber buf with
    | error e =>
        rw [hnumber] at hread
        cases hread
    | ok found =>
        obtain ⟨n, left⟩ := found
        simp only [hnumber, unplaced] at hread
        by_cases hshort : left.length < n
        · rw [if_pos hshort] at hread
          cases hread
        · rw [if_neg hshort] at hread
          cases hsteps : readWhile (left.length - n) step a left with
          | error e =>
              rw [hsteps] at hread
              cases hread
          | ok found' =>
              obtain ⟨b', rest'⟩ := found'
              simp only [hsteps] at hread
              obtain ⟨-, content, rfl, hcontent⟩ := h.consumes hsteps
              by_cases hend : rest'.length = (content ++ rest').length - n
              · rw [if_pos hend] at hread
                cases hread
                have hlength : content.length = n := by
                  rw [List.length_append] at hend hshort
                  omega
                exact ⟨content, by rw [hlength], hcontent⟩
              · rw [if_neg hend] at hread
                cases hread
  · rintro ⟨content, hnumber, hcontent⟩
    have hleft : (content ++ rest).length - content.length = rest.length := by
      rw [List.length_append]
      omega
    have henough : ¬(content ++ rest).length < content.length := by
      rw [List.length_append]
      omega
    rw [hnumber]
    simp only [unplaced, if_neg henough, hleft, hcontent.readWhile rest, if_true]

theorem Repeatable.readNested_local (h : Repeatable step) (a : α) : Local (readNested step a) := by
  intro buf b rest hread
  obtain ⟨content, hnumber, hcontent⟩ := h.readNested_iff.mp hread
  obtain ⟨length, rfl, takes⟩ := readNumber_local _ _ _ hnumber
  refine ⟨length ++ content, (List.append_assoc ..).symm, ?_⟩
  intro more
  rw [List.append_assoc]
  exact h.readNested_iff.mpr ⟨content, takes _, hcontent⟩

theorem keyed_repeatable {merge : Nat → WireType → α → Bytes → FieldRead α}
    (h : ∀ number type a, Local (merge number type a)) : Repeatable (keyed merge) where
  isLocal a := by
    have hkey : Local fun buf => unplaced (readKey buf) := readKey_local.unplaced
    refine (hkey.bind fun key => h key.1 key.2 a).recast fun buf value rest => ?_
    rw [keyed]
    cases unplaced (readKey buf) <;> rfl
  hungry a := ⟨_, rfl⟩

end Nested

theorem Scalar.read_nil_of_packed {s : Scalar} (h : s.isPacked = true) :
    ∃ e, s.read s.wireType [] = .error e := by
  cases s with
  | string => cases h
  | bytes => cases h
  | _ => exact ⟨_, rfl⟩

theorem appendScalar_local (s : Scalar) (type : WireType) (values : List s.Carrier) :
    Local fun buf => (unplaced (s.read type buf)).map fun found => (values ++ [found.1], found.2) :=
  (s.read_local type).unplaced.map fun value => values ++ [value]

theorem Scalar.packed_repeatable {s : Scalar} (h : s.isPacked = true) :
    Repeatable fun (values : List s.Carrier) buf =>
      (unplaced (s.read s.wireType buf)).map fun found => (values ++ [found.1], found.2) where
  isLocal := appendScalar_local s s.wireType
  hungry values := by
    obtain ⟨e, he⟩ := s.read_nil_of_packed h
    exact ⟨⟨e, []⟩, by rw [he]; rfl⟩

theorem readRepeatedScalar_local (s : Scalar) (type : WireType) (values : List s.Carrier) :
    Local (readRepeatedScalar s type values) := by
  by_cases hrun : s.isPacked ∧ type = .lengthDelimited
  · exact ((Scalar.packed_repeatable hrun.1).readNested_local values).recast fun _ _ _ => by
      simp only [readRepeatedScalar, if_pos hrun]
  · exact (appendScalar_local s type values).recast fun _ _ _ => by
      simp only [readRepeatedScalar, if_neg hrun]

theorem mergeEntry_local {α : Type} {depth : Nat}
    {read : Nat → WireType → α → Bytes → FieldRead α}
    (h : ∀ type value, Local (read depth type value)) (number : Nat) (type : WireType)
    (entry : String × α) : Local (mergeEntry depth read number type entry) := by
  have hskip : ∀ number, Local fun buf =>
      (unplaced (skipField depth number type buf)).map fun rest => (entry, rest) := by
    intro number
    refine ((skipField_local depth number type).keep entry).recast fun buf value rest => ?_
    cases skipField depth number type buf <;> simp [unplaced, Except.map]
  rcases number with _ | _ | _ | number
  · exact hskip 0
  · exact (Scalar.string.read_local type).unplaced.map fun key => (key, entry.2)
  · exact (h type entry.2).map fun value => (entry.1, value)
  · exact hskip (number + 3)

theorem readEntry_local {α : Type} (default : α) (depth : Nat)
    {read : Nat → WireType → α → Bytes → FieldRead α}
    (h : ∀ depth type value, Local (read depth type value)) :
    Local (readEntry default depth read) := by
  cases depth with
  | zero => exact local_error _
  | succ depth =>
      exact ((keyed_repeatable (mergeEntry_local (h depth))).readNested_local _).recast
        fun _ _ _ => by rw [readEntry_eq]

theorem readMessage_local {α : Type} (depth : Nat)
    {merge : Nat → Nat → WireType → α → Bytes → FieldRead α}
    (h : ∀ depth number type value, Local (merge depth number type value)) (type : WireType)
    (value : α) : Local (readMessage depth merge type value) := by
  by_cases htype : type = .lengthDelimited
  · subst htype
    cases depth with
    | zero => exact local_error _
    | succ depth => exact (keyed_repeatable (h depth)).readNested_local value
  · intro buf value' rest hread
    simp only [readMessage, expectWireType, if_neg htype, unplaced] at hread
    cases hread

/-! ## Messages -/

/-- Merges one occurrence of a field, whose key has been read, into what the field holds. -/
def mergeHead : (occurrence : Occurrence) → (element : Element) → (depth : Nat) → WireType →
    occurrence.Carrier element element.Carrier → Bytes →
      FieldRead (occurrence.Carrier element element.Carrier)
  | .one, .scalar s, _, type, _, buf => unplaced (s.read type buf)
  | .one, .message name fields, depth, type, first, buf =>
      ((Element.message name fields).merge depth type (first.getD fields.default) buf).map
        fun found => (some found.1, found.2)
  | .many, .scalar s, _, type, first, buf => readRepeatedScalar s type first buf
  | .many, .message name fields, depth, type, first, buf =>
      ((Element.message name fields).merge depth type fields.default buf).map
        fun found => (first ++ [found.1], found.2)
  | .map, element, depth, _, first, buf =>
      (readEntry element.default depth element.merge buf).map
        fun found => (first.insert found.1.1 found.1.2, found.2)

section Fields

variable {field : FieldName} {occurrence : Occurrence} {element : Element} {rest : Fields}

theorem Fields.merge_head (owner : String) (depth : Nat) (type : WireType)
    (value : (Fields.cons field occurrence element rest).Record) (buf : Bytes) :
    (Fields.cons field occurrence element rest).merge owner depth field.number type value buf =
      (placed owner field (mergeHead occurrence element depth type value.1 buf)).map
        fun found => ((found.1, value.2), found.2) := by
  have hplaced : ∀ {α β : Type} (result : FieldRead α) (f : α × Bytes → β × Bytes),
      (placed owner field (result.map f)) = (placed owner field result).map f := by
    intro α β result f
    cases result <;> rfl
  have hmap : ∀ {α β γ : Type} (result : FieldRead α) (f : α × Bytes → β × Bytes)
      (g : β × Bytes → γ × Bytes), (result.map f).map g = result.map (g ∘ f) := by
    intro α β γ result f g
    cases result <;> rfl
  cases occurrence <;> cases element <;>
    simp only [Fields.merge, if_true, mergeHead, hplaced, hmap, Element.merge] <;> rfl

theorem mergeHead_local (h : ∀ depth type value, Local (element.merge depth type value))
    (depth : Nat) (type : WireType) (first : occurrence.Carrier element element.Carrier) :
    Local (mergeHead occurrence element depth type first) := by
  cases occurrence with
  | one =>
      cases element with
      | scalar s => exact (s.read_local type).unplaced
      | message name fields => exact (h depth type (first.getD fields.default)).map some
  | many =>
      cases element with
      | scalar s => exact readRepeatedScalar_local s type first
      | message name fields =>
          exact (h depth type fields.default).map fun found => first ++ [found]
  | map =>
      exact (readEntry_local element.default depth h).map
        fun entry => first.insert entry.1 entry.2

end Fields

mutual

theorem Element.merge_local : (e : Element) → (depth : Nat) → (type : WireType) →
    (value : e.Carrier) → Local (e.merge depth type value)
  | .scalar s, _, type, _ => (s.read_local type).unplaced
  | .message name fields, depth, type, value =>
      readMessage_local depth (fun depth number type value =>
        fields.merge_local (MessageType.shortName name) depth number type value) type value

/-- A reader of fields is local, whatever the fields. -/
theorem Fields.merge_local : (fields : Fields) → (owner : String) → (depth number : Nat) →
    (type : WireType) → (value : fields.Record) → Local (fields.merge owner depth number type value)
  | .nil, _, depth, number, type, value => by
      refine ((skipField_local depth number type).keep value).recast fun buf _ rest => ?_
      rw [Fields.merge]
      cases skipField depth number type buf <;> simp [unplaced, Except.map]
  | .cons field occurrence element rest, owner, depth, number, type, value => by
      by_cases hnumber : number = field.number
      · subst hnumber
        have hhead : Local (mergeHead occurrence element depth type value.1) :=
          mergeHead_local element.merge_local depth type value.1
        exact ((hhead.placed owner field).map fun first => (first, value.2)).recast
          fun _ _ _ => by rw [Fields.merge_head]
      · exact ((rest.merge_local owner depth number type value.2).map
          fun others => (value.1, others)).recast
          fun _ _ _ => by rw [Fields.merge_of_ne hnumber]

end

end Wire

end PluginKit
