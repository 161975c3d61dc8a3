import PluginKit.Wire.Key
import PluginKit.Wire.Schema
import PluginKit.Wire.Write

/-!
# Reading messages

A reader takes the fields of a message in whatever order they come and merges each into the
record it has so far: a later scalar wins, repeated fields are appended, map entries replace
entries with their key, and a message that is already there is merged field by field. Fields
the schema does not know are skipped.

The length of a nested message is a limit on where its fields may start, not on where the last
of them ends: a field that runs past the limit is reported only after it has been read.
-/

namespace PluginKit

namespace Wire

abbrev FieldRead (α : Type) := Except DecodeError (α × Bytes)

/-- An answer whose error is not yet placed in a field. -/
def unplaced {α : Type} : Except DecodeCause α → Except DecodeError α
  | .error cause => .error ⟨cause, []⟩
  | .ok value => .ok value

def expectWireType (actual expected : WireType) : Except DecodeCause Unit :=
  if actual = expected then .ok () else .error (.unexpectedWireType actual expected)

def readDelimited (buf : Bytes) : Read Bytes :=
  match readNumber buf with
  | .error e => .error e
  | .ok (n, rest) =>
      if rest.length < n then .error .bufferUnderflow else .ok (rest.take n, rest.drop n)

def readFixed64 (buf : Bytes) : Read UInt64 :=
  if buf.length < 8 then .error .bufferUnderflow
  else
    .ok (UInt64.ofNat ((buf.take 8).foldr (fun b n => b.toNat + 256 * n) 0), buf.drop 8)

/-- Reads a length and then `step` after `step` until that many bytes are gone. -/
def readNested {α : Type} (step : α → Bytes → FieldRead α) (value : α) (buf : Bytes) :
    FieldRead α :=
  match unplaced (readNumber buf) with
  | .error e => .error e
  | .ok (n, rest) =>
      if rest.length < n then .error ⟨.bufferUnderflow, []⟩
      else
        match readWhile (rest.length - n) step value rest with
        | .error e => .error e
        | .ok (value', rest') =>
            if rest'.length = rest.length - n then .ok (value', rest')
            else .error ⟨.lengthExceeded, []⟩

namespace Scalar

def read (s : Scalar) (type : WireType) (buf : Bytes) : Read s.Carrier :=
  match expectWireType type s.wireType with
  | .error e => .error e
  | .ok () =>
      match s with
      | string =>
          match readDelimited buf with
          | .error e => .error e
          | .ok (content, rest) =>
              match String.fromUTF8? ⟨content.toArray⟩ with
              | none => .error .notUtf8
              | some text => .ok (text, rest)
      | bytes => readDelimited buf
      | bool => (readNumber buf).map fun (n, rest) => (n != 0, rest)
      | int64 => (readNumber buf).map fun (n, rest) => ((UInt64.ofNat n).toInt64, rest)
      | uint64 => (readNumber buf).map fun (n, rest) => (UInt64.ofNat n, rest)
      | double => readFixed64 buf
      | enum => (readNumber buf).map fun (n, rest) => ((UInt64.ofNat n).toUInt32.toInt32, rest)

end Scalar

/-- Appends the occurrences behind one key of a repeated scalar: a run of packed values, or
one value. -/
def readRepeatedScalar (s : Scalar) (type : WireType) (values : List s.Carrier) (buf : Bytes) :
    FieldRead (List s.Carrier) :=
  let readOne := fun (type : WireType) (values : List s.Carrier) (buf : Bytes) =>
    (unplaced (s.read type buf)).map fun (value, rest) => (values ++ [value], rest)
  if s.isPacked ∧ type = .lengthDelimited then
    readNested (readOne s.wireType) values buf
  else readOne type values buf

/-- Reads one entry of a map; its key and value may come in any order, or not at all. The wire
type of the entry is not looked at. -/
def readEntry {α : Type} (default : α) (depth : Nat)
    (read : Nat → WireType → α → Bytes → FieldRead α) (buf : Bytes) :
    FieldRead (String × α) :=
  match depth with
  | 0 => .error ⟨.nestedTooDeep, []⟩
  | depth + 1 =>
      readNested
        (fun (entry : String × α) buf =>
          match unplaced (readKey buf) with
          | .error e => .error e
          | .ok ((1, type), rest) =>
              (unplaced (Scalar.string.read type rest)).map fun (key, rest') =>
                ((key, entry.2), rest')
          | .ok ((2, type), rest) =>
              (read depth type entry.2 rest).map fun (value, rest') => ((entry.1, value), rest')
          | .ok ((number, type), rest) =>
              (unplaced (skipField depth number type rest)).map fun rest' => (entry, rest'))
        ("", default) buf

/-- Reads a nested message into `value`; `merge` merges one of its fields. -/
def readMessage {α : Type} (depth : Nat)
    (merge : Nat → Nat → WireType → α → Bytes → FieldRead α) (type : WireType) (value : α)
    (buf : Bytes) : FieldRead α :=
  match unplaced (expectWireType type .lengthDelimited) with
  | .error e => .error e
  | .ok () =>
      match depth with
      | 0 => .error ⟨.nestedTooDeep, []⟩
      | depth + 1 =>
          readNested
            (fun value buf =>
              match unplaced (readKey buf) with
              | .error e => .error e
              | .ok ((number, type), rest) => merge depth number type value rest)
            value buf

/-- Names the field an error lies in. -/
def placed {α : Type} (owner : String) (field : FieldName) :
    Except DecodeError α → Except DecodeError α
  | .error e => .error (e.within owner field.label)
  | .ok value => .ok value

mutual

/-- Merges one occurrence of an element, whose key has been read, into `value`. -/
def Element.merge : (e : Element) → (depth : Nat) → WireType → e.Carrier → Bytes →
    FieldRead e.Carrier
  | .scalar s, _, type, _, buf => unplaced (s.read type buf)
  | .message name fields, depth, type, value, buf =>
      readMessage depth (fun depth number type value buf =>
        fields.merge (MessageType.shortName name) depth number type value buf) type value buf

/-- Merges the field `number`, whose key has been read, into a record of the message `owner`;
an unknown field is skipped. -/
def Fields.merge : (fields : Fields) → (owner : String) → (depth number : Nat) → WireType →
    fields.Record → Bytes → FieldRead fields.Record
  | .nil, _, depth, number, type, value, buf =>
      (unplaced (skipField depth number type buf)).map fun rest => (value, rest)
  | .cons field .one (.scalar s) rest, owner, depth, number, type, value, buf =>
      if number = field.number then
        (placed owner field (unplaced (s.read type buf))).map fun (first, buf') =>
          ((first, value.2), buf')
      else
        (rest.merge owner depth number type value.2 buf).map fun (others, buf') =>
          ((value.1, others), buf')
  | .cons field .one (.message name fields) rest, owner, depth, number, type, value, buf =>
      if number = field.number then
        (placed owner field
          (readMessage depth (fun depth number type value buf =>
            fields.merge (MessageType.shortName name) depth number type value buf)
            type (value.1.getD fields.default) buf)).map
          fun (first, buf') => ((some first, value.2), buf')
      else
        (rest.merge owner depth number type value.2 buf).map fun (others, buf') =>
          ((value.1, others), buf')
  | .cons field .many (.scalar s) rest, owner, depth, number, type, value, buf =>
      if number = field.number then
        (placed owner field (readRepeatedScalar s type value.1 buf)).map
          fun (first, buf') => ((first, value.2), buf')
      else
        (rest.merge owner depth number type value.2 buf).map fun (others, buf') =>
          ((value.1, others), buf')
  | .cons field .many (.message name fields) rest, owner, depth, number, type, value, buf =>
      if number = field.number then
        (placed owner field
          (readMessage depth (fun depth number type value buf =>
            fields.merge (MessageType.shortName name) depth number type value buf)
            type fields.default buf)).map
          fun (first, buf') => ((value.1 ++ [first], value.2), buf')
      else
        (rest.merge owner depth number type value.2 buf).map fun (others, buf') =>
          ((value.1, others), buf')
  | .cons field .map element rest, owner, depth, number, type, value, buf =>
      if number = field.number then
        (placed owner field
          (readEntry element.default depth
            (fun depth type value buf => element.merge depth type value buf) buf)).map
          fun (entry, buf') => ((value.1.insert entry.1 entry.2, value.2), buf')
      else
        (rest.merge owner depth number type value.2 buf).map fun (others, buf') =>
          ((value.1, others), buf')

end

namespace MessageType

/-- How deep messages and groups may nest. -/
def depthLimit : Nat := 100

def merge (t : MessageType) (value : t.Value) (buf : Bytes) : Except DecodeError t.Value :=
  (readWhile 0
    (fun value buf =>
      match unplaced (readKey buf) with
      | .error e => .error e
      | .ok ((number, type), rest) =>
          t.fields.merge (shortName t.name) depthLimit number type value rest)
    value buf).map Prod.fst

def decode (t : MessageType) (buf : Bytes) : Except DecodeError t.Value :=
  t.merge t.default buf

end MessageType

end Wire

end PluginKit
