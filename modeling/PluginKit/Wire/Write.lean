import PluginKit.Wire.Key
import PluginKit.Wire.Schema

/-!
# Writing messages

Fields are written in the order of the schema. A scalar that is left out reads back as its
default; repeated numbers are packed into one run; a map is written entry by entry, each a
message of a key (field 1) and a value (field 2).
-/

namespace PluginKit

namespace Wire

def writeFixed64 (n : UInt64) : Bytes :=
  (List.range 8).map fun i => UInt8.ofNat (n.toNat / Nat.pow 256 i % 256)

def writeDelimited (content : Bytes) : Bytes :=
  writeVarint content.length ++ content

namespace Scalar

def wireType : Scalar → WireType
  | string => .lengthDelimited
  | bytes => .lengthDelimited
  | double => .sixtyFourBit
  | _ => .varint

def write : (s : Scalar) → s.Carrier → Bytes
  | string, value => writeDelimited value.toByteArray.data.toList
  | bytes, value => writeDelimited value
  | bool, value => writeVarint value.toNat
  | int64, value => writeVarint value.toUInt64.toNat
  | uint64, value => writeVarint value.toNat
  | double, value => writeFixed64 value
  | enum, value => writeVarint value.toInt64.toUInt64.toNat

end Scalar

def writeField (number : Nat) (type : WireType) (content : Bytes) : Bytes :=
  writeKey number type ++ content

def writeScalarField (number : Nat) (s : Scalar) (value : s.Carrier) : Bytes :=
  if s.isDefault value then [] else writeField number s.wireType (s.write value)

def Element.wireType : Element → WireType
  | .scalar s => s.wireType
  | .message _ _ => .lengthDelimited

def writeRepeated {α : Type} (number : Nat) (element : Element) (write : α → Bytes)
    (values : List α) : Bytes :=
  let apart := values.flatMap fun value => writeField number element.wireType (write value)
  match element with
  | .scalar s =>
      if s.isPacked then
        if values.isEmpty then []
        else writeField number .lengthDelimited (writeDelimited (values.flatMap write))
      else apart
  | .message _ _ => apart

def writeEntry {α : Type} (element : Element) (write : α → Bytes) (isDefault : α → Bool)
    (key : String) (value : α) : Bytes :=
  writeScalarField 1 .string key ++
    if isDefault value then [] else writeField 2 element.wireType (write value)

def writeEntries {α : Type} (number : Nat) (element : Element) (write : α → Bytes)
    (isDefault : α → Bool) (entries : List (String × α)) : Bytes :=
  entries.flatMap fun (key, value) =>
    writeField number .lengthDelimited
      (writeDelimited (writeEntry element write isDefault key value))

mutual

def Element.write : (e : Element) → e.Carrier → Bytes
  | .scalar s, value => s.write value
  | .message _ fields, value => writeDelimited (fields.write value)

def Fields.write : (fields : Fields) → fields.Record → Bytes
  | .nil, _ => []
  | .cons field .one (.scalar s) rest, value =>
      writeScalarField field.number s value.1 ++ rest.write value.2
  | .cons field .one (.message _ fields) rest, value =>
      (match value.1 with
        | none => []
        | some inner =>
            writeField field.number .lengthDelimited (writeDelimited (fields.write inner))) ++
        rest.write value.2
  | .cons field .many element rest, value =>
      writeRepeated field.number element element.write value.1 ++ rest.write value.2
  | .cons field .map element rest, value =>
      writeEntries field.number element element.write element.isDefault value.1.entries ++
        rest.write value.2

end

def MessageType.encode (t : MessageType) (value : t.Value) : Bytes :=
  t.fields.write value

end Wire

end PluginKit
