import PluginKit.Wire.KeyMap
import PluginKit.Wire.Varint

/-!
# Message schemas and their values

A schema lists the fields of a message: number, name, how often the field occurs, and what one
occurrence holds. The values of a message are a type computed from its schema, so that a value
has every declared field and no other.
-/

namespace PluginKit

namespace Wire

/-- The kinds of content without fields of their own. -/
inductive Scalar where
  | string
  | bytes
  | bool
  | int64
  | uint64
  | double
  | enum
deriving DecidableEq, Repr

namespace Scalar

/-- The values of a kind. A double is the sixty-four bits of its floating-point form, and an
enumeration field holds any number, declared or not. -/
abbrev Carrier : Scalar → Type
  | string => String
  | bytes => Bytes
  | bool => Bool
  | int64 => Int64
  | uint64 => UInt64
  | double => UInt64
  | enum => Int32

def default : (s : Scalar) → s.Carrier
  | string => ""
  | bytes => []
  | bool => false
  | int64 => 0
  | uint64 => 0
  | double => 0
  | enum => 0

/-- Whether a value is left out of the wire; both zeros of a double are. -/
def isDefault : (s : Scalar) → s.Carrier → Bool
  | string, value => value == ""
  | bytes, value => value.isEmpty
  | bool, value => !value
  | int64, value => value == 0
  | uint64, value => value == 0
  | double, value => value == 0 || value == 0x8000000000000000
  | enum, value => value == 0

/-- Whether repeated values share one length-delimited run. -/
def isPacked : Scalar → Bool
  | string => false
  | bytes => false
  | _ => true

end Scalar

/-- How often a field occurs. A map counts as a repeated pair of a text key and a value. -/
inductive Occurrence where
  | one
  | many
  | map
deriving DecidableEq, Repr

/-- What names a field: its number on the wire, its name, and how errors spell the name. -/
structure FieldName where
  number : Nat
  name : String
  label : String := name
deriving DecidableEq, Repr

mutual

/-- The content of one occurrence of a field. -/
inductive Element where
  | scalar (s : Scalar)
  | message (name : String) (fields : Fields)

/-- The fields of a message, in ascending order of their numbers. -/
inductive Fields where
  | nil
  | cons (field : FieldName) (occurrence : Occurrence) (element : Element) (rest : Fields)

end

/-- The values of a field: a message that occurs once may be absent, a scalar may not. -/
abbrev Occurrence.Carrier (occurrence : Occurrence) (element : Element) (α : Type) : Type :=
  match occurrence, element with
  | .one, .scalar _ => α
  | .one, .message _ _ => Option α
  | .many, _ => List α
  | .map, _ => KeyMap α

mutual

@[reducible] def Element.Carrier : Element → Type
  | .scalar s => s.Carrier
  | .message _ fields => fields.Record

@[reducible] def Fields.Record : Fields → Type
  | .nil => Unit
  | .cons _ occurrence element rest =>
      occurrence.Carrier element element.Carrier × rest.Record

end

mutual

def Element.default : (e : Element) → e.Carrier
  | .scalar s => s.default
  | .message _ fields => fields.default

def Fields.default : (fields : Fields) → fields.Record
  | .nil => ()
  | .cons _ .one (.scalar s) rest => (s.default, rest.default)
  | .cons _ .one (.message _ _) rest => (none, rest.default)
  | .cons _ .many _ rest => ([], rest.default)
  | .cons _ .map _ rest => (KeyMap.empty, rest.default)

end

mutual

/-- Whether a value says nothing, so that a map entry leaves it out. -/
def Element.isDefault : (e : Element) → e.Carrier → Bool
  | .scalar s, value => s.isDefault value
  | .message _ fields, value => fields.isDefault value

def Fields.isDefault : (fields : Fields) → fields.Record → Bool
  | .nil, _ => true
  | .cons _ .one (.scalar s) rest, value => s.isDefault value.1 && rest.isDefault value.2
  | .cons _ .one (.message _ _) rest, value => value.1.isNone && rest.isDefault value.2
  | .cons _ .many _ rest, value => value.1.isEmpty && rest.isDefault value.2
  | .cons _ .map _ rest, value => value.1.isEmpty && rest.isDefault value.2

end

/-- A message type: its full name, the short name errors use, and its fields. -/
structure MessageType where
  name : String
  fields : Fields

namespace MessageType

def shortName (name : String) : String :=
  String.ofList ((name.toList.reverse.takeWhile (· ≠ '.')).reverse)

abbrev Value (t : MessageType) : Type := t.fields.Record

def default (t : MessageType) : t.Value := t.fields.default

end MessageType

structure Message where
  type : MessageType
  value : type.Value

end Wire

end PluginKit
