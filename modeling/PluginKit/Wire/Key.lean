import PluginKit.Wire.Error
import PluginKit.Wire.Varint

/-!
# Keys and skipping

Every field on the wire starts with a key: its number and its wire type. A field whose number
the reader does not know is skipped by its wire type alone.
-/

namespace PluginKit

namespace Wire

abbrev Read (α : Type) := Except DecodeCause (α × Bytes)

def writeKey (number : Nat) (type : WireType) : Bytes :=
  writeVarint (8 * number + type.code)

/-- Reads a number, naming the cause of a failure. -/
def readNumber (buf : Bytes) : Read Nat :=
  match readVarint buf with
  | none => .error .malformedVarint
  | some found => .ok found

/-- A key has at most thirty-two bits: it is below 2 ^ 32. -/
def keyLimit : Nat := 4294967296

/-- Reads a key: thirty-two bits, a known wire type and a number above zero. -/
def readKey (buf : Bytes) : Read (Nat × WireType) :=
  match readNumber buf with
  | .error e => .error e
  | .ok (key, rest) =>
      if keyLimit ≤ key then .error (.keyTooLarge key)
      else
        match WireType.ofCode? (key % 8) with
        | none => .error (.unknownWireType (key % 8))
        | some type =>
            if key / 8 = 0 then .error .fieldNumberZero else .ok ((key / 8, type), rest)

def dropBytes (n : Nat) (buf : Bytes) : Except DecodeCause Bytes :=
  if buf.length < n then .error .bufferUnderflow else .ok (buf.drop n)

/-- Skips fields up to the end of the group `number`; `skip` skips one field. -/
def skipGroup (skip : Nat → WireType → Bytes → Except DecodeCause Bytes) (number : Nat)
    (buf : Bytes) : Except DecodeCause Bytes :=
  match readKey buf with
  | .error e => .error e
  | .ok ((inner, .endGroup), rest) =>
      if inner = number then .ok rest else .error .unexpectedEndGroup
  | .ok ((inner, type), rest) =>
      match skip inner type rest with
      | .error e => .error e
      | .ok rest' =>
          if _h : rest'.length < buf.length then skipGroup skip number rest' else .ok rest'
termination_by buf.length

/-- Skips the content of one field, `depth` groups deep at most. -/
def skipField (depth : Nat) (number : Nat) (type : WireType) (buf : Bytes) :
    Except DecodeCause Bytes :=
  match depth with
  | 0 => .error .nestedTooDeep
  | depth + 1 =>
      match type with
      | .varint => (readNumber buf).map Prod.snd
      | .thirtyTwoBit => dropBytes 4 buf
      | .sixtyFourBit => dropBytes 8 buf
      | .lengthDelimited =>
          match readNumber buf with
          | .error e => .error e
          | .ok (n, rest) => dropBytes n rest
      | .startGroup => skipGroup (skipField depth) number buf
      | .endGroup => .error .unexpectedEndGroup

/-- Repeats `step` while more than `limit` bytes are left. -/
def readWhile {α ε : Type} (limit : Nat) (step : α → Bytes → Except ε (α × Bytes)) (value : α)
    (buf : Bytes) : Except ε (α × Bytes) :=
  if limit < buf.length then
    match step value buf with
    | .error e => .error e
    | .ok (value', rest) =>
        if _h : rest.length < buf.length then readWhile limit step value' rest
        else .ok (value', rest)
  else .ok (value, buf)
termination_by buf.length

end Wire

end PluginKit
