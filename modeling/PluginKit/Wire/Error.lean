/-!
# Why bytes are not a message

The causes a reader can give, their wording, and the trail of fields it was in.
-/

namespace PluginKit

namespace Wire

inductive WireType where
  | varint
  | sixtyFourBit
  | lengthDelimited
  | startGroup
  | endGroup
  | thirtyTwoBit
deriving DecidableEq, Repr

namespace WireType

def code : WireType → Nat
  | varint => 0
  | sixtyFourBit => 1
  | lengthDelimited => 2
  | startGroup => 3
  | endGroup => 4
  | thirtyTwoBit => 5

def ofCode? : Nat → Option WireType
  | 0 => some varint
  | 1 => some sixtyFourBit
  | 2 => some lengthDelimited
  | 3 => some startGroup
  | 4 => some endGroup
  | 5 => some thirtyTwoBit
  | _ => none

def name : WireType → String
  | varint => "Varint"
  | sixtyFourBit => "SixtyFourBit"
  | lengthDelimited => "LengthDelimited"
  | startGroup => "StartGroup"
  | endGroup => "EndGroup"
  | thirtyTwoBit => "ThirtyTwoBit"

@[simp] theorem ofCode?_code (t : WireType) : ofCode? t.code = some t := by
  cases t <;> rfl

end WireType

inductive DecodeCause where
  | malformedVarint
  | keyTooLarge (key : Nat)
  | unknownWireType (code : Nat)
  | fieldNumberZero
  | unexpectedWireType (actual expected : WireType)
  | bufferUnderflow
  | lengthExceeded
  | notUtf8
  | unexpectedEndGroup
  | nestedTooDeep
deriving DecidableEq, Repr

def DecodeCause.message : DecodeCause → String
  | malformedVarint => "invalid varint"
  | keyTooLarge key => "invalid key value: " ++ toString key
  | unknownWireType code => "invalid wire type value: " ++ toString code
  | fieldNumberZero => "invalid tag value: 0"
  | unexpectedWireType actual expected =>
      "invalid wire type: " ++ actual.name ++ " (expected " ++ expected.name ++ ")"
  | bufferUnderflow => "buffer underflow"
  | lengthExceeded => "delimited length exceeded"
  | notUtf8 => "invalid string value: data is not UTF-8 encoded"
  | unexpectedEndGroup => "unexpected end group tag"
  | nestedTooDeep => "recursion limit reached"

/-- A cause together with the fields it lies in, the innermost first. -/
structure DecodeError where
  cause : DecodeCause
  trail : List (String × String) := []
deriving DecidableEq, Repr

namespace DecodeError

/-- The error seen from one message further out. -/
def within (message field : String) (e : DecodeError) : DecodeError :=
  { e with trail := e.trail ++ [(message, field)] }

/-- The wording of an error: every field it lies in, then the cause. -/
def message (e : DecodeError) : String :=
  "failed to decode Protobuf message: " ++
    String.join (e.trail.map fun (owner, field) => owner ++ "." ++ field ++ ": ") ++
    e.cause.message

end DecodeError

end Wire

end PluginKit
