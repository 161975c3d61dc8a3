import PluginKit.Decimal.Double
import PluginKit.Decimal.Natural
import PluginKit.Text.Quoted
import PluginKit.Yaml.Event

/-!
# The value of a scalar

A plain scalar is read as the first of these that it spells: nothing, a truth value, a whole
number, a floating-point number; otherwise it is a text. A tag may demand one of them, and other
scalars are texts.
-/

namespace PluginKit

namespace Yaml

/-- The value of a scalar. Whole numbers are told apart by the narrowest width they fit:
64 bits without and with a sign, then 128 bits. -/
inductive Value where
  | null
  | bool (b : Bool)
  | natural (n : Nat)
  | signed (n : Int)
  | wideNatural (n : Nat)
  | wideSigned (n : Int)
  | float (x : Decimal.Double)
  | text (s : String)
deriving DecidableEq, Repr

/-- What a tag may demand. -/
inductive Demand where
  | bool
  | int
  | float
  | null
deriving DecidableEq, Repr

namespace Demand

def tag : Demand → Octets
  | bool => "tag:yaml.org,2002:bool".toUTF8.toList
  | int => "tag:yaml.org,2002:int".toUTF8.toList
  | float => "tag:yaml.org,2002:float".toUTF8.toList
  | null => "tag:yaml.org,2002:null".toUTF8.toList

def text : Demand → String
  | bool => "a boolean"
  | int => "an integer"
  | float => "a float"
  | null => "null"

def ofTag? (tag : Octets) : Option Demand :=
  [bool, int, float, null].find? fun d => d.tag = tag

end Demand

namespace Value

def describe : Value → String
  | null => "unit value"
  | bool b => "boolean \x60" ++ toString b ++ "\x60"
  | natural n => "integer \x60" ++ toString n ++ "\x60"
  | signed n => "integer \x60" ++ toString n ++ "\x60"
  | wideNatural n => "integer \x60" ++ toString n ++ "\x60 as u128"
  | wideSigned n => "integer \x60" ++ toString n ++ "\x60 as i128"
  | float x => "floating point \x60" ++ x.text ++ "\x60"
  | text s => "string " ++ Text.quote s

def readNull? (s : String) : Option Value :=
  if ["null", "Null", "NULL", "~"].contains s then some null else none

def readBool? (s : String) : Option Value :=
  if ["true", "True", "TRUE"].contains s then some (bool true)
  else if ["false", "False", "FALSE"].contains s then some (bool false)
  else none

/-- Whether a text has digits only, the first of several being a zero, behind a sign that may be
missing. Such a text is no number. -/
def isPadded (chars : List Char) : Bool :=
  match chars.dropWhile fun c => c == '+' || c == '-' with
  | '0' :: rest => !rest.isEmpty && rest.all Char.isDigit && chars.length ≤ rest.length + 2
  | _ => false

/-- The bases that a text may state, and how it states them. -/
def statedBase? : List Char → Option (Nat × List Char)
  | '0' :: 'x' :: digits => some (16, digits)
  | '0' :: 'o' :: digits => some (8, digits)
  | '0' :: 'b' :: digits => some (2, digits)
  | _ => none

def readMagnitude? (limit : Nat) (chars : List Char) : Option Nat :=
  match statedBase? chars with
  | some (base, digits) => (Decimal.readDigits base limit digits).toOption
  | none => if isPadded chars then none else (Decimal.readDigits 10 limit chars).toOption

def readNatural? (limit : Nat) (chars : List Char) : Option Nat :=
  match chars with
  | '+' :: rest => readMagnitude? limit rest
  | _ => readMagnitude? limit chars

/-- Reads a whole number with a minus sign, whose magnitude is below a limit. -/
def readNegative? (limit : Nat) (chars : List Char) : Option Int :=
  match chars with
  | '-' :: rest => (readMagnitude? limit rest).map fun n => -(n : Int)
  | _ => none

def readInt? (s : String) : Option Value :=
  let chars := s.toList
  ((readNatural? (Decimal.wordCount 64) chars).map natural).or <|
    ((readNegative? (Decimal.wordCount 63 + 1) chars).map signed).or <|
      ((readNatural? (Decimal.wordCount 128) chars).map wideNatural).or <|
        (readNegative? (Decimal.wordCount 127 + 1) chars).map wideSigned

def readFloat? (s : String) : Option Value :=
  let chars := s.toList
  let unsigned :=
    match chars with
    | '+' :: rest => rest
    | _ => chars
  if chars.head? = some '+' ∧ (unsigned.head? = some '+' ∨ unsigned.head? = some '-') then none
  else if [".inf", ".Inf", ".INF"].contains (String.ofList unsigned) then
    some (float (.infinite false))
  else if ["-.inf", "-.Inf", "-.INF"].contains s then some (float (.infinite true))
  else if [".nan", ".NaN", ".NAN"].contains s then some (float .nan)
  else (Decimal.readDouble? unsigned).map float

/-- The value that a plain scalar spells. -/
def ofPlain (s : String) : Value :=
  if s.isEmpty then null
  else
    ((readNull? s).or <| (readBool? s).or <| (readInt? s).or <|
      if isPadded s.toList then none else readFloat? s).getD (text s)

def readDemanded? (s : String) : Demand → Option Value
  | .bool => readBool? s
  | .int => readInt? s
  | .float => readFloat? s
  | .null => readNull? s

end Value

namespace Scalar

def string (s : Scalar) : String :=
  String.ofList s.text

/-- Whether the tag of a scalar leaves its value open: there is none, or one of the document's
own that the scalar bears without quotes. -/
def isOpen (s : Scalar) : Bool :=
  s.style = .plain &&
    match s.tag with
    | none => true
    | some tag => tag.head? == some 33

/-- The value of a scalar, or what its tag demands in vain. -/
def value (s : Scalar) : Except Demand Value :=
  match s.tag.bind Demand.ofTag? with
  | some demand =>
      match Value.readDemanded? s.string demand with
      | some value => .ok value
      | none => .error demand
  | none => .ok (if s.isOpen then Value.ofPlain s.string else .text s.string)

end Scalar

end Yaml

end PluginKit
