/-!
# Natural numbers as text

Reading digits in a base, up to a limit. The first character that is wrong decides: it is no
digit, or the number it ends is too large.
-/

namespace PluginKit

namespace Decimal

inductive NumberFault where
  | empty
  | invalidDigit
  | tooLarge
deriving DecidableEq, Repr

def NumberFault.message : NumberFault → String
  | empty => "cannot parse integer from empty string"
  | invalidDigit => "invalid digit found in string"
  | tooLarge => "number too large to fit in target type"

def digitValue? (base : Nat) (c : Char) : Option Nat :=
  let value? :=
    if '0' ≤ c ∧ c ≤ '9' then some (c.toNat - '0'.toNat)
    else if 'a' ≤ c ∧ c ≤ 'f' then some (c.toNat - 'a'.toNat + 10)
    else if 'A' ≤ c ∧ c ≤ 'F' then some (c.toNat - 'A'.toNat + 10)
    else none
  value?.filter (· < base)

def readDigitsFrom (base limit value : Nat) : List Char → Except NumberFault Nat
  | [] => .ok value
  | c :: rest =>
      match digitValue? base c with
      | none => .error .invalidDigit
      | some digit =>
          if base * value + digit < limit then readDigitsFrom base limit (base * value + digit) rest
          else .error .tooLarge

def readDigits (base limit : Nat) (text : List Char) : Except NumberFault Nat :=
  if text.isEmpty then .error .empty else readDigitsFrom base limit 0 text

def wordCount (bits : Nat) : Nat :=
  Nat.pow 2 bits

/-- Reads a number of 64 bits, which a plus sign may precede. -/
def readUInt64 (text : List Char) : Except NumberFault Nat :=
  match text with
  | '+' :: rest => if rest.isEmpty then .error .invalidDigit else readDigits 10 (wordCount 64) rest
  | _ => readDigits 10 (wordCount 64) text

end Decimal

end PluginKit
