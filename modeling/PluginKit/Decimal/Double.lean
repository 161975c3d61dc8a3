/-!
# Decimal texts of doubles

The double nearest to a decimal number, and the decimal number with the fewest digits that is
nearest to a double, both in exact arithmetic on natural numbers.
-/

namespace PluginKit

namespace Decimal

/-- A double: `significand · 2 ^ exponent` with a sign, an infinity, or none at all. -/
inductive Double where
  | finite (negative : Bool) (significand : Nat) (exponent : Int)
  | infinite (negative : Bool)
  | nan
deriving DecidableEq, Repr

structure Ratio where
  num : Nat
  den : Nat

namespace Ratio

def scaled (n b : Nat) (e : Int) : Ratio :=
  if 0 ≤ e then ⟨n * Nat.pow b e.toNat, 1⟩ else ⟨n, Nat.pow b (-e).toNat⟩

def mulPow (r : Ratio) (b : Nat) (e : Int) : Ratio :=
  if 0 ≤ e then ⟨r.num * Nat.pow b e.toNat, r.den⟩ else ⟨r.num, r.den * Nat.pow b (-e).toNat⟩

def floor (r : Ratio) : Nat :=
  r.num / r.den

/-- The nearest whole number; a half goes to the even one. -/
def round (r : Ratio) : Nat :=
  let twice := 2 * (r.num % r.den)
  if r.den < twice ∨ (twice = r.den ∧ r.floor % 2 = 1) then r.floor + 1 else r.floor

def lt (a b : Ratio) : Bool :=
  decide (a.num * b.den < b.num * a.den)

end Ratio

def leastExponent : Int := -1074

def greatestExponent : Int := 971

/-- The least significand of a double that has all its bits, 2 ^ 52. -/
def leastFull : Nat := 4503599627370496

/-- The double nearest to a positive fraction, as significand and exponent; none if it is
too large. -/
def nearestRatio (v : Ratio) : Option (Nat × Int) :=
  let guess := (v.num.log2 : Int) - v.den.log2 - 52
  let exponent := if (v.mulPow 2 (-guess)).floor < leastFull then guess - 1 else guess
  let exponent := max exponent leastExponent
  let significand := (v.mulPow 2 (-exponent)).round
  let (significand, exponent) :=
    if significand = 2 * leastFull then (leastFull, exponent + 1) else (significand, exponent)
  if greatestExponent < exponent then none else some (significand, exponent)

def digitCount (n : Nat) : Nat :=
  (Nat.toDigits 10 n).length

/-- The double nearest to `digits · 10 ^ exponent`; none if it is too large. Numbers beyond any
double are told by their size alone. -/
def nearest (digits : Nat) (exponent : Int) : Option (Nat × Int) :=
  let size := (digitCount digits : Int) + exponent
  if digits = 0 ∨ size < -400 then some (0, leastExponent)
  else if 400 < size then none
  else nearestRatio (Ratio.scaled digits 10 exponent)

/-- The least `n` with `v < 10 ^ n`, for a fraction below one; `fuel` bounds its size. -/
def magnitudeBelowOne (v : Ratio) : Nat → Int
  | 0 => 0
  | fuel + 1 =>
      if v.den ≤ 10 * v.num then 0
      else magnitudeBelowOne ⟨10 * v.num, v.den⟩ fuel - 1

/-- The least `n` with `v < 10 ^ n`. -/
def magnitude (v : Ratio) : Int :=
  if v.num < v.den then magnitudeBelowOne v 400 else digitCount v.floor

/-- The numbers that have a given double as their nearest one lie between these; the two ends
belong to them if the significand is even. -/
def neighbourhood (significand : Nat) (exponent : Int) : Ratio × Ratio :=
  let below :=
    if significand = leastFull ∧ leastExponent < exponent then 4 * significand - 1
    else 4 * significand - 2
  (Ratio.scaled below 2 (exponent - 2), Ratio.scaled (4 * significand + 2) 2 (exponent - 2))

/-- The multiple of `10 ^ exponent` nearest to a double among those that have it as their
nearest one. -/
def onGrid? (significand : Nat) (exponent : Int) (grid : Int) : Option Nat :=
  let v := Ratio.scaled significand 2 exponent
  let (low, high) := neighbourhood significand exponent
  let even := significand % 2 == 0
  let accepts (n : Nat) : Bool :=
    let r := Ratio.scaled n 10 grid
    (low.lt r || (even && !r.lt low)) && (r.lt high || (even && !high.lt r))
  let steps := v.mulPow 10 (-grid)
  let lower := steps.floor
  let upper := if steps.num % steps.den = 0 then lower else lower + 1
  let nearer := if 2 * (steps.num % steps.den) < steps.den then [lower, upper] else [upper, lower]
  nearer.find? accepts

/-- The shortest digits, tried from `count` digits on. With no digit of its own size a number may
still be nearest to the next power of ten. -/
def shortestFrom (significand : Nat) (exponent : Int) (size : Int) : Nat → Nat → Nat × Int
  | _, 0 => (significand, 0)
  | count, fuel + 1 =>
      let grid := size - count
      match onGrid? significand exponent grid with
      | some digits => (digits, grid)
      | none => shortestFrom significand exponent size (count + 1) fuel

/-- The decimal number with the fewest digits that has a positive double as its nearest one,
the nearest to it among those: its digits and the power of ten they count. -/
def shortest (significand : Nat) (exponent : Int) : Nat × Int :=
  shortestFrom significand exponent (magnitude (Ratio.scaled significand 2 exponent)) 0 18

/-- A decimal number written without an exponent; a whole number ends in `.0`. -/
def positional (digits : Nat) (exponent : Int) : String :=
  let text := Nat.toDigits 10 digits
  if 0 ≤ exponent then
    String.ofList (text ++ List.replicate exponent.toNat '0' ++ ['.', '0'])
  else
    let places := (-exponent).toNat
    let padded := List.replicate (places + 1 - text.length) '0' ++ text
    let whole := padded.length - places
    String.ofList (padded.take whole ++ '.' :: padded.drop whole)

namespace Double

def text : Double → String
  | finite negative significand exponent =>
      let sign := if negative then "-" else ""
      if significand = 0 then sign ++ "0.0"
      else
        let (digits, power) := shortest significand exponent
        sign ++ positional digits power
  | infinite negative => if negative then "-inf" else "inf"
  | nan => "NaN"

end Double

def digitsValue (digits : List Char) : Nat :=
  digits.foldl (fun n d => 10 * n + (d.toNat - '0'.toNat)) 0

/-- Reads the exponent that may end a decimal number, which must end there. -/
def readExponent? : List Char → Option Int
  | [] => some 0
  | e :: rest =>
      if e = 'e' ∨ e = 'E' then
        let (negative, digits) :=
          match rest with
          | '-' :: digits => (true, digits)
          | '+' :: digits => (false, digits)
          | digits => (false, digits)
        if digits.isEmpty ∨ ¬ digits.all Char.isDigit then none
        else some (if negative then -(digitsValue digits : Int) else digitsValue digits)
      else none

/-- Reads a decimal number without a sign: digits with a point among or around them, and
perhaps an exponent. -/
def readUnsigned? (text : List Char) : Option (Nat × Int) :=
  let whole := text.takeWhile Char.isDigit
  let rest := text.dropWhile Char.isDigit
  let (fraction, rest) :=
    match rest with
    | '.' :: tail => (tail.takeWhile Char.isDigit, tail.dropWhile Char.isDigit)
    | _ => ([], rest)
  if whole.isEmpty ∧ fraction.isEmpty then none
  else
    (readExponent? rest).map fun exponent =>
      (digitsValue (whole ++ fraction), exponent - fraction.length)

/-- Reads a decimal number as the double nearest to it, unless it is too large. -/
def readDouble? (text : List Char) : Option Double :=
  let (negative, digits) :=
    match text with
    | '-' :: rest => (true, rest)
    | '+' :: rest => (false, rest)
    | _ => (false, text)
  (readUnsigned? digits).bind fun (digits, exponent) =>
    (nearest digits exponent).map fun (significand, exponent) =>
      .finite negative significand exponent

end Decimal

end PluginKit
