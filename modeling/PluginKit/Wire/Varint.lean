/-!
# Base-128 numbers

Wire numbers are written seven bits to the byte, least significant first; every byte but the
last has its high bit set. A reader takes ten bytes at most, and of the tenth only the one bit
that is left of sixty-four.
-/

namespace PluginKit

namespace Wire

abbrev Bytes := List UInt8

def writeVarint (n : Nat) : Bytes :=
  if n < 128 then [UInt8.ofNat n]
  else UInt8.ofNat (n % 128 + 128) :: writeVarint (n / 128)
termination_by n
decreasing_by omega

/-- Reads a base-128 number of at most `left` bytes, the last of which must be below two when
it is the tenth. -/
def readDigits : Nat → Bytes → Option (Nat × Bytes)
  | 0, _ => none
  | _ + 1, [] => none
  | left + 1, b :: rest =>
      if b.toNat < 128 then
        if left = 0 ∧ 2 ≤ b.toNat then none else some (b.toNat, rest)
      else
        match readDigits left rest with
        | none => none
        | some (high, rest') => some (b.toNat - 128 + 128 * high, rest')

/-- Reads a base-128 number of at most sixty-four bits. -/
def readVarint (buf : Bytes) : Option (Nat × Bytes) :=
  readDigits 10 buf

theorem writeVarint_ne_nil (n : Nat) : writeVarint n ≠ [] := by
  unfold writeVarint
  split <;> simp

end Wire

end PluginKit
