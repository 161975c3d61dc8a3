import PluginKit.Wire.Reader

/-!
# What is written is read back

Numbers, keys, runs of bytes and single values are read back from what was written, whatever
follows them. A number has to fit into sixty-four bits for that, and so has a length.
-/

namespace PluginKit

namespace Wire

/-- No run of bytes is as long as this: its length is a number of sixty-four bits. -/
def lengthLimit : Nat := 18446744073709551616

/-! ## Numbers and keys -/

theorem toNat_ofNat_of_lt {n : Nat} (h : n < 256) : (UInt8.ofNat n).toNat = n := by
  rw [UInt8.toNat_ofNat']
  omega

/-- A number of as many bits as the reader has bytes left for is read back. The tenth byte holds
one bit only. -/
theorem readDigits_writeVarint {left n : Nat} (hleft : left < 10)
    (hn : n < 2 * Nat.pow 128 left) (rest : Bytes) :
    readDigits (left + 1) (writeVarint n ++ rest) = some (n, rest) := by
  induction left generalizing n with
  | zero =>
      have hsmall : n < 2 := hn
      have hbyte := toNat_ofNat_of_lt (show n < 256 by omega)
      rw [writeVarint, if_pos (by omega)]
      simp only [List.singleton_append, readDigits, hbyte]
      rw [if_pos (by omega), if_neg (by omega)]
  | succ left ih =>
      rw [writeVarint]
      by_cases hlast : n < 128
      · have hbyte := toNat_ofNat_of_lt (show n < 256 by omega)
        rw [if_pos hlast]
        simp only [List.singleton_append, readDigits, hbyte]
        rw [if_pos hlast, if_neg (by omega)]
      · have hbyte := toNat_ofNat_of_lt (show n % 128 + 128 < 256 by omega)
        have hhigh : n / 128 < 2 * Nat.pow 128 left := by
          rw [Nat.div_lt_iff_lt_mul (by omega), Nat.mul_assoc]
          exact hn
        have hmore := ih (by omega) hhigh
        have hsum : n % 128 + 128 - 128 + 128 * (n / 128) = n := by omega
        rw [if_neg hlast, List.cons_append, readDigits, hbyte, if_neg (by omega), hmore]
        simp only [hsum]

theorem readVarint_writeVarint {n : Nat} (hn : n < lengthLimit) (rest : Bytes) :
    readVarint (writeVarint n ++ rest) = some (n, rest) :=
  readDigits_writeVarint (by omega) hn rest

theorem readNumber_writeVarint {n : Nat} (hn : n < lengthLimit) (rest : Bytes) :
    readNumber (writeVarint n ++ rest) = .ok (n, rest) := by
  rw [readNumber, readVarint_writeVarint hn]

def FitsKey (number : Nat) : Prop := 0 < number ∧ number < 536870912

theorem code_lt (type : WireType) : type.code < 8 := by
  cases type <;> decide

theorem readKey_writeKey {number : Nat} (h : FitsKey number) (type : WireType) (rest : Bytes) :
    readKey (writeKey number type ++ rest) = .ok ((number, type), rest) := by
  obtain ⟨hpos, hlimit⟩ := h
  have hcode := code_lt type
  have hkey : 8 * number + type.code < keyLimit := by
    simp only [keyLimit]
    omega
  have hnumber : 8 * number + type.code < lengthLimit := by
    simp only [lengthLimit]
    omega
  have htype : (8 * number + type.code) % 8 = type.code := by omega
  have hfield : (8 * number + type.code) / 8 = number := by omega
  rw [readKey, writeKey, readNumber_writeVarint hnumber]
  simp only [htype, hfield, WireType.ofCode?_code]
  rw [if_neg (by omega), if_neg (by omega)]

theorem writeKey_ne_nil (number : Nat) (type : WireType) : writeKey number type ≠ [] :=
  writeVarint_ne_nil _

/-! ## Runs of bytes -/

theorem readDelimited_writeDelimited {content : Bytes} (h : content.length < lengthLimit)
    (rest : Bytes) : readDelimited (writeDelimited content ++ rest) = .ok (content, rest) := by
  rw [readDelimited, writeDelimited, List.append_assoc, readNumber_writeVarint h]
  simp only [List.length_append]
  rw [if_neg (by omega), List.take_left, List.drop_left]

theorem length_writeDelimited (content : Bytes) :
    content.length < (writeDelimited content).length := by
  have hnonempty := List.length_pos_iff.mpr (writeVarint_ne_nil content.length)
  rw [writeDelimited, List.length_append]
  omega

theorem readFixed64_writeFixed64 (n : UInt64) (rest : Bytes) :
    readFixed64 (writeFixed64 n ++ rest) = .ok (n, rest) := by
  have hlength : (writeFixed64 n).length = 8 := by simp [writeFixed64]
  have htake : (writeFixed64 n ++ rest).take 8 = writeFixed64 n := by
    rw [List.take_append_of_le_length (by omega), List.take_of_length_le (by omega)]
  have hdrop : (writeFixed64 n ++ rest).drop 8 = rest := by rw [← hlength, List.drop_left]
  have hvalue : (writeFixed64 n).foldr (fun b m => b.toNat + 256 * m) 0 = n.toNat := by
    have hbound := n.toNat_lt
    simp [writeFixed64, List.range_succ]
    omega
  simp [readFixed64, htake, hdrop, hvalue, hlength]

/-! ## Single values -/

/-- A number of an enumeration is written as one of sixty-four bits with the same sign. -/
theorem toInt32_toInt64 (v : Int32) : v.toInt64.toUInt64.toUInt32.toInt32 = v := by
  apply Int32.toBitVec_inj.mp
  change (v.toBitVec.signExtend 64).setWidth 32 = v.toBitVec
  ext i hi
  simp [BitVec.getElem_setWidth, BitVec.getLsbD_signExtend, hi]
  omega

theorem fromUTF8?_toByteArray (text : String) :
    String.fromUTF8? ⟨text.toByteArray.data.toList.toArray⟩ = some text := by
  simp [String.fromUTF8?, String.fromUTF8, text.isValidUTF8]

theorem Scalar.read_write (s : Scalar) {value : s.Carrier}
    (h : (s.write value).length < lengthLimit) (rest : Bytes) :
    s.read s.wireType (s.write value ++ rest) = .ok (value, rest) := by
  have hword : ∀ n : UInt64, n.toNat < lengthLimit := fun n => n.toNat_lt
  cases s with
  | string =>
      have hlength := length_writeDelimited value.toByteArray.data.toList
      have hread := readDelimited_writeDelimited (Nat.lt_trans hlength h) rest
      simp only [read, expectWireType, write, if_true, hread, fromUTF8?_toByteArray]
  | bytes =>
      have hread := readDelimited_writeDelimited (Nat.lt_trans (length_writeDelimited value) h) rest
      simpa only [read, expectWireType, write, if_true] using hread
  | bool =>
      have hread := readNumber_writeVarint (n := value.toNat)
        (by cases value <;> decide) rest
      simp only [read, expectWireType, write, if_true, hread, Except.map]
      cases value <;> rfl
  | int64 =>
      simp only [read, expectWireType, write, if_true, Except.map,
        readNumber_writeVarint (hword value.toUInt64)]
      simp
  | uint64 =>
      simp only [read, expectWireType, write, if_true, Except.map,
        readNumber_writeVarint (hword value)]
      simp
  | double => simpa only [read, expectWireType, write, if_true] using readFixed64_writeFixed64 value rest
  | enum =>
      simp only [read, expectWireType, write, if_true, Except.map,
        readNumber_writeVarint (hword value.toInt64.toUInt64), UInt64.ofNat_toNat,
        toInt32_toInt64]

end Wire

end PluginKit
