import PluginKit.Yaml.Value

/-!
# Decimals read back

The decimal digits of a number are read as that number, as a word of 64 bits and as a plain scalar.
-/

namespace PluginKit

namespace Decimal

theorem digitValue?_of_isDigit {c : Char} (h : c.isDigit = true) :
    digitValue? 10 c = some (c.toNat - '0'.toNat) := by
  obtain ⟨hlow, hhigh⟩ := Char.isDigit_iff_toNat.mp h
  have hrange : '0' ≤ c ∧ c ≤ '9' := ⟨hlow, hhigh⟩
  have hlt : c.toNat - '0'.toNat < 10 := by
    have h9 : '9'.toNat = 57 := rfl
    have h0 : '0'.toNat = 48 := rfl
    omega
  simp only [digitValue?, hrange, and_self, if_true, Option.filter_some, hlt, decide_true]

/-- What has been read never exceeds the number that is read in the end. -/
theorem le_ofDigitChars (digits : List Char) (value : Nat) :
    value ≤ Nat.ofDigitChars 10 digits value := by
  induction digits generalizing value with
  | nil => exact Nat.le_refl value
  | cons c rest ih =>
      rw [Nat.ofDigitChars_cons]
      exact Nat.le_trans (by omega) (ih _)

theorem readDigitsFrom_eq {limit value : Nat} {digits : List Char}
    (hdigits : ∀ c ∈ digits, c.isDigit = true) (h : Nat.ofDigitChars 10 digits value < limit) :
    readDigitsFrom 10 limit value digits = .ok (Nat.ofDigitChars 10 digits value) := by
  induction digits generalizing value with
  | nil => rfl
  | cons c rest ih =>
      rw [Nat.ofDigitChars_cons] at h ⊢
      have hlt : 10 * value + (c.toNat - '0'.toNat) < limit :=
        Nat.lt_of_le_of_lt (le_ofDigitChars rest _) h
      simp only [readDigitsFrom, digitValue?_of_isDigit (hdigits c List.mem_cons_self), hlt, if_true]
      exact ih (fun d hd => hdigits d (List.mem_cons_of_mem c hd)) h

theorem isDigit_of_mem_toDigits {n : Nat} {c : Char} (hc : c ∈ Nat.toDigits 10 n) :
    c.isDigit = true :=
  Nat.isDigit_of_mem_toDigits (by decide) (by decide) hc

theorem readDigits_toDigits {n limit : Nat} (h : n < limit) :
    readDigits 10 limit (Nat.toDigits 10 n) = .ok n := by
  have hvalue : Nat.ofDigitChars 10 (Nat.toDigits 10 n) 0 = n := Nat.ofDigitChars_ten_toDigits
  rw [readDigits, if_neg (by simp [Nat.toDigits_ne_nil]),
    readDigitsFrom_eq (fun c hc => isDigit_of_mem_toDigits hc) (by rwa [hvalue]), hvalue]

/-- The digits of a number start with a digit, which is a zero only for zero. -/
theorem toDigits_cases (n : Nat) :
    ∃ c rest, Nat.toDigits 10 n = c :: rest ∧ c.isDigit = true ∧ (c = '0' → n = 0) := by
  induction n using Nat.strongRecOn with
  | ind n ih =>
      rcases Nat.lt_or_ge n 10 with hn | hn
      · have hzero : ∀ m < 10, m.digitChar = '0' → m = 0 := by decide
        exact ⟨_, [], Nat.toDigits_of_lt_base hn, by simp [hn], hzero n hn⟩
      · obtain ⟨c, rest, hdigits, hc, hzero⟩ := ih (n / 10) (by omega)
        refine ⟨c, rest ++ [(n % 10).digitChar], ?_, hc, fun h => ?_⟩
        · rw [Nat.toDigits_of_base_le (by decide) hn, hdigits]
          rfl
        · have := hzero h
          omega

theorem readUInt64_toDigits {n : Nat} (h : n < wordCount 64) :
    readUInt64 (Nat.toDigits 10 n) = .ok n := by
  obtain ⟨c, rest, hdigits, hc, -⟩ := toDigits_cases n
  have hplus : c ≠ '+' := by
    rintro rfl
    contradiction
  rw [← readDigits_toDigits h, hdigits]
  simp [readUInt64, hplus]

end Decimal

namespace Yaml

namespace Value

open Decimal (toDigits_cases isDigit_of_mem_toDigits readDigits_toDigits wordCount)

theorem statedBase?_of_isDigit {chars : List Char} (h : ∀ c ∈ chars, c.isDigit = true) :
    statedBase? chars = none := by
  unfold statedBase?
  split
  · exact absurd (h 'x' (by simp)) (by decide)
  · exact absurd (h 'o' (by simp)) (by decide)
  · exact absurd (h 'b' (by simp)) (by decide)
  · rfl

theorem isPadded_toDigits (n : Nat) : isPadded (Nat.toDigits 10 n) = false := by
  obtain ⟨c, rest, hdigits, hc, hzero⟩ := toDigits_cases n
  have hsign : (c == '+' || c == '-') = false := by
    simp only [Bool.or_eq_false_iff, beq_eq_false_iff_ne]
    exact ⟨by rintro rfl; contradiction, by rintro rfl; contradiction⟩
  have hdrop : (Nat.toDigits 10 n).dropWhile (fun c => c == '+' || c == '-') = Nat.toDigits 10 n := by
    rw [hdigits, List.dropWhile_cons_of_neg (by simp [hsign])]
  unfold isPadded
  rw [hdrop]
  split
  next rest' hcons =>
    have hn : n = 0 := hzero (by simpa [hdigits] using congrArg List.head? hcons)
    subst hn
    obtain rfl : rest' = [] := (List.cons.inj hcons).2.symm
    rfl
  next => rfl

theorem readNatural?_toDigits {n limit : Nat} (h : n < limit) :
    readNatural? limit (Nat.toDigits 10 n) = some n := by
  obtain ⟨c, rest, hdigits, hc, -⟩ := toDigits_cases n
  have hplus : c ≠ '+' := by
    rintro rfl
    contradiction
  have hmagnitude : readMagnitude? limit (Nat.toDigits 10 n) = some n := by
    rw [readMagnitude?, statedBase?_of_isDigit fun c hc => isDigit_of_mem_toDigits hc]
    simp [isPadded_toDigits, readDigits_toDigits h, Except.toOption]
  rw [← hmagnitude, hdigits]
  simp [readNatural?, hplus]

/-- A text that starts with a digit is no word for nothing or for a truth value. -/
theorem not_mem_of_isDigit {c : Char} (hc : c.isDigit = true) (rest : List Char) {words : List String}
    (h : ∀ w ∈ words, (w.toList.headD ' ').isDigit = false) : String.ofList (c :: rest) ∉ words := by
  intro hmem
  have hnot := h _ hmem
  rw [String.toList_ofList, List.headD_cons, hc] at hnot
  contradiction

theorem ofPlain_toDigits {n : Nat} (h : n < wordCount 64) :
    ofPlain (String.ofList (Nat.toDigits 10 n)) = natural n := by
  have hnatural := readNatural?_toDigits h
  obtain ⟨c, rest, hdigits, hc, -⟩ := toDigits_cases n
  rw [hdigits] at hnatural ⊢
  have hnull : String.ofList (c :: rest) ∉ ["null", "Null", "NULL", "~"] :=
    not_mem_of_isDigit hc rest (by decide)
  have htrue : String.ofList (c :: rest) ∉ ["true", "True", "TRUE"] :=
    not_mem_of_isDigit hc rest (by decide)
  have hfalse : String.ofList (c :: rest) ∉ ["false", "False", "FALSE"] :=
    not_mem_of_isDigit hc rest (by decide)
  have hint : readInt? (String.ofList (c :: rest)) = some (natural n) := by
    simp [readInt?, String.toList_ofList, hnatural]
  simp only [ofPlain, readNull?, readBool?, hint, List.contains_iff_mem, hnull, htrue, hfalse]
  simp

end Value

end Yaml

end PluginKit
