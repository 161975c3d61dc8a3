import PluginKit.Config.Settings
import PluginKit.Proofs.Decimal
import PluginKit.Proofs.Yaml.Mapping

/-!
# Settings written line by line

Each line spells a value for a key, or gives another key a value that no setting has. A text of such lines
is a mapping with one entry a line.
-/

namespace PluginKit

namespace Text

theorem trim_of_blank {text : List Char} (h : ∀ c ∈ text, isBlank c = true) : trim text = [] := by
  have hstart := trimStart_append_of_blank [] h
  rw [List.append_nil] at hstart
  rw [trim, hstart]
  rfl

theorem trim_ne_nil {c : Char} (h : isBlank c = false) (rest : List Char) : trim (c :: rest) ≠ [] := by
  rw [trim, trimStart_eq_self h, trimEnd, List.reverse_cons, List.dropWhile_append]
  split <;> simp [h]

/-- Trimming takes the blanks around a text that starts and ends with no blank. -/
theorem trim_padded {before text after : List Char} (hbefore : ∀ c ∈ before, isBlank c = true)
    (hafter : ∀ c ∈ after, isBlank c = true) (htext : text ≠ [])
    (hplain : ∀ c ∈ text, isBlank c = false) : trim (before ++ (text ++ after)) = text := by
  have hstart : trimStart (before ++ (text ++ after)) = text ++ after := by
    rw [trimStart_append_of_blank _ hbefore]
    obtain ⟨c, rest, rfl⟩ := List.exists_cons_of_ne_nil htext
    exact trimStart_eq_self (hplain c List.mem_cons_self)
  have hend : trimStart (after.reverse ++ text.reverse) = text.reverse := by
    rw [trimStart_append_of_blank _ fun c hc => hafter c (List.mem_reverse.mp hc)]
    obtain ⟨c, rest, hreverse⟩ := List.exists_cons_of_ne_nil (mt List.reverse_eq_nil_iff.mp htext)
    have hc : c ∈ text := List.mem_reverse.mp (hreverse ▸ List.mem_cons_self)
    rw [hreverse]
    exact trimStart_eq_self (hplain c hc)
  calc trim (before ++ (text ++ after)) = (trimStart (text ++ after).reverse).reverse := by
        rw [trim, hstart]
        rfl
    _ = text := by rw [List.reverse_append, hend, List.reverse_reverse]

end Text

namespace Config

theorem isBlank_of_isWordChar {c : Char} (h : Yaml.isWordChar c = true) : Text.isBlank c = false := by
  rcases Yaml.isWordChar_cases h with ⟨hlow, hhigh⟩ | rfl | rfl | rfl
  · simp only [Text.isBlank, Bool.or_eq_false_iff, Bool.and_eq_false_iff, decide_eq_false_iff_not,
      beq_eq_false_iff_ne]
    omega
  all_goals decide

/-- Whether a character may pad a number between double quotes: a blank that stays on its line. -/
def isPadding (c : Char) : Bool :=
  Text.isBlank c && Yaml.isInline c

/-- How a time is written: plainly, or between double quotes with blanks around it. -/
inductive Spelling where
  | plain
  | quoted (before after : String) (blank : ∀ c ∈ before.toList ++ after.toList, isPadding c = true)

def Spelling.write (digits : String) : Spelling → String
  | plain => digits
  | quoted before after _ => "\"" ++ before ++ digits ++ after ++ "\""

/-- A line of settings: a time of at most 64 bits, the crash threshold of at most 32, or a word for a
key that is none of the settings' own. -/
inductive Line where
  | time (key : Key) (isTime : key ≠ .crashThreshold) (value : UInt64) (spelling : Spelling)
  | threshold (value : UInt32)
  | other (name value : String) (unknown : Key.ofText? name = none)
      (nameIsWord : Yaml.isWord name.toList = true) (nameIsShort : name.length ≤ Yaml.keyLimit)
      (valueIsWord : Yaml.isWord value.toList = true)

namespace Line

def text : Line → String
  | time key _ value spelling => key.text ++ ": " ++ spelling.write (toString value.toNat)
  | threshold value => Key.crashThreshold.text ++ ": " ++ toString value.toNat
  | other name value _ _ _ _ => name ++ ": " ++ value

def given? : Line → Option (Key × Nat)
  | time key _ value _ => some (key, value.toNat)
  | threshold value => some (.crashThreshold, value.toNat)
  | other _ _ _ _ _ _ => none

end Line

/-- The text of lines; the last one ends with a line break if `closed`. -/
def render (closed : Bool) (lines : List Line) : String :=
  "\n".intercalate (lines.map Line.text) ++ (if closed then "\n" else "")

def given (lines : List Line) : List (Key × Nat) :=
  lines.filterMap Line.given?

/-! ## Lines as entries of a mapping -/

open Yaml (isWord isWordChar isQuotable InlineScalar Entry keyLimit)

theorem isWordChar_of_isDigit {c : Char} (h : c.isDigit = true) : isWordChar c = true := by
  simp [isWordChar, Yaml.isNameChar, Char.isAlphanum, h]

theorem isWord_toDigits (n : Nat) : isWord (Nat.toDigits 10 n) = true := by
  obtain ⟨c, rest, hdigits, hc, -⟩ := Decimal.toDigits_cases n
  have hrest : ∀ d ∈ rest, isWordChar d = true := by
    intro d hd
    have hmem : d ∈ Nat.toDigits 10 n := hdigits ▸ List.mem_cons_of_mem c hd
    exact isWordChar_of_isDigit (Decimal.isDigit_of_mem_toDigits hmem)
  have hopens : Yaml.opensWord c = true := by
    simp [Yaml.opensWord, Char.isAlphanum, hc]
  simpa [hdigits, isWord, hopens] using hrest

theorem isQuotable_of_isPadding {c : Char} (h : isPadding c = true) : isQuotable c = true := by
  simp only [isPadding, Bool.and_eq_true] at h
  have hquote : c ≠ '"' := by
    rintro rfl
    exact absurd h.1 (by decide)
  have hslash : c ≠ '\\' := by
    rintro rfl
    exact absurd h.1 (by decide)
  simp [isQuotable, h.2, hquote, hslash]

theorem isQuotable_of_isWordChar {c : Char} (h : isWordChar c = true) : isQuotable c = true := by
  have hquote : c ≠ '"' := Yaml.ne_of_isWordChar h (by decide)
  have hslash : c ≠ '\\' := Yaml.ne_of_isWordChar h (by decide)
  simp [isQuotable, Yaml.isInline_of_isWordChar h, hquote, hslash]

/-- The text of a scalar between double quotes that spells a number. -/
def padded (before after : String) (n : Nat) : List Char :=
  before.toList ++ (Nat.toDigits 10 n ++ after.toList)

theorem isQuotable_of_mem_padded {before after : String}
    (blank : ∀ c ∈ before.toList ++ after.toList, isPadding c = true) (n : Nat) :
    ∀ c ∈ padded before after n, isQuotable c = true := by
  intro c hc
  simp only [padded, List.mem_append] at hc
  rcases hc with hc | hc | hc
  · exact isQuotable_of_isPadding (blank c (List.mem_append_left _ hc))
  · exact isQuotable_of_isWordChar (Yaml.isWordChar_of_mem (isWord_toDigits n) hc)
  · exact isQuotable_of_isPadding (blank c (List.mem_append_right _ hc))

def Spelling.scalar (n : Nat) : Spelling → InlineScalar
  | plain => .word (Nat.toDigits 10 n) (isWord_toDigits n)
  | quoted before after blank => .quoted (padded before after n) (isQuotable_of_mem_padded blank n)

theorem Key.isWord_text (key : Key) : isWord key.text.toList = true := by
  cases key <;> decide

theorem Key.length_text (key : Key) : key.text.toList.length ≤ keyLimit := by
  cases key <;> decide

namespace Line

def entry : Line → Entry
  | time key _ value spelling =>
      ⟨key.text.toList, spelling.scalar value.toNat, key.isWord_text, key.length_text⟩
  | threshold value =>
      ⟨Key.crashThreshold.text.toList, Spelling.plain.scalar value.toNat, Key.isWord_text _,
        Key.length_text _⟩
  | other name value _ nameIsWord nameIsShort valueIsWord =>
      ⟨name.toList, .word value.toList valueIsWord, nameIsWord, by rwa [String.length_toList]⟩

theorem source_scalar (spelling : Spelling) (n : Nat) :
    (spelling.scalar n).source = (spelling.write (toString n)).toList := by
  cases spelling <;>
    simp [Spelling.scalar, Spelling.write, InlineScalar.source, padded, String.toList_append,
      Nat.toString_eq_repr, Nat.toList_repr]

theorem line_entry (l : Line) : l.entry.line = l.text.toList := by
  cases l with
  | time key isTime value spelling =>
      simp [entry, Entry.line, text, source_scalar, String.toList_append]
  | threshold value =>
      simp [entry, Entry.line, text, source_scalar, Spelling.write, String.toList_append]
  | other name value unknown nameIsWord nameIsShort valueIsWord =>
      simp [entry, Entry.line, text, InlineScalar.source, String.toList_append]

end Line

theorem lines_eq_intercalate (closed : Bool) (e : Entry) (rest : List Entry) :
    Entry.lines closed (e :: rest) =
      ['\n'].intercalate ((e :: rest).map Entry.line) ++ (if closed then ['\n'] else []) := by
  induction rest generalizing e with
  | nil => simp [Entry.lines, Entry.behind, List.intercalate]
  | cons e' rest ih =>
      have hlines : Entry.lines closed (e :: e' :: rest) =
          e.line ++ '\n' :: Entry.lines closed (e' :: rest) := rfl
      rw [hlines, ih]
      simp [List.intercalate_cons_cons]

theorem render_eq_lines (closed : Bool) (l : Line) (rest : List Line) :
    render closed (l :: rest) =
      String.ofList (Entry.lines closed ((l :: rest).map Line.entry)) := by
  have hmap : ((l :: rest).map Line.entry).map Entry.line =
      ((l :: rest).map Line.text).map String.toList := by
    simp [Line.line_entry]
  rw [← String.ofList_toList (s := render closed (l :: rest)), List.map_cons, lines_eq_intercalate,
    ← List.map_cons, hmap, render, String.toList_append, String.toList_intercalate]
  cases closed <;> rfl

end Config

end PluginKit
