import PluginKit.Yaml.Token.Plain
import PluginKit.Yaml.Token.Quoted

/-!
# Scalars on one line

A word without quotes, and a text between double quotes that needs no escapes, are read as they are written.
-/

namespace PluginKit

namespace Yaml

def isWordChar (c : Char) : Bool :=
  isNameChar c || c == '.'

def opensWord (c : Char) : Bool :=
  c.isAlphanum || c == '_'

/-- Whether a text is a word, which means itself where a scalar may stand. -/
def isWord : List Char → Bool
  | [] => false
  | c :: rest => opensWord c && rest.all isWordChar

/-- Whether a text may hold a character, and keeps it on its line. -/
def isInline (c : Char) : Bool :=
  isPermitted c && !isBreak c && c != '\r' && c != '\u0085'

/-- Whether a character stands for itself between double quotes. -/
def isQuotable (c : Char) : Bool :=
  isInline c && c != '"' && c != '\\'

/-! ## Characters of words -/

theorem isWordChar_of_opensWord {c : Char} (h : opensWord c = true) : isWordChar c = true := by
  simp only [opensWord, Bool.or_eq_true] at h
  rcases h with h | h <;> simp [isWordChar, isNameChar, h]

theorem isWord_cases {word : List Char} (h : isWord word = true) :
    ∃ c rest, word = c :: rest ∧ opensWord c = true ∧ ∀ d ∈ rest, isWordChar d = true := by
  match word, h with
  | c :: rest, h =>
      simp only [isWord, Bool.and_eq_true, List.all_eq_true] at h
      exact ⟨c, rest, rfl, h⟩

theorem isWordChar_of_mem {word : List Char} (h : isWord word = true) {c : Char} (hc : c ∈ word) :
    isWordChar c = true := by
  obtain ⟨d, rest, rfl, hd, hrest⟩ := isWord_cases h
  rcases List.mem_cons.mp hc with rfl | hc
  · exact isWordChar_of_opensWord hd
  · exact hrest c hc

theorem isWord_ne_nil {word : List Char} (h : isWord word = true) : word ≠ [] := by
  rintro rfl
  contradiction

/-- A character of a word differs from each that no word has. -/
theorem ne_of_isWordChar {c d : Char} (hc : isWordChar c = true) (hd : isWordChar d = false) :
    c ≠ d := by
  rintro rfl
  rw [hc] at hd
  contradiction

/-- The first character of a word is none of those that open no word. -/
theorem not_mem_of_opensWord {c : Char} {chars : List Char} (hc : opensWord c = true)
    (h : chars.all (fun d => !opensWord d) = true) : c ∉ chars := by
  intro hmem
  have hnot : (!opensWord c) = true := List.all_eq_true.mp h c hmem
  rw [hc] at hnot
  contradiction

theorem ne_of_opensWord {c d : Char} (hc : opensWord c = true) (hd : opensWord d = false) :
    c ≠ d := by
  rintro rfl
  rw [hc] at hd
  contradiction

theorem isGap_of_isWordChar {c : Char} (h : isWordChar c = true) : isGap c = false := by
  simp only [isGap, Bool.or_eq_false_iff, beq_eq_false_iff_ne]
  exact ⟨ne_of_isWordChar h (by decide), ne_of_isWordChar h (by decide)⟩

theorem isBreak_of_isWordChar {c : Char} (h : isWordChar c = true) : isBreak c = false := by
  simp only [isBreak, Bool.or_eq_false_iff, beq_eq_false_iff_ne]
  exact ⟨⟨ne_of_isWordChar h (by decide), ne_of_isWordChar h (by decide)⟩,
    ne_of_isWordChar h (by decide)⟩

theorem toNat_of_isAlphanum {c : Char} (h : c.isAlphanum = true) : 0x30 ≤ c.toNat ∧ c.toNat ≤ 0x7A := by
  have hranges : (decide ('A'.val ≤ c.val ∧ c.val ≤ 'Z'.val) ||
      (decide ('a'.val ≤ c.val) && decide (c.val ≤ 'z'.val)) ||
        (decide ('0'.val ≤ c.val) && decide (c.val ≤ '9'.val))) = true := h
  simp only [Bool.or_eq_true, Bool.and_eq_true, decide_eq_true_eq, UInt32.le_iff_toNat_le] at hranges
  have hval : c.val.toNat = c.toNat := rfl
  rcases hranges with (⟨hlow, hhigh⟩ | ⟨hlow, hhigh⟩) | ⟨hlow, hhigh⟩ <;>
    simp at hlow hhigh <;> omega

/-- A character of a word is a letter or a digit, or one of three others. -/
theorem isWordChar_cases {c : Char} (h : isWordChar c = true) :
    (0x30 ≤ c.toNat ∧ c.toNat ≤ 0x7A) ∨ c = '-' ∨ c = '_' ∨ c = '.' := by
  simp only [isWordChar, isNameChar, Bool.or_eq_true, beq_iff_eq] at h
  rcases h with ((h | h) | h) | h
  · exact .inl (toNat_of_isAlphanum h)
  · exact .inr (.inl h)
  · exact .inr (.inr (.inl h))
  · exact .inr (.inr (.inr h))

theorem isInline_of_isWordChar {c : Char} (h : isWordChar c = true) : isInline c = true := by
  have hbreak : isBreak c = false := isBreak_of_isWordChar h
  have hreturn : c ≠ '\r' := ne_of_isWordChar h (by decide)
  have hnext : c ≠ '\u0085' := ne_of_isWordChar h (by decide)
  have hpermitted : isPermitted c = true := by
    rcases isWordChar_cases h with ⟨hlow, hhigh⟩ | rfl | rfl | rfl
    · have hprintable : 0x20 ≤ c.toNat ∧ c.toNat ≤ 0x7E := by omega
      simp [isPermitted, hprintable]
    all_goals decide
  simp [isInline, hbreak, hreturn, hnext, hpermitted]

/-! ## Words as plain scalars -/

theorem Mark.after_of_not_isBreak {c : Char} (m : Mark) (h : isBreak c = false) :
    m.after c = ⟨m.line, m.column + 1⟩ := by
  simp [Mark.after, h]

namespace PlainScalar

variable {s : Setting}

theorem readFrom_cons (hs : s.inFlow = false) {c : Char} (hc : isWordChar c = true)
    (text : List Char) (stop m : Mark) (rest : List Char) :
    readFrom s text {} stop m (c :: rest) =
      readFrom s (c :: text) {} ⟨m.line, m.column + 1⟩ ⟨m.line, m.column + 1⟩ rest := by
  have hgap : isGap c = false := isGap_of_isWordChar hc
  have hbreak : isBreak c = false := isBreak_of_isWordChar hc
  have hcolon : c ≠ ':' := ne_of_isWordChar hc (by decide)
  have hend : endsAt s c rest = false := by simp [endsAt, hs, hcolon]
  rw [readFrom]
  simp [hgap, hbreak, hs, hend, Mark.after]

theorem readFrom_append (hs : s.inFlow = false) {run : List Char}
    (h : ∀ c ∈ run, isWordChar c = true) (text : List Char) (m : Mark) (rest : List Char) :
    readFrom s text {} m m (run ++ rest) =
      readFrom s (run.reverse ++ text) {} ⟨m.line, m.column + run.length⟩
        ⟨m.line, m.column + run.length⟩ rest := by
  induction run generalizing text m with
  | nil => rfl
  | cons c run ih =>
      have hrun : ∀ d ∈ run, isWordChar d = true := fun d hd => h d (List.mem_cons_of_mem c hd)
      rw [List.cons_append, readFrom_cons hs (h c List.mem_cons_self), ih hrun]
      simp [Nat.add_assoc, Nat.add_comm 1]

theorem readFrom_colon (hs : s.inFlow = false) (text : List Char) (m : Mark) (rest : List Char) :
    readFrom s text {} m m (':' :: ' ' :: rest) =
      .ok ⟨text.reverse, m, false, ⟨':' :: ' ' :: rest, m⟩⟩ := by
  have hend : endsAt s ':' (' ' :: rest) = true := by
    simp [endsAt, first, endsWord, isGap]
  rw [readFrom]
  simp [hs, hend, show isGap ':' = false by decide, show isBreak ':' = false by decide, first,
    show isFlowIndicator ' ' = false by decide]

theorem readFrom_newline (text : List Char) (m : Mark) (rest : List Char) :
    readFrom s text {} m m ('\n' :: rest) =
      readFrom s text { broken := true, firstBreak := some '\n' } m ⟨m.line + 1, 0⟩ rest := by
  have hafter : m.after '\n' = ⟨m.line + 1, 0⟩ := rfl
  rw [readFrom]
  simp [show isGap '\n' = false by decide, show isBreak '\n' = true by decide, Gap.addBreak, hafter]

/-- A scalar ends at a line that is not indented as deep as it has to be. -/
theorem readFrom_break (hs : s.inFlow = false) (hindent : 0 < s.indent) {c : Char}
    (hc : isWordChar c = true) (text : List Char) (m : Mark) (rest : List Char) :
    readFrom s text {} m m ('\n' :: c :: rest) =
      .ok ⟨text.reverse, m, true, ⟨c :: rest, ⟨m.line + 1, 0⟩⟩⟩ := by
  have hgap : isGap c = false := isGap_of_isWordChar hc
  have hbreak : isBreak c = false := isBreak_of_isWordChar hc
  have hend : endsBehindGap s ⟨m.line + 1, 0⟩ c rest = true := by
    simp [endsBehindGap, hs, hindent]
  rw [readFrom_newline, readFrom]
  simp [hgap, hbreak, hend]

/-- A word in front of a colon and a space is read as it is. -/
theorem read_key {word : List Char} (h : isWord word = true) (m : Mark) (indent : Int)
    (rest : List Char) :
    read ⟨word ++ ':' :: ' ' :: rest, m⟩ indent false =
      .ok ⟨word, ⟨m.line, m.column + word.length⟩, false,
        ⟨':' :: ' ' :: rest, ⟨m.line, m.column + word.length⟩⟩⟩ := by
  rw [read, readFrom_append rfl fun c hc => isWordChar_of_mem h hc, readFrom_colon rfl]
  simp

end PlainScalar

/-- What may follow a line: nothing, or a line break and, unless the text ends there, a line that starts
with a word; `next` is that line and what follows it. -/
inductive Follows : List Char → List Char → Prop where
  | nothing : Follows [] []
  | lastBreak : Follows ['\n'] []
  | line {c : Char} (rest : List Char) : opensWord c = true → Follows ('\n' :: c :: rest) (c :: rest)

namespace PlainScalar

/-- A word at the end of a line of a block mapping is read as it is. Where a line follows, it is read up to
the start of that line. -/
theorem read_value {word tail next : List Char} (h : isWord word = true) (ht : Follows tail next)
    (m : Mark) {indent : Int} (hindent : 0 < indent) :
    ∃ result, read ⟨word ++ tail, m⟩ indent false = .ok result ∧ result.text = word ∧
      result.broken = !tail.isEmpty ∧ result.left.rest = next ∧
        (tail ≠ [] → result.left.mark.column = 0) := by
  rw [read, readFrom_append rfl fun c hc => isWordChar_of_mem h hc, List.append_nil]
  cases ht with
  | nothing => exact ⟨_, by rw [readFrom], by simp⟩
  | lastBreak => exact ⟨_, by rw [readFrom_newline, readFrom], by simp⟩
  | line rest hc =>
      exact ⟨_, readFrom_break rfl hindent (isWordChar_of_opensWord hc) _ _ _, by simp⟩

end PlainScalar

/-! ## Texts between double quotes -/

namespace QuotedScalar

/-- The rest of a text without escapes is read up to its quote; `blanks` have been read since the last
character that is no blank. -/
theorem readFrom_quotable {content : List Char} (h : ∀ c ∈ content, isQuotable c = true) (start : Mark)
    (text blanks : List Char) {m : Mark} (hm : 0 < m.column) (rest : List Char) :
    readFrom '"' start text (.words { blanks := blanks }) m (content ++ '"' :: rest) =
      .ok ((blanks ++ text).reverse ++ content,
        ⟨rest, ⟨m.line, m.column + content.length + 1⟩⟩) := by
  induction content generalizing text blanks m with
  | nil =>
      rw [List.nil_append, readFrom]
      simp [show isGap '"' = false by decide, show isBreak '"' = false by decide,
        Nat.ne_of_gt hm, Gap.folded, Mark.after]
  | cons c content ih =>
      have hc : isQuotable c = true := h c List.mem_cons_self
      have hcontent : ∀ d ∈ content, isQuotable d = true :=
        fun d hd => h d (List.mem_cons_of_mem c hd)
      simp only [isQuotable, isInline, Bool.and_eq_true, Bool.not_eq_true', bne_iff_ne, ne_eq] at hc
      obtain ⟨⟨⟨⟨⟨-, hbreak⟩, -⟩, -⟩, hquote⟩, hslash⟩ := hc
      have hafter : m.after c = ⟨m.line, m.column + 1⟩ := Mark.after_of_not_isBreak m hbreak
      rw [List.cons_append, readFrom]
      cases hgap : isGap c with
      | true =>
          simp only [if_true, Gap.addBlank, hafter]
          rw [if_neg Bool.false_ne_true, ih hcontent text (c :: blanks) (Nat.succ_pos _)]
          simp [Nat.add_comm 1, Nat.add_assoc]
      | false =>
          simp only [hbreak, hquote, hslash, hafter, Nat.ne_of_gt hm, Gap.folded, false_and, and_false,
            if_false, Bool.false_eq_true]
          rw [ih hcontent (c :: (blanks ++ text)) [] (Nat.succ_pos _)]
          simp [Nat.add_comm 1, Nat.add_assoc]

/-- A text without escapes between double quotes is read as it is. -/
theorem read_quotable {content : List Char} (h : ∀ c ∈ content, isQuotable c = true) (m : Mark)
    (rest : List Char) :
    read ⟨'"' :: (content ++ '"' :: rest), m⟩ =
      .ok (content, ⟨rest, ⟨m.line, m.column + content.length + 2⟩⟩) := by
  have hafter : m.after '"' = ⟨m.line, m.column + 1⟩ := rfl
  simp only [read, Cursor.peek, Cursor.next, first, List.headD_cons, hafter]
  rw [show (Mode.words {}) = .words { blanks := [] } from rfl,
    readFrom_quotable h _ _ _ (Nat.succ_pos _)]
  simp [Nat.add_comm 1, Nat.add_assoc]

end QuotedScalar

end Yaml

end PluginKit
