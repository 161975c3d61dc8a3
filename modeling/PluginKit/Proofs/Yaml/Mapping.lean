import PluginKit.Proofs.Yaml.Reader

/-!
# Mappings with one entry a line

A text of lines, each a word, a colon and a scalar, is one block mapping; its tokens are those of its
entries in their order.
-/

namespace PluginKit

namespace Yaml

/-- A scalar that stands on one line and means what is written. -/
inductive InlineScalar where
  | word (text : List Char) (isWord : isWord text = true)
  | quoted (text : List Char) (quotable : ∀ c ∈ text, isQuotable c = true)

namespace InlineScalar

def text : InlineScalar → List Char
  | word text _ => text
  | quoted text _ => text

def style : InlineScalar → ScalarStyle
  | word _ _ => .plain
  | quoted _ _ => .doubleQuoted

def source : InlineScalar → List Char
  | word text _ => text
  | quoted text _ => '"' :: (text ++ ['"'])

end InlineScalar

/-- The longest key that may stand in front of its colon without an indicator. -/
def keyLimit : Nat := 1024

structure Entry where
  key : List Char
  value : InlineScalar
  isWord : isWord key = true
  isShort : key.length ≤ keyLimit

namespace Entry

def line (e : Entry) : List Char :=
  e.key ++ ':' :: ' ' :: e.value.source

/-- What follows a line: the other lines, and at the end a line break if `closed`. -/
def behind (closed : Bool) : List Entry → List Char
  | [] => if closed then ['\n'] else []
  | e :: rest => '\n' :: (e.line ++ behind closed rest)

/-- The lines of entries; the last one ends with a line break if `closed`. -/
def lines (closed : Bool) : List Entry → List Char
  | [] => []
  | e :: rest => e.line ++ behind closed rest

def tokenKinds (e : Entry) : List TokenKind :=
  [.key, .scalar e.key .plain, .value, .scalar e.value.text e.value.style]

theorem lines_cons (closed : Bool) (e : Entry) (rest : List Entry) :
    ∃ c tail, lines closed (e :: rest) = c :: tail ∧ opensWord c = true := by
  obtain ⟨c, tail, hkey, hc, -⟩ := isWord_cases e.isWord
  exact ⟨c, _, by rw [lines, line, hkey]; rfl, hc⟩

theorem follows_behind (closed : Bool) (rest : List Entry) :
    Follows (behind closed rest) (lines closed rest) := by
  cases rest with
  | nil => cases closed <;> constructor
  | cons e rest =>
      obtain ⟨c, tail, hlines, hc⟩ := lines_cons closed e rest
      have hbehind : behind closed (e :: rest) = '\n' :: lines closed (e :: rest) := rfl
      rw [hbehind, hlines]
      exact .line tail hc

end Entry

namespace TokenReader

/-- A state outside of flow collections: in the mapping at column zero if `opened`, else outside of all
collections. -/
structure InMapping (r : TokenReader) (opened : Bool) : Prop where
  flow : r.outerCandidates = []
  going : r.ended = false
  indent : r.indent = if opened then 0 else -1
  outer : r.outerIndents = if opened then [-1] else []

/-- A state in front of a line, with `rest` behind the blanks. -/
structure AtLine (r : TokenReader) (opened : Bool) (rest : List Char) : Prop where
  mapping : r.InMapping opened
  candidate : r.candidate = none
  blanks : ∃ allowed m, skipBlanksFrom false r.keyAllowed false r.cursor.mark r.cursor.rest =
    (allowed, ⟨rest, m⟩) ∧ (rest ≠ [] → allowed = true ∧ m.column = 0)

/-- A state behind a key that its colon follows. -/
structure AtColon (r : TokenReader) (opened : Bool) (rest : List Char) : Prop where
  mapping : r.InMapping opened
  cursor : r.cursor.rest = ':' :: ' ' :: rest
  column : 0 < r.cursor.mark.column
  candidate : ∃ k, r.candidate = some k ∧ k.number = r.delivered ∧ k.mark.column = 0 ∧
    k.isStale r.cursor.mark = false

/-- A state behind the colon of a key. -/
structure AtValue (r : TokenReader) (rest : List Char) : Prop where
  mapping : r.InMapping true
  cursor : r.cursor.rest = ' ' :: rest
  candidate : r.candidate = none
  keyNotAllowed : r.keyAllowed = false

variable {r : TokenReader} {opened : Bool}

theorem InMapping.closes (h : r.InMapping opened) (column : Nat) :
    r.outerIndents = [] ∨ r.indent ≤ column := by
  rw [h.outer, h.indent]
  cases opened <;> simp

/-- The token that opens the mapping stands in front of its first key. -/
def opening (opened : Bool) : List TokenKind :=
  if opened then [] else [.blockMappingStart]

/-! ## The three steps of a line -/

theorem skipBlanksFrom_word {c : Char} (hc : isWordChar c = true) (keyAllowed : Bool) (m : Mark)
    (rest : List Char) :
    skipBlanksFrom false keyAllowed false m (c :: rest) = (keyAllowed, ⟨c :: rest, m⟩) := by
  have hbreak : isBreak c = false := isBreak_of_isWordChar hc
  have hhash : c ≠ '#' := ne_of_isWordChar hc (by decide)
  have hspace : c ≠ ' ' := ne_of_isWordChar hc (by decide)
  have htab : c ≠ '\t' := ne_of_isWordChar hc (by decide)
  simp [skipBlanksFrom, hbreak, hhash, hspace, htab]

/-- Behind a line break the blanks end where the next line starts. -/
theorem skipBlanksFrom_next {tail next : List Char} (ht : Follows tail next) (keyAllowed : Bool)
    (m : Mark) : skipBlanksFrom false keyAllowed false m next = (keyAllowed, ⟨next, m⟩) := by
  cases ht with
  | nothing => rfl
  | lastBreak => rfl
  | line rest hc => exact skipBlanksFrom_word (isWordChar_of_opensWord hc) keyAllowed m rest

/-- The blanks behind a line include its line break, after which a key may start. -/
theorem skipBlanksFrom_behind {tail next : List Char} (ht : Follows tail next) (m : Mark) :
    ∃ allowed m', skipBlanksFrom false false false m tail = (allowed, ⟨next, m'⟩) ∧
      (next ≠ [] → allowed = true ∧ m'.column = 0) := by
  have hbreak : ∀ rest, skipBlanksFrom false false false m ('\n' :: rest) =
      skipBlanksFrom false true false ⟨m.line + 1, 0⟩ rest := fun rest => rfl
  cases ht with
  | nothing => exact ⟨_, _, rfl, by simp⟩
  | lastBreak => exact ⟨_, _, rfl, by simp⟩
  | line rest hc =>
      refine ⟨true, ⟨m.line + 1, 0⟩, ?_, fun _ => ⟨rfl, rfl⟩⟩
      rw [hbreak, skipBlanksFrom_word (isWordChar_of_opensWord hc)]

theorem reads_key {word rest : List Char} (hword : isWord word = true) (hshort : word.length ≤ keyLimit)
    (h : r.AtLine opened (word ++ ':' :: ' ' :: rest)) :
    ∃ r', r.Reads 1 r.heldKinds r' ∧ r'.AtColon opened rest ∧
      r'.heldKinds = [.scalar word .plain] := by
  obtain ⟨hmapping, hcandidate, allowed, m, hskip, hline⟩ := h
  obtain ⟨c, tail, hcons, hc, -⟩ := isWord_cases hword
  have hrest : word ++ ':' :: ' ' :: rest = c :: (tail ++ ':' :: ' ' :: rest) := by simp [hcons]
  obtain ⟨rfl, hcolumn⟩ := hline (by simp)
  have hblanks : r.flushed.skipBlanks = r.flushed.goTo true ⟨word ++ ':' :: ' ' :: rest, m⟩ :=
    skipBlanks_eq hmapping.flow hskip
  have hread : r.flushed.readToken =
      (r.flushed.goTo true ⟨word ++ ':' :: ' ' :: rest, m⟩).readPlainScalar := by
    rw [readToken_eq_readIndicator hblanks
      (dropStale_eq_self hmapping.flow (by simp [flushed, goTo, hcandidate])) (hmapping.closes _) hrest
      fun _ => hc]
    exact readIndicator_word hrest hc hmapping.flow
  have hscalar := readPlainScalar_eq
    (saveCandidate_of_allowed (r := r.flushed.goTo true ⟨word ++ ':' :: ' ' :: rest, m⟩) rfl
      hmapping.flow hcandidate)
    hmapping.flow (PlainScalar.read_key hword m _ rest)
  refine ⟨_, .of_step (deliver_of_settled hcandidate hmapping.flow) hmapping.going
    (hread.trans hscalar), ?_, rfl⟩
  have hlength : 0 < word.length := List.length_pos_iff.mpr (isWord_ne_nil hword)
  refine ⟨⟨hmapping.flow, hmapping.going, hmapping.indent, hmapping.outer⟩, rfl,
    Nat.add_pos_right _ hlength, ⟨_, rfl, rfl, hcolumn, ?_⟩⟩
  -- The candidate is as old as the key is long.
  have hfresh : ¬ m.column + 1024 < m.column + word.length := by
    unfold keyLimit at hshort
    omega
  show (decide (m.line < m.line) || decide (m.column + 1024 < m.column + word.length)) = false
  simp [hfresh]

/-- A key at column zero opens the mapping unless it is open. -/
theorem openBlock_zero (h : r.InMapping opened) (m : Mark) :
    ∃ tokens : List Token, tokens.map Token.kind = opening opened ∧
      r.openBlock 0 (some r.delivered) .blockMappingStart m =
        { r with indent := 0, outerIndents := [-1], held := tokens ++ r.held } := by
  obtain ⟨hflow, -, hindent, houter⟩ := h
  cases opened with
  | true =>
      refine ⟨[], rfl, ?_⟩
      simp only [if_true] at hindent houter
      rw [openBlock, if_pos (.inr (by simp [hindent])), ← hindent, ← houter]
      rfl
  | false =>
      refine ⟨[⟨.blockMappingStart, m, m⟩], rfl, ?_⟩
      simp only [Bool.false_eq_true, if_false] at hindent houter
      rw [openBlock, if_neg (by simp [inFlow_eq_false hflow, hindent]), hindent, houter]
      simp [insert]

/-- The colon puts the key in front of the candidate and, at the first key, the start of the mapping in
front of both. -/
theorem readValue_of_candidate {k : KeyCandidate} {t : Token} (hmapping : r.InMapping opened)
    (hcandidate : r.candidate = some k) (hnumber : k.number = r.delivered)
    (hcolumn : k.mark.column = 0) (hheld : r.held = [t]) :
    ∃ tokens : List Token, tokens.map Token.kind = opening opened ++ [.key, t.kind] ∧
      r.readValue = .ok (({ r with
        indent := 0, outerIndents := [-1], held := tokens, candidate := none }.allowKey false).take
          .value 1) := by
  let key : Token := ⟨.key, k.mark, k.mark⟩
  have hinsert : r.insert r.delivered key = { r with held := [key, t] } := by
    simp [insert, hheld]
  have hkeyed : InMapping { r with held := [key, t] } opened :=
    ⟨hmapping.flow, hmapping.going, hmapping.indent, hmapping.outer⟩
  obtain ⟨tokens, hkinds, hopen⟩ := openBlock_zero hkeyed k.mark
  refine ⟨tokens ++ [key, t], by simp [hkinds, key], ?_⟩
  simp only [readValue, hcandidate, hcolumn, hnumber, key] at hinsert hopen ⊢
  rw [hinsert, hopen]

/-- The colon makes the candidate a key; at the first one the mapping is opened. -/
theorem reads_colon {rest : List Char} (h : r.AtColon opened rest) {kind : TokenKind}
    (hkind : r.heldKinds = [kind]) :
    ∃ r', r.Reads 1 [] r' ∧ r'.AtValue rest ∧ r'.heldKinds = opening opened ++ [.key, kind, .value] := by
  obtain ⟨hmapping, hcursor, hcolumn, ⟨k, hcandidate, hnumber, hzero, hfresh⟩⟩ := h
  obtain ⟨t, hheld, rfl⟩ : ∃ t, r.held = [t] ∧ t.kind = kind := by
    simpa [heldKinds, List.map_eq_singleton_iff] using hkind
  have hskip : skipBlanksFrom false r.keyAllowed false r.cursor.mark r.cursor.rest =
      (r.keyAllowed, r.cursor) := by
    rw [hcursor, skipBlanksFrom]
    simp [isBreak, ← hcursor]
  have hread : r.readToken = r.readValue := by
    rw [readToken_eq_readIndicator (skipBlanks_eq hmapping.flow hskip)
      (dropStale_eq_self hmapping.flow (by simpa [goTo, hcandidate] using hfresh)) (hmapping.closes _)
      hcursor fun h => absurd h (Nat.ne_of_gt hcolumn)]
    exact readIndicator_colon hcursor
  obtain ⟨tokens, hkinds, hvalue⟩ := readValue_of_candidate hmapping hcandidate hnumber hzero hheld
  refine ⟨_, .of_step (deliver_of_candidate hcandidate hmapping.flow hfresh hnumber) hmapping.going
    (hread.trans hvalue), ⟨⟨hmapping.flow, hmapping.going, rfl, rfl⟩, ?_, rfl, rfl⟩, ?_⟩
  · simp [take, allowKey, Cursor.skip, Cursor.next, hcursor]
  · simp [heldKinds, take, hold, allowKey, hkinds]

theorem AtValue.readToken {c : Char} {rest : List Char} (h : r.AtValue (c :: rest))
    (hc : opensWord c = true ∨ c = '"') :
    r.flushed.readToken = (r.flushed.goTo false
      ⟨c :: rest, ⟨r.cursor.mark.line, r.cursor.mark.column + 1⟩⟩).readIndicator := by
  have hword : ∀ m, skipBlanksFrom false false false m (c :: rest) = (false, ⟨c :: rest, m⟩) := by
    intro m
    rcases hc with hc | rfl
    · exact skipBlanksFrom_word (isWordChar_of_opensWord hc) false m rest
    · rfl
  have hskip : skipBlanksFrom false r.keyAllowed false r.cursor.mark r.cursor.rest =
      (false, ⟨c :: rest, ⟨r.cursor.mark.line, r.cursor.mark.column + 1⟩⟩) := by
    rw [h.cursor, h.keyNotAllowed, ← hword]
    rfl
  exact readToken_eq_readIndicator (skipBlanks_eq h.mapping.flow hskip)
    (dropStale_eq_self h.mapping.flow (by simp [flushed, goTo, h.candidate])) (h.mapping.closes _) rfl
    fun h => absurd h (Nat.succ_ne_zero _)

theorem reads_value (value : InlineScalar) {tail next : List Char} (ht : Follows tail next)
    (h : r.AtValue (value.source ++ tail)) :
    ∃ r', r.Reads 1 r.heldKinds r' ∧ r'.AtLine true next ∧
      r'.heldKinds = [.scalar value.text value.style] := by
  have hmapping := h.mapping
  have hdeliver := deliver_of_settled h.candidate hmapping.flow
  cases value with
  | word text hword =>
      obtain ⟨c, rest, rfl, hc, -⟩ := isWord_cases hword
      obtain ⟨scalar, hscalar, htext, hbroken, hleft, hcolumn⟩ := PlainScalar.read_value hword ht
        ⟨r.cursor.mark.line, r.cursor.mark.column + 1⟩
        (show 0 < r.indent + 1 by rw [hmapping.indent]; decide)
      have hread := ((h.readToken (.inl hc)).trans (readIndicator_word rfl hc hmapping.flow)).trans
        (readPlainScalar_eq (saveCandidate_of_not_allowed rfl) hmapping.flow hscalar)
      refine ⟨_, .of_step hdeliver hmapping.going hread,
        ⟨⟨hmapping.flow, hmapping.going, hmapping.indent, hmapping.outer⟩, h.candidate,
          scalar.broken, scalar.left.mark, ?_, fun hnext => ?_⟩,
        congrArg (fun text => [TokenKind.scalar text .plain]) htext⟩
      · rw [← skipBlanksFrom_next ht, ← hleft]
        rfl
      · -- A next line follows only behind a line break.
        have htail : tail ≠ [] := by
          rintro rfl
          cases ht
          contradiction
        exact ⟨by simp [hbroken, htail], hcolumn htail⟩
  | quoted text hquotable =>
      have hsource : (InlineScalar.quoted text hquotable).source ++ tail =
          '"' :: (text ++ '"' :: tail) := by
        simp [InlineScalar.source]
      rw [hsource] at h
      have hread := ((h.readToken (.inr rfl)).trans (readIndicator_quote rfl)).trans
        (readQuotedScalar_eq (saveCandidate_of_not_allowed rfl)
          (QuotedScalar.read_quotable hquotable _ tail))
      exact ⟨_, .of_step hdeliver hmapping.going hread,
        ⟨⟨hmapping.flow, hmapping.going, hmapping.indent, hmapping.outer⟩, h.candidate,
          skipBlanksFrom_behind ht _⟩, rfl⟩

/-! ## All lines -/

/-- A line is read in three steps. -/
theorem reads_entry (e : Entry) {tail next : List Char} (ht : Follows tail next)
    (h : r.AtLine opened (e.line ++ tail)) :
    ∃ r', r.Reads 3 (r.heldKinds ++ (opening opened ++ [.key, .scalar e.key .plain, .value])) r' ∧
      r'.AtLine true next ∧ r'.heldKinds = [.scalar e.value.text e.value.style] := by
  rw [Entry.line, List.append_assoc] at h
  obtain ⟨r₁, hkey, hcolon, hheld⟩ := reads_key e.isWord e.isShort h
  obtain ⟨r₂, hvalue, hat, hheld₂⟩ := reads_colon hcolon hheld
  obtain ⟨r₃, hend, hline, hheld₃⟩ := reads_value e.value ht hat
  rw [hheld₂] at hend
  exact ⟨r₃, (hkey.trans (hvalue.trans hend)), hline, hheld₃⟩

theorem endBlocks_of_inMapping (hmapping : r.InMapping true) (hcandidate : r.candidate = none) :
    r.endBlocks = .ok { r.holdHere .blockEnd with indent := -1, outerIndents := [] } := by
  have hdeep : (-1 : Int) < r.indent := by
    rw [hmapping.indent]
    decide
  have hclose : r.closeBlocks (-1) = { r.holdHere .blockEnd with indent := -1, outerIndents := [] } := by
    simp only [closeBlocks, inFlow_eq_false hmapping.flow, hmapping.outer, if_true, Bool.false_eq_true,
      if_false]
    rw [closeBlocksFrom, if_pos hdeep, closeBlocksFrom]
  rw [endBlocks, hclose, dropCandidate]
  simp [holdHere, hold, hcandidate]

theorem readEnd_of_inMapping (hmapping : r.InMapping true) (hcandidate : r.candidate = none) :
    ∃ r', r.readEnd = .ok r' ∧ r'.ended = true ∧ r'.candidate = none ∧ r'.outerCandidates = [] ∧
      r'.heldKinds = r.heldKinds ++ [.blockEnd, .streamEnd] := by
  have hend := fun cursor => endBlocks_of_inMapping (r := { r with cursor := cursor })
    ⟨hmapping.flow, hmapping.going, hmapping.indent, hmapping.outer⟩ hcandidate
  simp only [readEnd, hend, bind, Except.bind]
  exact ⟨_, rfl, rfl, hcandidate, hmapping.flow, by simp [heldKinds, holdHere, hold, allowKey]⟩

/-- At the end of the text the mapping and the stream are closed. -/
theorem kinds_atEnd (h : r.AtLine true []) (fuel : Nat) :
    kinds (fuel + 2) r = (r.heldKinds ++ [.blockEnd, .streamEnd], none) := by
  obtain ⟨hmapping, hcandidate, allowed, m, hskip, -⟩ := h
  have hblanks : r.flushed.skipBlanks = r.flushed.goTo allowed ⟨[], m⟩ :=
    skipBlanks_eq hmapping.flow hskip
  obtain ⟨r', hend, hended, hcandidate', hflow', hheld⟩ :=
    readEnd_of_inMapping (r := r.flushed.goTo allowed ⟨[], m⟩)
      ⟨hmapping.flow, hmapping.going, hmapping.indent, hmapping.outer⟩ hcandidate
  have hread := (readToken_eq_readEnd hblanks
    (dropStale_eq_self hmapping.flow (by simp [flushed, goTo, hcandidate]))
    (hmapping.closes _) rfl).trans hend
  have hstep := Reads.of_step (deliver_of_settled hcandidate hmapping.flow) hmapping.going hread
  rw [show fuel + 2 = 1 + (fuel + 1) by omega, hstep,
    kinds_of_ended (deliver_of_settled hcandidate' hflow') hended]
  exact congrArg (fun ready => (r.heldKinds ++ ready, none)) hheld

theorem kinds_lines {closed : Bool} (entries : List Entry) {r : TokenReader}
    (h : r.AtLine true (Entry.lines closed entries)) (fuel : Nat) :
    kinds (3 * entries.length + (fuel + 2)) r =
      (r.heldKinds ++ entries.flatMap Entry.tokenKinds ++ [.blockEnd, .streamEnd], none) := by
  induction entries generalizing r with
  | nil => simpa using kinds_atEnd h fuel
  | cons e rest ih =>
      obtain ⟨r', hreads, hline, hheld⟩ := reads_entry e (Entry.follows_behind closed rest) h
      have hfuel : 3 * (e :: rest).length + (fuel + 2) = 3 + (3 * rest.length + (fuel + 2)) := by
        simp only [List.length_cons]
        omega
      rw [hfuel, hreads, ih hline, hheld]
      simp [opening, Entry.tokenKinds]

end TokenReader

/-! ## The text of a mapping -/

theorem firstForbidden?_eq_none {text : List Char} (h : ∀ c ∈ text, isPermitted c = true)
    (offset : Nat) : firstForbidden? offset text = none := by
  induction text generalizing offset with
  | nil => rfl
  | cons c rest ih =>
      rw [firstForbidden?, if_pos (h c List.mem_cons_self)]
      exact ih (fun d hd => h d (List.mem_cons_of_mem c hd)) _

theorem normalize_eq_self {text : List Char} (h : ∀ c ∈ text, c ≠ '\r' ∧ c ≠ '\u0085') :
    normalize text = text := by
  induction text with
  | nil => rfl
  | cons c rest ih =>
      have hc := h c List.mem_cons_self
      rw [normalize, if_neg (not_or.mpr hc), ih fun d hd => h d (List.mem_cons_of_mem c hd)]
      rintro rest rfl
      exact absurd rfl hc.1

namespace Entry

theorem isInline_of_mem_source (value : InlineScalar) {c : Char} (hc : c ∈ value.source) :
    isInline c = true := by
  cases value with
  | word text hword => exact isInline_of_isWordChar (isWordChar_of_mem hword hc)
  | quoted text hquotable =>
      have hquote : isInline '"' = true := by decide
      simp only [InlineScalar.source, List.mem_cons, List.mem_append, List.not_mem_nil, or_false] at hc
      rcases hc with rfl | hc | rfl
      · exact hquote
      · have := hquotable c hc
        simp only [isQuotable, Bool.and_eq_true] at this
        exact this.1.1
      · exact hquote

theorem isInline_of_mem_line (e : Entry) {c : Char} (hc : c ∈ e.line) : isInline c = true := by
  simp only [line, List.mem_append, List.mem_cons] at hc
  rcases hc with hc | rfl | rfl | hc
  · exact isInline_of_isWordChar (isWordChar_of_mem e.isWord hc)
  · decide
  · decide
  · exact isInline_of_mem_source e.value hc

theorem mem_behind {closed : Bool} {entries : List Entry} {c : Char}
    (hc : c ∈ behind closed entries) : c = '\n' ∨ isInline c = true := by
  induction entries with
  | nil => cases closed <;> simp_all [behind]
  | cons e rest ih =>
      simp only [behind, List.mem_cons, List.mem_append] at hc
      rcases hc with rfl | hc | hc
      · exact .inl rfl
      · exact .inr (e.isInline_of_mem_line hc)
      · exact ih hc

theorem mem_lines {closed : Bool} {entries : List Entry} {c : Char}
    (hc : c ∈ lines closed entries) : c = '\n' ∨ isInline c = true := by
  cases entries with
  | nil => simp [lines] at hc
  | cons e rest =>
      rcases List.mem_append.mp hc with hc | hc
      · exact .inr (e.isInline_of_mem_line hc)
      · exact mem_behind hc

theorem length_behind (closed : Bool) (entries : List Entry) :
    3 * entries.length ≤ (behind closed entries).length := by
  induction entries with
  | nil => simp
  | cons e rest ih =>
      simp only [behind, line, List.length_cons, List.length_append]
      omega

end Entry

/-- The tokens of a text that holds only permitted characters and no line break of two. -/
theorem tokens_of_inline {c : Char} {text : List Char} (hc : opensWord c = true)
    (h : ∀ d ∈ c :: text, d = '\n' ∨ isInline d = true) :
    tokens (String.ofList (c :: text)) = TokenReader.run ((c :: text).length + 3)
      (TokenReader.holdHere { cursor := ⟨c :: text, {}⟩ } .streamStart) := by
  have hmark : c ≠ byteOrderMark := ne_of_opensWord hc (by decide)
  have hpermitted : ∀ d ∈ c :: text, isPermitted d = true := by
    intro d hd
    rcases h d hd with rfl | hd
    · decide
    · simp only [isInline, Bool.and_eq_true] at hd
      exact hd.1.1.1
  have hsingle : ∀ d ∈ c :: text, d ≠ '\r' ∧ d ≠ '\u0085' := by
    intro d hd
    rcases h d hd with rfl | hd
    · decide
    · simp only [isInline, Bool.and_eq_true, bne_iff_ne, ne_eq] at hd
      exact ⟨hd.1.2, hd.2⟩
  simp only [tokens, String.toList_ofList, hmark, if_false, firstForbidden?_eq_none hpermitted,
    normalize_eq_self hsingle]

/-- The tokens of the lines of a mapping. -/
theorem tokens_lines (closed : Bool) (e : Entry) (rest : List Entry) :
    (tokens (String.ofList (Entry.lines closed (e :: rest)))).1.map Token.kind =
        .streamStart :: .blockMappingStart ::
          ((e :: rest).flatMap Entry.tokenKinds ++ [.blockEnd, .streamEnd]) ∧
      (tokens (String.ofList (Entry.lines closed (e :: rest)))).2 = none := by
  obtain ⟨c, tail, hlines, hc⟩ := Entry.lines_cons closed e rest
  have hstart : TokenReader.AtLine (TokenReader.holdHere { cursor := ⟨c :: tail, {}⟩ } .streamStart)
      false (e.line ++ Entry.behind closed rest) := by
    refine ⟨⟨rfl, rfl, rfl, rfl⟩, rfl, true, {}, ?_, fun _ => ⟨rfl, rfl⟩⟩
    rw [show e.line ++ Entry.behind closed rest = c :: tail from hlines]
    exact TokenReader.skipBlanksFrom_word (isWordChar_of_opensWord hc) true {} tail
  obtain ⟨r, hreads, hline, hheld⟩ :=
    TokenReader.reads_entry e (Entry.follows_behind closed rest) hstart
  obtain ⟨fuel, hfuel⟩ : ∃ fuel, (c :: tail).length + 3 = 3 + (3 * rest.length + (fuel + 2)) := by
    have hbehind := Entry.length_behind closed rest
    have hlength : (c :: tail).length = (e.line ++ Entry.behind closed rest).length :=
      congrArg List.length hlines.symm
    refine ⟨(c :: tail).length - 3 * rest.length - 2, ?_⟩
    simp only [Entry.line, List.length_append, List.length_cons] at hlength ⊢
    omega
  have hkinds := hreads (3 * rest.length + (fuel + 2))
  rw [← hfuel, TokenReader.kinds_lines rest hline, hheld] at hkinds
  have hinline : ∀ d ∈ c :: tail, d = '\n' ∨ isInline d = true := by
    rw [← hlines]
    exact fun d hd => Entry.mem_lines hd
  rw [hlines, tokens_of_inline hc hinline]
  obtain ⟨hfirst, hsecond⟩ := Prod.mk.inj hkinds
  exact ⟨by rw [hfirst]; rfl, hsecond⟩

end Yaml

end PluginKit
