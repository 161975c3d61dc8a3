import PluginKit.Proofs.Yaml.Scalar
import PluginKit.Yaml.Token.Stream

/-!
# Steps of reading tokens

A step hands out the tokens that are settled and reads the next one. Steps are composed with the kinds of
the tokens they hand out; where the tokens stand is left open.
-/

namespace PluginKit

namespace Yaml

namespace TokenReader

/-! ## Steps and runs -/

/-- The kinds of the tokens that are read, and the fault that ended them. -/
def kinds (fuel : Nat) (r : TokenReader) : List TokenKind × Option Problem :=
  ((run fuel r).1.map Token.kind, (run fuel r).2)

def heldKinds (r : TokenReader) : List TokenKind :=
  r.held.map Token.kind

/-- So many steps hand out tokens of these kinds and lead to another state. -/
def Reads (r : TokenReader) (steps : Nat) (ready : List TokenKind) (r' : TokenReader) : Prop :=
  ∀ fuel, kinds (steps + fuel) r = (ready ++ (kinds fuel r').1, (kinds fuel r').2)

theorem Reads.trans {r r' r'' : TokenReader} {m n : Nat} {ready ready' : List TokenKind}
    (h : r.Reads m ready r') (h' : r'.Reads n ready' r'') :
    r.Reads (m + n) (ready ++ ready') r'' := by
  intro fuel
  rw [Nat.add_assoc, h, h']
  simp

theorem Reads.of_step {r r₁ r₂ : TokenReader} {ready : List Token}
    (hdeliver : r.deliver = .ok (ready, r₁)) (hgoing : r₁.ended = false)
    (hread : r₁.readToken = .ok r₂) : r.Reads 1 (ready.map Token.kind) r₂ := by
  intro fuel
  rw [Nat.add_comm]
  simp [kinds, run, hdeliver, hgoing, hread]

/-- At the end the tokens that are settled are handed out and none is read. -/
theorem kinds_of_ended {r r' : TokenReader} {ready : List Token}
    (hdeliver : r.deliver = .ok (ready, r')) (hended : r'.ended = true) (fuel : Nat) :
    kinds (fuel + 1) r = (ready.map Token.kind, none) := by
  simp [kinds, run, hdeliver, hended]

/-! ## What a step leaves alone -/

variable {r : TokenReader}

theorem inFlow_eq_false (h : r.outerCandidates = []) : r.inFlow = false := by
  simp [inFlow, h]

theorem dropStale_eq_self (hflow : r.outerCandidates = [])
    (hfresh : ∀ k ∈ r.candidate, k.isStale r.cursor.mark = false) : r.dropStale = .ok r := by
  obtain ⟨cursor, indent, outerIndents, candidate, outer, keyAllowed, held, delivered, ended⟩ := r
  subst hflow
  cases candidate with
  | none => simp [dropStale, keep?]
  | some k =>
      have hk : k.isStale cursor.mark = false := hfresh k rfl
      simp [dropStale, keep?, hk]

/-- No block is closed at a column that is no less deep. -/
theorem closeBlocks_eq_self {column : Int} (h : r.outerIndents = [] ∨ r.indent ≤ column) :
    r.closeBlocks column = r := by
  unfold closeBlocks
  split
  · rfl
  · cases houter : r.outerIndents with
    | nil => rw [closeBlocksFrom, ← houter]
    | cons outer rest =>
        have hle : ¬ column < r.indent := by
          rcases h with h | h
          · rw [houter] at h
            contradiction
          · omega
        rw [closeBlocksFrom, if_neg hle, ← houter]

def flushed (r : TokenReader) : TokenReader :=
  { r with held := [], delivered := r.delivered + r.held.length }

/-- The reader at a position where a key may or may not start. -/
def goTo (r : TokenReader) (allowed : Bool) (cursor : Cursor) : TokenReader :=
  { r with keyAllowed := allowed, cursor := cursor }

theorem splitHeld_of_settled (hcandidate : r.candidate = none) (hflow : r.outerCandidates = [])
    (number : Nat) (tokens : List Token) : r.splitHeld number tokens = (tokens, []) := by
  induction tokens generalizing number with
  | nil => rfl
  | cons t rest ih =>
      rw [splitHeld, if_neg (by simp [isCandidate, hcandidate, hflow]), ih]

theorem deliver_of_settled (hcandidate : r.candidate = none) (hflow : r.outerCandidates = []) :
    r.deliver = .ok (r.held, r.flushed) := by
  have hstale : r.dropStale = .ok r := dropStale_eq_self hflow (by simp [hcandidate])
  unfold deliver
  split
  next hheld =>
    obtain ⟨cursor, indent, outerIndents, candidate, outer, keyAllowed, held, delivered, ended⟩ := r
    simp only [List.isEmpty_iff] at hheld
    subst hheld
    rfl
  next =>
    simp only [hstale, bind, Except.bind, splitHeld_of_settled hcandidate hflow, flushed]

/-- No token is handed out while the first held one may be a key. -/
theorem deliver_of_candidate {k : KeyCandidate} (hcandidate : r.candidate = some k)
    (hflow : r.outerCandidates = []) (hfresh : k.isStale r.cursor.mark = false)
    (hnumber : k.number = r.delivered) : r.deliver = .ok ([], r) := by
  have hstale : r.dropStale = .ok r := dropStale_eq_self hflow (by simpa [hcandidate] using hfresh)
  have hsplit : r.splitHeld r.delivered r.held = ([], r.held) := by
    cases r.held with
    | nil => rfl
    | cons t rest => rw [splitHeld, if_pos (by simp [isCandidate, hcandidate, hnumber])]
  unfold deliver
  split
  · rfl
  · simp [hstale, bind, Except.bind, hsplit]

/-! ## Candidates and blanks -/

theorem saveCandidate_of_allowed (hallowed : r.keyAllowed = true) (hflow : r.outerCandidates = [])
    (hcandidate : r.candidate = none) :
    r.saveCandidate = .ok { r with
      candidate := some ⟨r.delivered + r.held.length, r.cursor.mark,
        r.indent == (r.cursor.mark.column : Int)⟩ } := by
  simp [saveCandidate, hallowed, dropCandidate, hcandidate, inFlow_eq_false hflow, bind, Except.bind]

theorem saveCandidate_of_not_allowed (hallowed : r.keyAllowed = false) : r.saveCandidate = .ok r := by
  simp [saveCandidate, hallowed]

theorem readPlainScalar_eq {r' : TokenReader} {scalar : PlainScalar.Result}
    (hsave : r.saveCandidate = .ok r') (hflow : r'.outerCandidates = [])
    (hread : PlainScalar.read r'.cursor (r'.indent + 1) false = .ok scalar) :
    r.readPlainScalar = .ok ((r'.allowKey scalar.broken).takeText (.scalar scalar.text .plain)
      scalar.stop scalar.left) := by
  simp [readPlainScalar, hsave, inFlow_eq_false hflow, hread, bind, Except.bind]

theorem readQuotedScalar_eq {r' : TokenReader} {style : ScalarStyle} {text : List Char} {left : Cursor}
    (hsave : r.saveCandidate = .ok r') (hread : QuotedScalar.read r'.cursor = .ok (text, left)) :
    r.readQuotedScalar style =
      .ok ((r'.allowKey false).takeText (.scalar text style) left.mark left) := by
  simp [readQuotedScalar, hsave, hread, bind, Except.bind]

theorem skipBlanks_eq {allowed : Bool} {cursor : Cursor} (hflow : r.outerCandidates = [])
    (h : skipBlanksFrom false r.keyAllowed false r.cursor.mark r.cursor.rest = (allowed, cursor)) :
    r.skipBlanks = r.goTo allowed cursor := by
  simp [skipBlanks, inFlow_eq_false hflow, h, goTo]

/-! ## Which token is read -/

/-- Behind the blanks, on no document marker and no directive, the indicator decides. -/
theorem readToken_eq_readIndicator {r' : TokenReader} (hskip : r.skipBlanks = r')
    (hstale : r'.dropStale = .ok r')
    (hclose : r'.outerIndents = [] ∨ r'.indent ≤ r'.cursor.mark.column)
    {c : Char} {rest : List Char} (hrest : r'.cursor.rest = c :: rest)
    (hline : r'.cursor.mark.column = 0 → opensWord c = true) :
    r.readToken = r'.readIndicator := by
  have hmarker : ¬ (r'.cursor.mark.column = 0 ∧ startsMarker (c :: rest) = true) := by
    rintro ⟨hcolumn, hmarker⟩
    have hdash : c ≠ '-' := ne_of_opensWord (hline hcolumn) (by decide)
    have hpoint : c ≠ '.' := ne_of_opensWord (hline hcolumn) (by decide)
    simp [startsMarker, hdash, hpoint] at hmarker
  have hdirective : ¬ (r'.cursor.mark.column = 0 ∧ c = '%') := by
    rintro ⟨hcolumn, hpercent⟩
    exact ne_of_opensWord (hline hcolumn) (by decide) hpercent
  simp only [readToken, hskip, hstale, bind, Except.bind, closeBlocks_eq_self hclose, Cursor.peek,
    first, hrest, List.headD_cons, List.isEmpty_cons, Bool.false_eq_true, if_false, Bool.and_eq_true,
    beq_iff_eq]
  rw [if_neg hdirective, if_neg hmarker]

theorem readToken_eq_readEnd {r' : TokenReader} (hskip : r.skipBlanks = r')
    (hstale : r'.dropStale = .ok r')
    (hclose : r'.outerIndents = [] ∨ r'.indent ≤ r'.cursor.mark.column) (hrest : r'.cursor.rest = []) :
    r.readToken = r'.readEnd := by
  simp [readToken, hskip, hstale, bind, Except.bind, closeBlocks_eq_self hclose, hrest]

theorem readIndicator_word {c : Char} {rest : List Char} (hrest : r.cursor.rest = c :: rest)
    (hc : opensWord c = true) (hflow : r.outerCandidates = []) :
    r.readIndicator = r.readPlainScalar := by
  have hword : isWordChar c = true := isWordChar_of_opensWord hc
  have hends : endsWord c = false := by
    simp [endsWord, endsLine, isGap_of_isWordChar hword, isBreak_of_isWordChar hword,
      ne_of_opensWord hc (show opensWord '\x00' = false by decide)]
  have hlisted : c ∉ ['-', '?', ':', '#', '&', '*', '!', '|', '>', '\'', '"', '%', '@', '\x60'] :=
    not_mem_of_opensWord hc (by decide)
  have hbracket : c ∉ ['[', '{', ']', '}', ','] := not_mem_of_opensWord hc (by decide)
  simp only [List.mem_cons, List.not_mem_nil, or_false, not_or] at hlisted hbracket
  have hstarts : startsPlain false c (r.cursor.peekAt 1) = true := by
    simp [startsPlain, hends, isFlowIndicator, hlisted, hbracket]
  simp only [readIndicator, Cursor.peek, first, hrest, List.headD_cons, inFlow_eq_false hflow, hlisted,
    hbracket, hstarts, false_and, if_false, if_true]

/-- Behind a key that a colon and a space follow the colon is read. -/
theorem readIndicator_colon {rest : List Char} (hrest : r.cursor.rest = ':' :: ' ' :: rest) :
    r.readIndicator = r.readValue := by
  have hapart : endsWord ' ' = true := by decide
  simp [readIndicator, Cursor.peek, Cursor.peekAt, nth, first, hrest, hapart]

theorem readIndicator_quote {rest : List Char} (hrest : r.cursor.rest = '"' :: rest) :
    r.readIndicator = r.readQuotedScalar .doubleQuoted := by
  simp [readIndicator, Cursor.peek, first, hrest]

end TokenReader

end Yaml

end PluginKit
