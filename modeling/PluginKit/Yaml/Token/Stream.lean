import PluginKit.Yaml.Token.Block
import PluginKit.Yaml.Token.Plain
import PluginKit.Yaml.Token.Quoted
import PluginKit.Yaml.Token.Tag

/-!
# The tokens of a text

Tokens are read one after the other. A key of a block or flow mapping may be written without
an indicator in front of it; only the colon behind it tells. So a node that may be such a key is
remembered as a candidate, tokens behind it are held back until the candidate is settled, and
the tokens that open the mapping and the key are put in front of it once the colon is met.

Collections of the block style are opened and closed by the columns of their entries.
-/

namespace PluginKit

namespace Yaml

/-- A node that turns out to be a key if a colon follows: the number of its first token, its
place, and whether it can be nothing else where it stands. -/
structure KeyCandidate where
  number : Nat
  mark : Mark
  required : Bool
deriving DecidableEq, Repr

/-- A candidate is dropped when its line ends and when it grows too long. -/
def KeyCandidate.isStale (k : KeyCandidate) (m : Mark) : Bool :=
  decide (k.mark.line < m.line) || decide (k.mark.column + 1024 < m.column)

/-- The state of reading tokens: the position, the columns of the open block collections (`-1`
outside of all), the candidate at the current flow level and those of the levels around it,
whether a candidate may start here, the tokens held back, how many went out before them, and
whether the text has ended. -/
structure TokenReader where
  cursor : Cursor
  indent : Int := -1
  outerIndents : List Int := []
  candidate : Option KeyCandidate := none
  outerCandidates : List (Option KeyCandidate) := []
  keyAllowed : Bool := true
  held : List Token := []
  delivered : Nat := 0
  ended : Bool := false

namespace TokenReader

def inFlow (r : TokenReader) : Bool :=
  !r.outerCandidates.isEmpty

def hold (r : TokenReader) (t : Token) : TokenReader :=
  { r with held := r.held ++ [t] }

/-- The reader with one more token that no character stands for. -/
def holdHere (r : TokenReader) (kind : TokenKind) : TokenReader :=
  r.hold ⟨kind, r.cursor.mark, r.cursor.mark⟩

def insert (r : TokenReader) (number : Nat) (t : Token) : TokenReader :=
  { r with held := r.held.insertIdx (number - r.delivered) t }

/-- The failure of a candidate that no colon followed. -/
def missingColon {α : Type} (r : TokenReader) (k : KeyCandidate) : Except Problem α :=
  r.cursor.fail .keyWithoutColon (some (.simpleKey, k.mark))

def dropCandidate (r : TokenReader) : Except Problem TokenReader :=
  match r.candidate with
  | some k => if k.required then r.missingColon k else .ok { r with candidate := none }
  | none => .ok r

/-- A candidate unless it is stale at a place; the stale ones that are required. -/
def keep? (m : Mark) : Option KeyCandidate → Option KeyCandidate
  | some k => if k.isStale m then none else some k
  | none => none

/-- Drops the candidates of all levels that are stale here. The outermost one that was required
is told. -/
def dropStale (r : TokenReader) : Except Problem TokenReader :=
  let m := r.cursor.mark
  let all := r.candidate :: r.outerCandidates
  match all.reverse.findSome? fun k? => k?.filter fun k => k.isStale m && k.required with
  | some k => r.missingColon k
  | none =>
      .ok { r with
        candidate := keep? m r.candidate
        outerCandidates := r.outerCandidates.map (keep? m) }

/-- Makes the node that starts here a candidate where one may start. -/
def saveCandidate (r : TokenReader) : Except Problem TokenReader := do
  if r.keyAllowed then
    let required := !r.inFlow && r.indent == (r.cursor.mark.column : Int)
    let number := r.delivered + r.held.length
    let r ← r.dropCandidate
    .ok { r with candidate := some ⟨number, r.cursor.mark, required⟩ }
  else .ok r

/-- Opens a block collection at a column that lies deeper than those that are open; its token
goes in front of the token with the given number, or behind all. -/
def openBlock (r : TokenReader) (column : Nat) (number : Option Nat) (kind : TokenKind)
    (m : Mark) : TokenReader :=
  if r.inFlow ∨ (column : Int) ≤ r.indent then r
  else
    let r := { r with indent := column, outerIndents := r.indent :: r.outerIndents }
    match number with
    | some n => r.insert n ⟨kind, m, m⟩
    | none => r.hold ⟨kind, m, m⟩

def closeBlocksFrom (column : Int) (r : TokenReader) : List Int → TokenReader
  | [] => { r with outerIndents := [] }
  | outer :: rest =>
      if column < r.indent then
        closeBlocksFrom column { r.holdHere .blockEnd with indent := outer } rest
      else { r with outerIndents := outer :: rest }

def closeBlocks (r : TokenReader) (column : Int) : TokenReader :=
  if r.inFlow then r else closeBlocksFrom column r r.outerIndents

def take (r : TokenReader) (kind : TokenKind) (length : Nat) : TokenReader :=
  let stop := r.cursor.skip length
  { r.hold ⟨kind, r.cursor.mark, stop.mark⟩ with cursor := stop }

def takeText (r : TokenReader) (kind : TokenKind) (stop : Mark) (left : Cursor) : TokenReader :=
  { r.hold ⟨kind, r.cursor.mark, stop⟩ with cursor := left }

def allowKey (r : TokenReader) (allowed : Bool) : TokenReader :=
  { r with keyAllowed := allowed }

/-- Goes on behind blanks, comments and empty lines. A tab counts as a blank only where no key
may start; a new line may start a key. -/
def skipBlanksFrom (inFlow : Bool) (keyAllowed comment : Bool) (m : Mark) :
    List Char → Bool × Cursor
  | [] => (keyAllowed, ⟨[], m⟩)
  | c :: rest =>
      if isBreak c then
        skipBlanksFrom inFlow (keyAllowed || !inFlow) false (m.after c) rest
      else if comment || c == '#' then skipBlanksFrom inFlow keyAllowed true (m.after c) rest
      else if c == ' ' || ((inFlow || !keyAllowed) && c == '\t') then
        skipBlanksFrom inFlow keyAllowed false (m.after c) rest
      else (keyAllowed, ⟨c :: rest, m⟩)

def skipBlanks (r : TokenReader) : TokenReader :=
  let (keyAllowed, cursor) :=
    skipBlanksFrom r.inFlow r.keyAllowed false r.cursor.mark r.cursor.rest
  { r with keyAllowed := keyAllowed, cursor := cursor }

/-- Ends a document: all block collections are closed and no candidate is left. -/
def endBlocks (r : TokenReader) : Except Problem TokenReader :=
  (r.closeBlocks (-1)).dropCandidate

def readEnd (r : TokenReader) : Except Problem TokenReader := do
  let m := r.cursor.mark
  let m := if m.column = 0 then m else ⟨m.line + 1, 0⟩
  let r ← { r with cursor := ⟨r.cursor.rest, m⟩ }.endBlocks
  .ok { (r.allowKey false).holdHere .streamEnd with ended := true }

def readDirective (r : TokenReader) : Except Problem TokenReader := do
  let r ← r.endBlocks
  let (kind, stop, left) ← Directive.read r.cursor
  .ok ((r.allowKey false).takeText kind stop left)

def readMarker (r : TokenReader) (kind : TokenKind) : Except Problem TokenReader := do
  let r ← r.endBlocks
  .ok ((r.allowKey false).take kind 3)

def openFlow (r : TokenReader) (kind : TokenKind) : Except Problem TokenReader := do
  let r ← r.saveCandidate
  let r := { r with candidate := none, outerCandidates := r.candidate :: r.outerCandidates }
  .ok ((r.allowKey true).take kind 1)

def closeFlow (r : TokenReader) (kind : TokenKind) : Except Problem TokenReader := do
  let r ← r.dropCandidate
  let r :=
    match r.outerCandidates with
    | [] => r
    | outer :: rest => { r with candidate := outer, outerCandidates := rest }
  .ok ((r.allowKey false).take kind 1)

def readFlowEntry (r : TokenReader) : Except Problem TokenReader := do
  let r ← r.dropCandidate
  .ok ((r.allowKey true).take .flowEntry 1)

def readBlockEntry (r : TokenReader) : Except Problem TokenReader := do
  if !r.inFlow && !r.keyAllowed then r.cursor.fail .entryNotAllowed none
  else
    let m := r.cursor.mark
    let r ← (r.openBlock m.column none .blockSequenceStart m).dropCandidate
    .ok ((r.allowKey true).take .blockEntry 1)

def readKey (r : TokenReader) : Except Problem TokenReader := do
  if !r.inFlow && !r.keyAllowed then r.cursor.fail .keyNotAllowed none
  else
    let m := r.cursor.mark
    let r ← (r.openBlock m.column none .blockMappingStart m).dropCandidate
    .ok ((r.allowKey (!r.inFlow)).take .key 1)

/-- The colon in front of a value, which makes the candidate a key. -/
def readValue (r : TokenReader) : Except Problem TokenReader :=
  match r.candidate with
  | some k =>
      let r := r.insert k.number ⟨.key, k.mark, k.mark⟩
      let r := r.openBlock k.mark.column (some k.number) .blockMappingStart k.mark
      .ok (({ r with candidate := none }.allowKey false).take .value 1)
  | none =>
      if !r.inFlow && !r.keyAllowed then r.cursor.fail .valueNotAllowed none
      else
        let m := r.cursor.mark
        let r := r.openBlock m.column none .blockMappingStart m
        .ok ((r.allowKey (!r.inFlow)).take .value 1)

def readReference (r : TokenReader) (what : Activity) (kind : List Char → TokenKind) :
    Except Problem TokenReader := do
  let r ← r.saveCandidate
  let (name, left) ← readName what r.cursor
  .ok ((r.allowKey false).takeText (kind name) left.mark left)

def readTag (r : TokenReader) : Except Problem TokenReader := do
  let r ← r.saveCandidate
  let (source, left) ← TagSource.read r.inFlow r.cursor
  .ok ((r.allowKey false).takeText (.tag source) left.mark left)

def readBlockScalar (r : TokenReader) (style : ScalarStyle) : Except Problem TokenReader := do
  let r ← r.dropCandidate
  let (text, stop, left) ← BlockScalar.read r.cursor (style == .folded) r.indent
  .ok ((r.allowKey true).takeText (.scalar text style) stop left)

def readQuotedScalar (r : TokenReader) (style : ScalarStyle) : Except Problem TokenReader := do
  let r ← r.saveCandidate
  let (text, left) ← QuotedScalar.read r.cursor
  .ok ((r.allowKey false).takeText (.scalar text style) left.mark left)

/-- A plain scalar; a key may start behind it if a line break follows it. -/
def readPlainScalar (r : TokenReader) : Except Problem TokenReader := do
  let r ← r.saveCandidate
  let scalar ← PlainScalar.read r.cursor (r.indent + 1) r.inFlow
  .ok ((r.allowKey scalar.broken).takeText (.scalar scalar.text .plain) scalar.stop scalar.left)

/-- Whether a plain scalar may start with a character that another follows. -/
def startsPlain (inFlow : Bool) (c following : Char) : Bool :=
  !(endsWord c || isFlowIndicator c ||
    ['-', '?', ':', '#', '&', '*', '!', '|', '>', '\'', '"', '%', '@', '\x60'].contains c) ||
    (c == '-' && !isGap following) ||
    (!inFlow && (c == '?' || c == ':') && !endsWord following)

/-- Reads the token that starts here, which is no end, directive or marker. -/
def readIndicator (r : TokenReader) : Except Problem TokenReader :=
  let following := r.cursor.peekAt 1
  let apart := r.inFlow || endsWord following
  let c := r.cursor.peek
  if c = '[' then r.openFlow .flowSequenceStart
  else if c = '{' then r.openFlow .flowMappingStart
  else if c = ']' then r.closeFlow .flowSequenceEnd
  else if c = '}' then r.closeFlow .flowMappingEnd
  else if c = ',' then r.readFlowEntry
  else if c = '-' ∧ endsWord following then r.readBlockEntry
  else if c = '?' ∧ apart then r.readKey
  else if c = ':' ∧ apart then r.readValue
  else if c = '*' then r.readReference .aliasName .aliasTo
  else if c = '&' then r.readReference .anchor .anchor
  else if c = '!' then r.readTag
  else if c = '|' ∧ ¬ r.inFlow then r.readBlockScalar .literal
  else if c = '>' ∧ ¬ r.inFlow then r.readBlockScalar .folded
  else if c = '\'' then r.readQuotedScalar .singleQuoted
  else if c = '"' then r.readQuotedScalar .doubleQuoted
  else if startsPlain r.inFlow c following then r.readPlainScalar
  else r.cursor.fail .badTokenStart (some (.nextToken, r.cursor.mark))

def readToken (r : TokenReader) : Except Problem TokenReader := do
  let r ← r.skipBlanks.dropStale
  let r := r.closeBlocks r.cursor.mark.column
  let atStart := r.cursor.mark.column == 0
  let c := r.cursor.peek
  if r.cursor.rest.isEmpty then r.readEnd
  else if atStart && c == '%' then r.readDirective
  else if atStart && startsMarker r.cursor.rest then
    r.readMarker (if c = '-' then .documentStart else .documentEnd)
  else r.readIndicator

def isCandidate (r : TokenReader) (number : Nat) : Bool :=
  (r.candidate :: r.outerCandidates).any fun
    | some k => k.number == number
    | none => false

def splitHeld (r : TokenReader) : Nat → List Token → List Token × List Token
  | _, [] => ([], [])
  | number, t :: rest =>
      if r.isCandidate number then ([], t :: rest)
      else
        let (ready, held) := r.splitHeld (number + 1) rest
        (t :: ready, held)

/-- Hands out the held tokens that are settled. -/
def deliver (r : TokenReader) : Except Problem (List Token × TokenReader) := do
  if r.held.isEmpty then .ok ([], r)
  else
    let r ← r.dropStale
    let (ready, held) := r.splitHeld r.delivered r.held
    .ok (ready, { r with held := held, delivered := r.delivered + ready.length })

def run : Nat → TokenReader → List Token × Option Problem
  | 0, _ => ([], none)
  | fuel + 1, r =>
      match r.deliver with
      | .error problem => ([], some problem)
      | .ok (ready, r) =>
          if r.ended then (ready, none)
          else
            match r.readToken with
            | .error problem => (ready, some problem)
            | .ok r =>
                let (tokens, problem) := run fuel r
                (ready ++ tokens, problem)

end TokenReader

/-- The tokens of a text up to its end or its first fault. -/
def tokens (text : String) : List Token × Option Problem :=
  let chars := text.toList
  let (chars, offset) :=
    match chars with
    | c :: rest => if c = byteOrderMark then (rest, c.utf8Size) else (chars, 0)
    | [] => ([], 0)
  match firstForbidden? offset chars with
  | some offset => ([], some (.controlCharacter offset))
  | none =>
      let start : TokenReader := { cursor := ⟨normalize chars, {}⟩ }
      TokenReader.run (chars.length + 3) (start.holdHere .streamStart)

end Yaml

end PluginKit
