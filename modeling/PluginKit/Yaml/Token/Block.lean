import PluginKit.Yaml.Token.Fold

/-!
# Block scalars

A header, which may say how deep the lines are indented and what becomes of the line breaks at
the end, and the lines. Without a stated depth the first line that is not empty sets it. Literal
scalars keep their line breaks, folded ones fold those between lines that do not start with a
blank.
-/

namespace PluginKit

namespace Yaml

namespace BlockScalar

inductive Chomping where
  | strip
  | clip
  | keep
deriving DecidableEq, Repr

structure Header where
  chomping : Chomping := .clip
  increment : Nat := 0
deriving DecidableEq, Repr

def readChomping (c : Cursor) : Option Chomping × Cursor :=
  if c.peek = '+' then (some .keep, c.next)
  else if c.peek = '-' then (some .strip, c.next)
  else (none, c)

/-- Reads a digit for the depth, zero if there is none. -/
def readIncrement (start : Mark) (c : Cursor) : Except Problem (Nat × Cursor) :=
  if c.peek = '0' then c.fail .zeroIndentation (some (.blockScalar, start))
  else if c.peek.isDigit then .ok (c.peek.toNat - '0'.toNat, c.next)
  else .ok (0, c)

def readHeader (start : Mark) (c : Cursor) : Except Problem (Header × Cursor) := do
  let (chomping, c) := readChomping c
  let (increment, c) ← readIncrement start c
  let (chomping, c) :=
    match chomping with
    | some chomping => (some chomping, c)
    | none => if increment = 0 then (none, c) else readChomping c
  let c := c.skipToLineEnd
  if endsLine c.peek then
    .ok (⟨chomping.getD .clip, increment⟩, c.skipBreak)
  else c.fail .blockHeaderEnd (some (.blockScalar, start))

/-- Where a block scalar stands: its start, whether its lines are folded, and the depth of the
collection around it. -/
structure Setting where
  start : Mark
  folds : Bool
  parent : Int

/-- The lines read so far, the latest character first: the text, the break that ends its last
line, the breaks of the empty lines behind that, and whether the last line starts with a
blank. -/
structure Lines where
  text : List Char := []
  lineBreak : Option Char := none
  empties : List Char := []
  startsBlank : Bool := false

namespace Lines

def addLine (l : Lines) (folds : Bool) (c : Char) : Lines :=
  let joint :=
    if folds ∧ l.lineBreak = some '\n' ∧ ¬ l.startsBlank ∧ ¬ isGap c then
      if l.empties.isEmpty then [' '] else []
    else l.lineBreak.toList
  { text := c :: (l.empties ++ joint ++ l.text), startsBlank := isGap c }

def close (l : Lines) : Chomping → List Char
  | .strip => l.text.reverse
  | .clip => (l.lineBreak.toList ++ l.text).reverse
  | .keep => (l.empties ++ l.lineBreak.toList ++ l.text).reverse

end Lines

/-- What is being read: a line, or the indentation of one, to a depth that is zero until it is
known, `deepest` being the deepest column so far. -/
inductive Mode where
  | line (depth : Nat)
  | indentation (depth deepest : Nat)

def settle (parent : Int) (depth deepest : Nat) : Nat :=
  if depth = 0 then max deepest (max (parent + 1).toNat 1) else depth

/-- Reads on in a mode from the place `m`; `stop` is the end of the last line. -/
def readFrom (s : Setting) (l : Lines) (stop : Mark) (mode : Mode) (m : Mark) :
    List Char → Except Problem (Lines × Mark × Cursor)
  | [] => .ok (l, (match mode with | .line _ => m | .indentation _ _ => stop), ⟨[], m⟩)
  | c :: rest =>
      match mode with
      | .line depth =>
          if isBreak c then
            readFrom s { l with lineBreak := some c } (m.after c) (.indentation depth 0)
              (m.after c) rest
          else readFrom s { l with text := c :: l.text } stop (.line depth) (m.after c) rest
      | .indentation depth deepest =>
          let open_ : Bool := depth == 0 || decide (m.column < depth)
          if open_ && c == ' ' then
            readFrom s l stop (.indentation depth deepest) (m.after c) rest
          else if open_ && c == '\t' then
            .error (.fault .tabAsIndentation m (some (.blockScalar, s.start)))
          else
            let deepest := max deepest m.column
            if isBreak c then
              readFrom s { l with empties := c :: l.empties } (m.after c)
                (.indentation depth deepest) (m.after c) rest
            else
              let depth := settle s.parent depth deepest
              if m.column = depth then
                readFrom s (l.addLine s.folds c) stop (.line depth) (m.after c) rest
              else .ok (l, stop, ⟨c :: rest, m⟩)

/-- Reads a scalar whose indicator stands here; its text, its end and what is left. -/
def read (c : Cursor) (folds : Bool) (parent : Int) :
    Except Problem (List Char × Mark × Cursor) := do
  let start := c.mark
  let (header, c) ← readHeader start c.next
  let depth := if header.increment = 0 then 0 else (max parent 0).toNat + header.increment
  let (lines, stop, c) ←
    readFrom ⟨start, folds, parent⟩ {} c.mark (.indentation depth 0) c.mark c.rest
  .ok (lines.close header.chomping, stop, c)

end BlockScalar

end Yaml

end PluginKit
