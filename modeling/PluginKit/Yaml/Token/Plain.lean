import PluginKit.Yaml.Token.Fold

/-!
# Plain scalars

A plain scalar ends at a colon that a word end follows, at a comment, at a document marker and,
inside a flow collection, at one of its indicators; outside it also ends at a line that is not
indented deeper than the collection it stands in.
-/

namespace PluginKit

namespace Yaml

namespace PlainScalar

/-- Where a plain scalar stands: its start, the least column of its further lines, and whether
a flow collection is around it. -/
structure Setting where
  start : Mark
  indent : Int
  inFlow : Bool

/-- A plain scalar, the end of its last word, whether a line break follows it, and what is left
of the text. -/
structure Result where
  text : List Char
  stop : Mark
  broken : Bool
  left : Cursor

/-- Whether the scalar ends before a word that would start or go on here. -/
def endsAt (s : Setting) (c : Char) (rest : List Char) : Bool :=
  (c == ':' && endsWord (first rest)) || (s.inFlow && isFlowIndicator c)

/-- Whether the scalar ends before a word that would start here, behind a gap. -/
def endsBehindGap (s : Setting) (m : Mark) (c : Char) (rest : List Char) : Bool :=
  c == '#' || (!s.inFlow && decide ((m.column : Int) < s.indent)) ||
    (m.column == 0 && startsMarker (c :: rest))

/-- Reads on from the place `m`, where `text` (the latest character first) and a gap have been
read and the last word ended at `stop`. -/
def readFrom (s : Setting) (text : List Char) (gap : Gap) (stop m : Mark) :
    List Char → Except Problem Result
  | [] => .ok ⟨text.reverse, stop, gap.broken, ⟨[], m⟩⟩
  | c :: rest =>
      if isGap c then
        if gap.broken && c == '\t' && decide ((m.column : Int) < s.indent) then
          .error (.fault .tabInIndentation m (some (.plainScalar, s.start)))
        else readFrom s text (gap.addBlank c) stop (m.after c) rest
      else if isBreak c then readFrom s text (gap.addBreak c) stop (m.after c) rest
      else if gap ≠ {} ∧ endsBehindGap s m c rest then
        .ok ⟨text.reverse, stop, gap.broken, ⟨c :: rest, m⟩⟩
      else if s.inFlow && c == ':' && (isFlowIndicator (first rest) || first rest == '?') then
        .error (.fault .colonInFlow m (some (.plainScalar, s.start)))
      else if endsAt s c rest then .ok ⟨text.reverse, stop, gap.broken, ⟨c :: rest, m⟩⟩
      else readFrom s (c :: (gap.folded ++ text)) {} (m.after c) (m.after c) rest

def read (c : Cursor) (indent : Int) (inFlow : Bool) : Except Problem Result :=
  readFrom ⟨c.mark, indent, inFlow⟩ [] {} c.mark c.mark c.rest

end PlainScalar

end Yaml

end PluginKit
