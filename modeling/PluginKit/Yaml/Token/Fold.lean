import PluginKit.Yaml.Cursor

/-!
# Folded line breaks

The gap between two words of a scalar: on one line it is kept, over a line break it becomes a
space, and over several line breaks it becomes all but the first of them.
-/

namespace PluginKit

namespace Yaml

/-- What stands between two words: the blanks before the first line break, whether there was a
line break, that break unless it was escaped, and the further breaks. The lists have the
latest character first. -/
structure Gap where
  blanks : List Char := []
  broken : Bool := false
  firstBreak : Option Char := none
  further : List Char := []
deriving DecidableEq, Repr

namespace Gap

def escapedBreak : Gap :=
  { broken := true }

/-- The gap with one more blank; blanks behind a line break are dropped. -/
def addBlank (g : Gap) (c : Char) : Gap :=
  if g.broken then g else { g with blanks := c :: g.blanks }

def addBreak (g : Gap) (c : Char) : Gap :=
  if g.broken then { g with further := c :: g.further }
  else { g with broken := true, firstBreak := some c }

/-- What the gap contributes to the text, the latest character first. -/
def folded (g : Gap) : List Char :=
  if g.broken then
    match g.firstBreak with
    | none => g.further
    | some '\n' => if g.further.isEmpty then [' '] else g.further
    | some c => g.further ++ [c]
  else g.blanks

@[simp] theorem folded_empty : ({} : Gap).folded = [] := rfl

end Gap

end Yaml

end PluginKit
