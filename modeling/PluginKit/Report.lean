/-!
# Reports

A report is the cause of a failure with what was learned on its way out: notes attached to the
cause, and the texts of the failures behind it.
-/

namespace PluginKit

/-- A cause, the notes attached to it (the latest first) and the texts behind it. -/
structure Report (ε : Type) where
  cause : ε
  notes : List String := []
  origins : List String := []
deriving DecidableEq, Repr

namespace Report

variable {ε : Type}

def attach (r : Report ε) (note : String) : Report ε :=
  { r with notes := note :: r.notes }

/-- All texts of a report, from the outermost to the innermost; `message` is the wording of
its cause. -/
def frames (message : ε → String) (r : Report ε) : List String :=
  r.notes ++ message r.cause :: r.origins

end Report

end PluginKit
