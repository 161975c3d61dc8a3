/-!
# Counting crashes

Crashes count as consecutive as long as each follows the one before it within a window of
time. Too many in a row call for a restart of everything.
-/

namespace PluginKit

/-- The crashes of one server. Times are nanoseconds of one clock, which may go backwards. -/
structure CrashWindow where
  lastCrash : Nat
  consecutive : UInt32
  resetAfter : Nat
  threshold : UInt32
deriving DecidableEq, Repr

namespace CrashWindow

/-- The window of a fresh server: the moment it began to serve stands in for an earlier
crash. -/
def start (servingSince resetAfter : Nat) (threshold : UInt32) : CrashWindow :=
  ⟨servingSince, 0, resetAfter, threshold⟩

/-- The time since the last crash, nothing when the clock has gone backwards. -/
def gap (w : CrashWindow) (now : Nat) : Nat := now - w.lastCrash

/-- The window after one more crash: a gap longer than the window starts the count anew. -/
def record (w : CrashWindow) (now : Nat) : CrashWindow :=
  { w with
    lastCrash := now
    consecutive := if w.resetAfter < w.gap now then 1 else w.consecutive + 1 }

def escalates (w : CrashWindow) : Bool := decide (w.threshold < w.consecutive)

def recordAll (w : CrashWindow) : List Nat → List CrashWindow
  | [] => []
  | now :: rest => w.record now :: (w.record now).recordAll rest

@[simp] theorem recordAll_length (w : CrashWindow) (times : List Nat) :
    (w.recordAll times).length = times.length := by
  induction times generalizing w with
  | nil => rfl
  | cons now rest ih => simp [recordAll, ih]

end CrashWindow

end PluginKit
