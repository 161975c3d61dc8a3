/-!
# Durations as diagnostics show them

The largest unit that leaves a whole part, with the rest behind a point.
-/

namespace PluginKit

namespace Text

/-- What follows the whole seconds; the last digit shown is not zero. -/
def showThousandths (n : Nat) : String :=
  let digits := ([n / 100, n / 10 % 10, n % 10].reverse.dropWhile (· == 0)).reverse
  if digits.isEmpty then "" else "." ++ String.join (digits.map toString)

def showMilliseconds (n : Nat) : String :=
  if n = 0 then "0ns"
  else if n < 1000 then toString n ++ "ms"
  else toString (n / 1000) ++ showThousandths (n % 1000) ++ "s"

example : ([0, 250, 2000, 61050].map showMilliseconds) = ["0ns", "250ms", "2s", "61.05s"] := by
  decide +kernel

end Text

end PluginKit
