import PluginKit.FileSystem.Basic

/-!
# Listings

A listing shows every entry below a directory in one line, with its path from there. Links are
shown and not followed; what lies in a directory that may not be read or searched is not shown.
-/

namespace PluginKit

namespace FileSystem

def octal (n : Nat) : String := String.ofList (Nat.toDigits 8 n)

def Entry.line (p : String) (e : Entry) : String :=
  match e.kind with
  | .directory => p ++ "/ " ++ octal e.mode
  | .file _ => p ++ " file"
  | .link target => p ++ " -> " ++ target.toText
  | .socket _ => p ++ " socket"

/-- The lines of all entries below a directory whose paths start with `lead`, `depth` levels
deep at most. -/
def linesBelow (fs : FileSystem) : Nat → String → Location → List String
  | 0, _, _ => []
  | depth + 1, lead, loc =>
      if (fs.get? loc).any fun e => e.isDirectory && e.readable && e.searchable then
        (fs.children loc).flatMap fun (name, e) =>
          let p := lead ++ String.ofList name
          e.line p :: fs.linesBelow depth (p ++ "/") (name :: loc)
      else []

/-- All that lies below the working directory, in ascending order of the lines. -/
def listing (fs : FileSystem) : List String :=
  (fs.linesBelow fs.entries.length "" fs.here).mergeSort (fun a b => decide (a ≤ b))

end FileSystem

end PluginKit
