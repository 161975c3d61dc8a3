import PluginKit.FileSystem.Basic
import PluginKit.FileSystem.Error

/-!
# Following paths

A path is followed name by name from the root or from the working directory. Every directory
on the way must allow looking names up, and links are followed, up to a fixed number of them.
-/

namespace PluginKit

namespace FileSystem

/-- What a path leads to: an entry, or a free name in an existing directory. -/
inductive Target where
  | entry (at_ : Location) (e : Entry)
  | vacant (dir : Location) (name : List Char)
deriving DecidableEq, Repr

/-- Where a path ends. It asks for a directory if it, or a link that its end leads through, ends
in a slash. -/
structure Arrival where
  target : Target
  asksDirectory : Bool
deriving DecidableEq, Repr

/-- How many links one path may lead through. -/
def linkLimit : Nat := 40

/-- How many bytes a name may have. -/
def nameLimit : Nat := 255

/-- How many bytes a path may have, less one. -/
def pathLimit : Nat := 4096

/-- The names of a path; empty parts say nothing. -/
def names (p : Path) : List (List Char) :=
  (Path.split p.chars).filter (· ≠ [])

def endsInSlash (p : Path) : Bool := p.chars.getLast? == some '/'

/-- The directory a path starts from, given the one relative paths start from. -/
def startOf (p : Path) (here : Location) : Location :=
  if p.isAbsolute then [] else here

/-- Follows names from the directory `dir`. A link on the way is handed to `jump` with the
directory it lies in and the names behind it; a link at the end is, when `followLast` is
set. -/
def walkNames (fs : FileSystem)
    (jump : Location → Path → List (List Char) → Except IoError Arrival)
    (followLast asksDirectory : Bool) (dir : Location) :
    List (List Char) → Except IoError Arrival
  | [] =>
      match fs.get? dir with
      | none => .error .notFound
      | some e => .ok ⟨.entry dir e, asksDirectory⟩
  | name :: rest =>
      match fs.get? dir with
      | none => .error .notFound
      | some e =>
          if !e.isDirectory then .error .notADirectory
          else if !e.searchable then .error .permissionDenied
          else if name = ['.'] then walkNames fs jump followLast asksDirectory dir rest
          else if name = ['.', '.'] then walkNames fs jump followLast asksDirectory dir.tail rest
          else if nameLimit < Path.byteLength name then .error .nameTooLong
          else
            match fs.get? (name :: dir) with
            | none =>
                if rest = [] then .ok ⟨.vacant dir name, asksDirectory⟩ else .error .notFound
            | some ⟨.link goal, mode⟩ =>
                if rest = [] ∧ !followLast then
                  .ok ⟨.entry (name :: dir) ⟨.link goal, mode⟩, asksDirectory⟩
                else jump dir goal rest
            | some child =>
                if rest = [] then .ok ⟨.entry (name :: dir) child, asksDirectory⟩
                else walkNames fs jump followLast asksDirectory (name :: dir) rest

def walk (fs : FileSystem) (followLast : Bool) : Nat → Bool → Location → List (List Char) →
    Except IoError Arrival
  | 0, asksDirectory =>
      walkNames fs (fun _ _ _ => .error .tooManyLinks) followLast asksDirectory
  | links + 1, asksDirectory =>
      walkNames fs
        (fun dir goal rest =>
          walk fs followLast links (asksDirectory || (rest.isEmpty && endsInSlash goal))
            (startOf goal dir) (names goal ++ rest))
        followLast asksDirectory

/-- Where a path ends; a link at its end is followed when `followLast` is set. -/
def arrive (fs : FileSystem) (followLast : Bool) (p : Path) : Except IoError Arrival :=
  if '\x00' ∈ p.chars then .error .nulInName
  else if p.chars = [] then .error .notFound
  else if pathLimit ≤ Path.byteLength p.chars then .error .nameTooLong
  else walk fs followLast linkLimit (endsInSlash p) (startOf p fs.here) (names p)

/-- The entry where a path ends, with its location; it is a directory if the path asks for
one. -/
def lookupLink (fs : FileSystem) (followLast : Bool) (p : Path) :
    Except IoError (Location × Entry) :=
  match fs.arrive followLast p with
  | .error e => .error e
  | .ok ⟨.vacant _ _, _⟩ => .error .notFound
  | .ok ⟨.entry loc e, asksDirectory⟩ =>
      if asksDirectory && !e.isDirectory then .error .notADirectory else .ok (loc, e)

def lookup (fs : FileSystem) (p : Path) : Except IoError (Location × Entry) :=
  fs.lookupLink true p

def isDirectory (fs : FileSystem) (p : Path) : Bool :=
  match fs.lookup p with
  | .ok (_, e) => e.isDirectory
  | .error _ => false

/-- Whether names may be added to and removed from a directory. -/
def mayChange (fs : FileSystem) (dir : Location) : Bool :=
  (fs.get? dir).any Entry.writable

end FileSystem

end PluginKit
