import PluginKit.Path

/-!
# File systems

A file system is a finite table from locations to entries. A location is the list of names
from the entry up to the root, so a directory has exactly one location, however many paths
lead to it, and two paths name the same directory when they lead to the same location.
-/

namespace PluginKit

/-- The names from an entry up to the root, its own name first. The root is `[]`. -/
abbrev Location := List (List Char)

namespace FileSystem

/-- What an entry is. A socket may have somebody listening on it. -/
inductive Kind where
  | directory
  | file (content : List UInt8)
  | link (target : Path)
  | socket (listener : Option Nat)
deriving DecidableEq, Repr

structure Entry where
  kind : Kind
  mode : Nat
deriving DecidableEq, Repr

namespace Entry

def isDirectory (e : Entry) : Bool := e.kind == .directory

def readable (e : Entry) : Bool := e.mode.testBit 8

def writable (e : Entry) : Bool := e.mode.testBit 7

def searchable (e : Entry) : Bool := e.mode.testBit 6

end Entry

end FileSystem

/-- The entries below a root, the directory that relative paths start from, and the permission
bits that new entries do not get. -/
structure FileSystem where
  entries : List (Location × FileSystem.Entry)
  here : Location
  umask : Nat
deriving DecidableEq, Repr

namespace FileSystem

def get? (fs : FileSystem) (loc : Location) : Option Entry :=
  (fs.entries.find? fun item => item.1 == loc).map Prod.snd

def put (fs : FileSystem) (loc : Location) (e : Entry) : FileSystem :=
  { fs with entries := (loc, e) :: fs.entries.filter fun item => item.1 != loc }

def erase (fs : FileSystem) (loc : Location) : FileSystem :=
  { fs with entries := fs.entries.filter fun item => item.1 != loc }

/-- The table without the entry at a location and all that lies below it. -/
def eraseTree (fs : FileSystem) (loc : Location) : FileSystem :=
  { fs with entries := fs.entries.filter fun item => !loc.isSuffixOf item.1 }

/-- The bits a new entry gets when `mode` is asked for. -/
def granted (fs : FileSystem) (mode : Nat) : Nat :=
  mode &&& (0o777 ^^^ (fs.umask &&& 0o777))

def isDirectoryAt (fs : FileSystem) (loc : Location) : Bool :=
  (fs.get? loc).any Entry.isDirectory

def children (fs : FileSystem) (loc : Location) : List (List Char × Entry) :=
  fs.entries.filterMap fun (place, e) =>
    match place with
    | [] => none
    | name :: parent => if parent == loc then some (name, e) else none

/-- A root that nobody may change, a directory for everybody, and an empty directory in it to
work in. -/
def fresh : FileSystem where
  entries :=
    [([], ⟨.directory, 0o555⟩), (["tmp".toList], ⟨.directory, 0o777⟩),
      (["work".toList, "tmp".toList], ⟨.directory, 0o755⟩)]
  here := ["work".toList, "tmp".toList]
  umask := 0o022

@[simp] theorem get?_put_self (fs : FileSystem) (loc : Location) (e : Entry) :
    (fs.put loc e).get? loc = some e := by
  simp [get?, put]

theorem find?_filter_ne (entries : List (Location × Entry)) {loc other : Location}
    (h : other ≠ loc) :
    (entries.filter fun item => item.1 != loc).find? (fun item => item.1 == other) =
      entries.find? fun item => item.1 == other := by
  induction entries with
  | nil => rfl
  | cons head rest ih =>
      by_cases hl : head.1 = loc
      · have hother : ¬ loc = other := fun heq => h heq.symm
        simp [hl, hother, ih]
      · by_cases ho : head.1 = other
        · simp [ho, h]
        · simp [hl, ho, ih]

theorem get?_put_of_ne (fs : FileSystem) {loc other : Location} (e : Entry) (h : other ≠ loc) :
    (fs.put loc e).get? other = fs.get? other := by
  have hother : ¬ loc = other := fun heq => h heq.symm
  simp [get?, put, hother, find?_filter_ne fs.entries h]

@[simp] theorem get?_erase_self (fs : FileSystem) (loc : Location) :
    (fs.erase loc).get? loc = none := by
  simp [get?, erase]

theorem get?_erase_of_ne (fs : FileSystem) {loc other : Location} (h : other ≠ loc) :
    (fs.erase loc).get? other = fs.get? other := by
  simp [get?, erase, find?_filter_ne fs.entries h]

end FileSystem

end PluginKit
