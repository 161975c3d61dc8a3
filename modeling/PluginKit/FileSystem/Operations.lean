import PluginKit.FileSystem.Walk

/-!
# Operations on files, directories and sockets

Each operation answers with the file system it leaves behind. One that fails leaves it as it
was, except that creating a directory together with its ancestors keeps the ancestors it made.
-/

namespace PluginKit

namespace FileSystem

abbrev Outcome := FileSystem × Except IoError Unit

def create (fs : FileSystem) (dir : Location) (name : List Char) (e : Entry) :
    Except IoError FileSystem :=
  if fs.mayChange dir then .ok (fs.put (name :: dir) e) else .error .permissionDenied

def makeDirectory (fs : FileSystem) (mode : Nat) (p : Path) : Except IoError FileSystem :=
  match fs.arrive false p with
  | .error e => .error e
  | .ok ⟨.entry _ _, _⟩ => .error .alreadyExists
  | .ok ⟨.vacant dir name, _⟩ => fs.create dir name ⟨.directory, fs.granted mode⟩

/-- Creates a directory, the missing ones above it first; `above` are the paths of the
directories above it, the nearest first. A directory that exists already is fine. -/
def makeDirectoriesFrom (mode : Nat) (fs : FileSystem) (p : Path) : List Path → Outcome
  | [] =>
      match fs.makeDirectory mode p with
      | .ok fs' => (fs', .ok ())
      | .error e => (fs, if fs.isDirectory p then .ok () else .error e)
  | parent :: above =>
      match fs.makeDirectory mode p with
      | .ok fs' => (fs', .ok ())
      | .error .notFound =>
          match makeDirectoriesFrom mode fs parent above with
          | (fs', .error e) => (fs', .error e)
          | (fs', .ok ()) =>
              match fs'.makeDirectory mode p with
              | .ok fs'' => (fs'', .ok ())
              | .error e => (fs', if fs'.isDirectory p then .ok () else .error e)
      | .error e => (fs, if fs.isDirectory p then .ok () else .error e)

/-- The paths of the directories above a path, the nearest first, as long as they name
something. -/
def ancestors (fuel : Nat) (p : Path) : List Path :=
  match fuel with
  | 0 => []
  | fuel + 1 =>
      match p.parent? with
      | none => []
      | some parent => if parent.chars = [] then [] else parent :: ancestors fuel parent

/-- Creates a directory and all missing ones above it. The empty path needs nothing. -/
def makeDirectories (fs : FileSystem) (mode : Nat) (p : Path) : Outcome :=
  if p.chars = [] then (fs, .ok ())
  else makeDirectoriesFrom mode fs p (ancestors p.chars.length p)

/-- Makes an entry other than a directory at a free path; `taken` is what is wrong where there is
an entry. -/
def createAt (fs : FileSystem) (p : Path) (e : Entry) (taken : IoError) :
    Except IoError FileSystem :=
  match fs.arrive false p with
  | .error e => .error e
  | .ok ⟨.entry _ _, _⟩ => .error taken
  | .ok ⟨.vacant dir name, asksDirectory⟩ =>
      if asksDirectory then .error .notFound else fs.create dir name e

/-- Writes a whole file, through links, creating it where it is missing. -/
def writeFile (fs : FileSystem) (p : Path) (content : List UInt8) : Except IoError FileSystem :=
  match fs.arrive (!endsInSlash p) p with
  | .error e => .error e
  | .ok ⟨_, true⟩ => .error .isADirectory
  | .ok ⟨.vacant dir name, false⟩ => fs.create dir name ⟨.file content, fs.granted 0o666⟩
  | .ok ⟨.entry loc e, false⟩ =>
      if e.isDirectory then .error .isADirectory
      else if !e.writable then .error .permissionDenied
      else
        match e.kind with
        | .socket _ => .error .noSuchDevice
        | _ => .ok (fs.put loc ⟨.file content, e.mode⟩)

def readFile (fs : FileSystem) (p : Path) : Except IoError (List UInt8) :=
  match fs.lookup p with
  | .error e => .error e
  | .ok (_, e) =>
      if !e.readable then .error .permissionDenied
      else
        match e.kind with
        | .file content => .ok content
        | .directory => .error .isADirectory
        | _ => .error .noSuchDevice

/-- Makes a link at `p` that leads to `goal`. -/
def makeLink (fs : FileSystem) (goal p : Path) : Except IoError FileSystem :=
  if '\x00' ∈ goal.chars then .error .nulInName
  else if goal.chars = [] then .error .notFound
  else fs.createAt p ⟨.link goal, 0o777⟩ .alreadyExists

/-- Removes an entry that is no directory; a link itself, not what it leads to. -/
def unlink (fs : FileSystem) (p : Path) : Except IoError FileSystem :=
  match fs.lookupLink false p with
  | .error e => .error e
  | .ok (loc, e) =>
      if !fs.mayChange loc.tail then .error .permissionDenied
      else if e.isDirectory then .error .isADirectory
      else .ok (fs.erase loc)

/-- Whether everything below a directory may be removed. -/
def removable (fs : FileSystem) (loc : Location) : Bool :=
  fs.entries.all fun (place, e) =>
    !(loc.isSuffixOf place && e.isDirectory) ||
      (e.readable && (fs.children place == [] || (e.writable && e.searchable)))

/-- Removes an entry; a directory with all that lies below it. -/
def remove (fs : FileSystem) (p : Path) : Except IoError FileSystem :=
  match fs.lookupLink (endsInSlash p) p with
  | .error e => .error e
  | .ok (loc, _) =>
      if !fs.mayChange loc.tail || !fs.removable loc then .error .permissionDenied
      else .ok (fs.eraseTree loc)

def setMode (fs : FileSystem) (p : Path) (mode : Nat) : Except IoError FileSystem :=
  match fs.lookup p with
  | .error e => .error e
  | .ok (loc, e) => .ok (fs.put loc { e with mode := mode })

/-- How many bytes the path of a socket may have, less one. -/
def socketPathLimit : Nat := 108

/-- What is wrong with a path as the address of a socket, whatever exists. -/
def socketPathError? (p : Path) : Option IoError :=
  if '\x00' ∈ p.chars then some .nulInSocketPath
  else if socketPathLimit ≤ Path.byteLength p.chars then some .socketPathTooLong
  else none

/-- Makes a socket at a free path, with `listener` listening on it. Without a path the system
picks an address that no path leads to. -/
def bindSocket (fs : FileSystem) (p : Path) (listener : Option Nat) :
    Except IoError FileSystem :=
  match socketPathError? p with
  | some e => .error e
  | none =>
      if p.chars = [] then .ok fs
      else fs.createAt p ⟨.socket listener, fs.granted 0o777⟩ .addressInUse

/-- The listener that a connection to a path reaches, before it is known whether that one
still listens. -/
def connect (fs : FileSystem) (p : Path) : Except IoError Nat :=
  match socketPathError? p with
  | some e => .error e
  | none =>
      if p.chars = [] then .error .invalidArgument
      else
        match fs.lookup p with
        | .error e => .error e
        | .ok (_, e) =>
            if !e.writable then .error .permissionDenied
            else
              match e.kind with
              | .socket (some listener) => .ok listener
              | _ => .error .connectionRefused

end FileSystem

end PluginKit
