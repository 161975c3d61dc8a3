/-!
# Paths

A path is a text whose parts are separated by slashes. The functions here look at the text
alone: they never ask what exists. Empty parts and `.` parts carry no meaning, except that a
relative path may begin with `.`; `..` is kept, because what it names depends on symbolic
links.
-/

namespace PluginKit

structure Path where
  chars : List Char
deriving DecidableEq, Repr, Inhabited

namespace Path

inductive Component where
  | root
  | current
  | parent
  | normal (name : List Char)
deriving DecidableEq, Repr

def ofString (text : String) : Path := ⟨text.toList⟩

def toText (p : Path) : String := String.ofList p.chars

def here : Path := ⟨['.']⟩

/-- The parts of a text between its slashes; there is always at least one. -/
def split : List Char → List (List Char)
  | [] => [[]]
  | c :: rest =>
      if c = '/' then [] :: split rest
      else
        match split rest with
        | [] => [[c]]
        | part :: more => (c :: part) :: more

def unsplit : List (List Char) → List Char
  | [] => []
  | [part] => part
  | part :: more => part ++ '/' :: unsplit more

def isAbsolute (p : Path) : Bool := p.chars.head? == some '/'

/-- Whether a relative path begins with a `.` part of its own. -/
def startsHere (p : Path) : Bool :=
  p.chars == ['.'] || p.chars.take 2 == ['.', '/']

/-- How many characters stand before the parts: the root slash or the leading `.`. -/
def headLength (p : Path) : Nat :=
  if p.isAbsolute || p.startsHere then 1 else 0

def headComponent? (p : Path) : Option Component :=
  if p.isAbsolute then some .root
  else if p.startsHere then some .current
  else none

def parts (p : Path) : List (List Char) :=
  split (p.chars.drop p.headLength)

/-- Empty parts and `.` parts mean nothing. -/
def isFiller (part : List Char) : Bool :=
  part == [] || part == ['.']

def component? (part : List Char) : Option Component :=
  if isFiller part then none
  else if part = ['.', '.'] then some .parent
  else some (.normal part)

def components (p : Path) : List Component :=
  p.headComponent?.toList ++ p.parts.filterMap component?

def trimFillers (parts : List (List Char)) : List (List Char) :=
  (parts.reverse.dropWhile isFiller).reverse

/-- The path without its last component: nothing for the root and for the empty path. -/
def parent? (p : Path) : Option Path :=
  match (trimFillers p.parts).reverse with
  | [] => if p.startsHere && !p.isAbsolute then some ⟨[]⟩ else none
  | _ :: before =>
      some ⟨p.chars.take p.headLength ++ unsplit (trimFillers before.reverse)⟩

def fileName? (p : Path) : Option (List Char) :=
  match p.components.getLast? with
  | some (.normal name) => some name
  | _ => none

/-- The path `p` read in the directory `dir`: an absolute `p` stands alone. -/
def join (dir p : Path) : Path :=
  if p.isAbsolute then p
  else
    match dir.chars.getLast? with
    | none => p
    | some last =>
        if last = '/' then ⟨dir.chars ++ p.chars⟩ else ⟨dir.chars ++ '/' :: p.chars⟩

/-- The directory a path lies in, with `.` for a path that names none. -/
def directory (p : Path) : Path :=
  match p.parent? with
  | none => here
  | some dir => if dir.chars = [] then here else dir

def byteLength (chars : List Char) : Nat :=
  chars.foldl (fun n c => n + c.utf8Size) 0

theorem split_ne_nil (text : List Char) : split text ≠ [] := by
  cases text with
  | nil => simp [split]
  | cons c rest =>
      simp only [split]
      split
      · simp
      · split <;> simp

theorem unsplit_split (text : List Char) : unsplit (split text) = text := by
  induction text with
  | nil => rfl
  | cons c rest ih =>
      by_cases hc : c = '/'
      · subst hc
        cases hs : split rest with
        | nil => exact absurd hs (split_ne_nil rest)
        | cons part more =>
            simp [split, unsplit, hs] at ih ⊢
            exact ih
      · cases hs : split rest with
        | nil => exact absurd hs (split_ne_nil rest)
        | cons part more =>
            rw [hs] at ih
            cases more with
            | nil => simpa [split, hc, hs, unsplit] using ih
            | cons second more => simpa [split, hc, hs, unsplit] using ih

end Path

end PluginKit
