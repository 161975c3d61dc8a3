import PluginKit.Yaml.Problem

/-!
# A position in a YAML text

A text is read as characters in which every line break is one character: `normalize` gives the
pairs and the single characters that end a line the form of the line feed. The separators of
lines and of paragraphs end a line too and keep their form.

A position is what is left of the text together with its place. The end of a text shows as the
character NUL, which no text may hold.
-/

namespace PluginKit

namespace Yaml

def isPermitted (c : Char) : Bool :=
  let n := c.toNat
  n == 0x09 || n == 0x0A || n == 0x0D || (0x20 ≤ n && n ≤ 0x7E) || n == 0x85 ||
    (0xA0 ≤ n && n ≤ 0xD7FF) || (0xE000 ≤ n && n ≤ 0xFFFD && n != 0xFEFF) || 0x10000 ≤ n

/-- The offset in bytes of the first character that no text may hold; `offset` is that of the
start of the given characters. -/
def firstForbidden? : Nat → List Char → Option Nat
  | _, [] => none
  | offset, c :: rest =>
      if isPermitted c then firstForbidden? (offset + c.utf8Size) rest else some offset

def byteOrderMark : Char := '\uFEFF'

/-- The text with every line break as one character. -/
def normalize : List Char → List Char
  | [] => []
  | '\r' :: '\n' :: rest => '\n' :: normalize rest
  | c :: rest => (if c = '\r' ∨ c = '\u0085' then '\n' else c) :: normalize rest

def isBreak (c : Char) : Bool :=
  c == '\n' || c == '\u2028' || c == '\u2029'

def isGap (c : Char) : Bool :=
  c == ' ' || c == '\t'

def endsLine (c : Char) : Bool :=
  isBreak c || c == '\x00'

def endsWord (c : Char) : Bool :=
  isGap c || endsLine c

def isNameChar (c : Char) : Bool :=
  c.isAlphanum || c == '-' || c == '_'

def isFlowIndicator (c : Char) : Bool :=
  c == ',' || c == '[' || c == ']' || c == '{' || c == '}'

def hexValue? (c : Char) : Option Nat :=
  if c.isDigit then some (c.toNat - '0'.toNat)
  else if 'a' ≤ c ∧ c ≤ 'f' then some (c.toNat - 'a'.toNat + 10)
  else if 'A' ≤ c ∧ c ≤ 'F' then some (c.toNat - 'A'.toNat + 10)
  else none

def Mark.after (m : Mark) (c : Char) : Mark :=
  if isBreak c then ⟨m.line + 1, 0⟩ else ⟨m.line, m.column + 1⟩

def first (text : List Char) : Char :=
  text.headD '\x00'

def nth (text : List Char) (n : Nat) : Char :=
  first (text.drop n)

/-- Whether a line that starts here is a document marker: three dashes or three dots that stand
alone. -/
def startsMarker (text : List Char) : Bool :=
  match text with
  | '-' :: '-' :: '-' :: rest => endsWord (first rest)
  | '.' :: '.' :: '.' :: rest => endsWord (first rest)
  | _ => false

structure Cursor where
  rest : List Char
  mark : Mark := {}
deriving DecidableEq, Repr

namespace Cursor

def peek (c : Cursor) : Char :=
  first c.rest

def peekAt (c : Cursor) (n : Nat) : Char :=
  nth c.rest n

def next (c : Cursor) : Cursor :=
  match c.rest with
  | [] => c
  | x :: rest => ⟨rest, c.mark.after x⟩

def skip (c : Cursor) : Nat → Cursor
  | 0 => c
  | n + 1 => c.next.skip n

def spanFrom (p : Char → Bool) : List Char → Mark → List Char × Cursor
  | [], m => ([], ⟨[], m⟩)
  | x :: rest, m =>
      if p x then
        let (taken, c) := spanFrom p rest (m.after x)
        (x :: taken, c)
      else ([], ⟨x :: rest, m⟩)

def span (p : Char → Bool) (c : Cursor) : List Char × Cursor :=
  spanFrom p c.rest c.mark

def skipWhile (p : Char → Bool) (c : Cursor) : Cursor :=
  (c.span p).2

/-- The position behind the gaps and the comment that may end a line. -/
def skipToLineEnd (c : Cursor) : Cursor :=
  let c := c.skipWhile isGap
  if c.peek == '#' then c.skipWhile fun x => !endsLine x else c

def skipBreak (c : Cursor) : Cursor :=
  if isBreak c.peek then c.next else c

def fail {α : Type} (c : Cursor) (what : Fault) (during : Option (Activity × Mark)) :
    Except Problem α :=
  .error (.fault what c.mark during)

end Cursor

end Yaml

end PluginKit
