import PluginKit.Yaml.Token

/-!
# Names, tags and directives

The names of anchors and aliases, the tags of nodes, and the directives that may stand before a
document. A tag is a handle with a suffix, or a whole name between angle brackets; in it a
percent sign starts a byte written as two hexadecimal digits.
-/

namespace PluginKit

namespace Yaml

def readName (what : Activity) (c : Cursor) : Except Problem (List Char × Cursor) :=
  let (name, left) := c.next.span isNameChar
  let x := left.peek
  if name.isEmpty || !(endsWord x || ['?', ':', ',', ']', '}', '%', '@', '\x60'].contains x) then
    left.fail .anchorName (some (what, c.mark))
  else .ok (name, left)

namespace TagSource

/-- Whether a character may stand in a suffix; inside angle brackets some more may. -/
def isSuffixChar (bracketed : Bool) (c : Char) : Bool :=
  isNameChar c ||
    [';', '/', '?', ':', '@', '&', '=', '+', '$', '.', '%', '!', '~', '*', '\'', '(', ')'].contains
      c ||
    (bracketed && [',', '[', ']'].contains c)

def octet (c : Char) : UInt8 :=
  UInt8.ofNat c.toNat

/-- How many bytes a character has whose first byte is given; zero if none starts so. -/
def sequenceLength (lead : UInt8) : Nat :=
  if lead &&& 0x80 = 0 then 1
  else if lead &&& 0xE0 = 0xC0 then 2
  else if lead &&& 0xF0 = 0xE0 then 3
  else if lead &&& 0xF8 = 0xF0 then 4
  else 0

def readOctet (during : Activity × Mark) (c : Cursor) : Except Problem (UInt8 × Cursor) :=
  match c.rest with
  | '%' :: high :: low :: _ =>
      match hexValue? high, hexValue? low with
      | some high, some low => .ok (UInt8.ofNat (16 * high + low), c.skip 3)
      | _, _ => c.fail .uriEscape (some during)
  | _ => c.fail .uriEscape (some during)

def readTrailing (during : Activity × Mark) : Nat → Cursor → Except Problem (Octets × Cursor)
  | 0, c => .ok ([], c)
  | n + 1, c => do
      let (byte, left) ← readOctet during c
      if byte &&& 0xC0 = 0x80 then
        let (bytes, left) ← readTrailing during n left
        .ok (byte :: bytes, left)
      else c.fail .uriTrailingOctet (some during)

def readEscapes (during : Activity × Mark) (c : Cursor) : Except Problem (Octets × Cursor) := do
  let (byte, left) ← readOctet during c
  match sequenceLength byte with
  | 0 => c.fail .uriLeadingOctet (some during)
  | n + 1 =>
      let (bytes, left) ← readTrailing during n left
      .ok (byte :: bytes, left)

/-- Reads the characters of a suffix; `fuel` bounds their number. -/
def readSuffixChars (during : Activity × Mark) (bracketed : Bool) :
    Nat → Cursor → Except Problem (Octets × Cursor)
  | 0, c => .ok ([], c)
  | fuel + 1, c =>
      if !isSuffixChar bracketed c.peek then .ok ([], c)
      else do
        let (bytes, left) ←
          if c.peek = '%' then readEscapes during c else .ok ([octet c.peek], c.next)
        let (more, left) ← readSuffixChars during bracketed fuel left
        .ok (bytes ++ more, left)

/-- Reads a suffix behind the beginning of one that has been read as a handle. A byte zero ends
what counts of it. -/
def readSuffix (during : Activity × Mark) (bracketed : Bool) (handle : List Char) (c : Cursor) :
    Except Problem (Octets × Cursor) := do
  let (bytes, left) ← readSuffixChars during bracketed c.rest.length c
  if handle.isEmpty && c.rest.length == left.rest.length then left.fail .tagUri (some during)
  else .ok (((handle.drop 1).map octet ++ bytes).takeWhile (· != 0), left)

/-- Reads a handle: an exclamation mark, a name and perhaps a second exclamation mark. -/
def readHandle (during : Activity × Mark) (c : Cursor) : Except Problem (List Char × Cursor) :=
  if c.peek = '!' then
    let (name, left) := c.next.span isNameChar
    if left.peek = '!' then .ok ('!' :: name ++ ['!'], left.next) else .ok ('!' :: name, left)
  else c.fail .tagBang (some during)

def isClosed (handle : List Char) : Bool :=
  decide (1 < handle.length) && handle.getLast? == some '!'

def readParts (c : Cursor) : Except Problem (TagSource × Cursor) := do
  let start := c.mark
  if c.peekAt 1 = '<' then
    let (suffix, left) ← readSuffix (.tagName, start) true [] (c.skip 2)
    if left.peek = '>' then .ok (⟨[], suffix⟩, left.next)
    else left.fail .tagAngle (some (.tag, start))
  else
    let (handle, left) ← readHandle (.tag, start) c
    if isClosed handle then
      let (suffix, left) ← readSuffix (.tagName, start) false [] left
      .ok (⟨handle, suffix⟩, left)
    else
      let (suffix, left) ← readSuffix (.tagName, start) false handle left
      if suffix.isEmpty then .ok (⟨[], [octet '!']⟩, left) else .ok (⟨['!'], suffix⟩, left)

def read (inFlow : Bool) (c : Cursor) : Except Problem (TagSource × Cursor) := do
  let (source, left) ← readParts c
  if (inFlow && left.peek == ',') || endsWord left.peek then .ok (source, left)
  else left.fail .tagEnd (some (.tag, c.mark))

end TagSource

namespace Directive

/-- Reads a number of at most nine digits. -/
def readNumber (start : Mark) (c : Cursor) : Except Problem (Nat × Cursor) :=
  let (digits, left) := c.span Char.isDigit
  if digits.isEmpty then left.fail .versionNumber (some (.versionDirective, start))
  else if 9 < digits.length then
    (c.skip 9).fail .longVersion (some (.versionDirective, start))
  else .ok (digits.foldl (fun n d => 10 * n + (d.toNat - '0'.toNat)) 0, left)

def readVersion (start : Mark) (c : Cursor) : Except Problem (TokenKind × Cursor) := do
  let (major, c) ← readNumber start (c.skipWhile isGap)
  if c.peek = '.' then
    let (minor, c) ← readNumber start c.next
    .ok (.version major minor, c)
  else c.fail .versionDot (some (.versionDirective, start))

def readTagHandle (start : Mark) (c : Cursor) : Except Problem (TokenKind × Cursor) := do
  let (handle, c) ← TagSource.readHandle (.tagDirectiveHandle, start) (c.skipWhile isGap)
  if handle ≠ ['!'] ∧ ¬ TagSource.isClosed handle then
    c.fail .tagBang (some (.tagDirectiveName, start))
  else if ¬ isGap c.peek then c.fail .tagGap (some (.tagDirective, start))
  else
    let (lead, c) ← TagSource.readSuffix (.tagDirectiveLead, start) true [] (c.skipWhile isGap)
    if endsWord c.peek then .ok (.tagHandle handle lead, c)
    else c.fail .tagEnd (some (.tagDirective, start))

/-- Reads the directive that starts here, and the rest of its line; also where it ends. -/
def read (c : Cursor) : Except Problem (TokenKind × Mark × Cursor) := do
  let start := c.mark
  let (name, c) := c.next.span isNameChar
  if name.isEmpty then c.fail .directiveName (some (.directive, start))
  else if ¬ endsWord c.peek then c.fail .directiveNameEnd (some (.directive, start))
  else
    let (kind, c) ←
      if name = "YAML".toList then readVersion start c
      else if name = "TAG".toList then readTagHandle start c
      else c.fail .unknownDirective (some (.directive, start))
    let stop := c.mark
    let c := c.skipToLineEnd
    if endsLine c.peek then .ok (kind, stop, c.skipBreak)
    else c.fail .directiveEnd (some (.directive, start))

end Directive

end Yaml

end PluginKit
