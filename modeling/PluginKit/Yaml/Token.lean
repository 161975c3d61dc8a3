import PluginKit.Yaml.Cursor

/-!
# Tokens of a YAML text

A token is an indicator or a piece of text, with the places where it starts and ends. Tokens
that no character stands for, such as the end of a block collection, start where they end.
-/

namespace PluginKit

namespace Yaml

/-- The bytes of a tag, which escapes may leave without a text. -/
abbrev Octets := List UInt8

inductive ScalarStyle where
  | plain
  | singleQuoted
  | doubleQuoted
  | literal
  | folded
deriving DecidableEq, Repr

/-- A tag as written: the handle that stands for a lead, and what follows it. -/
structure TagSource where
  handle : List Char
  suffix : Octets
deriving DecidableEq, Repr

inductive TokenKind where
  | streamStart
  | streamEnd
  | version (major minor : Nat)
  | tagHandle (handle : List Char) (lead : Octets)
  | documentStart
  | documentEnd
  | blockSequenceStart
  | blockMappingStart
  | blockEnd
  | flowSequenceStart
  | flowSequenceEnd
  | flowMappingStart
  | flowMappingEnd
  | blockEntry
  | flowEntry
  | key
  | value
  | aliasTo (name : List Char)
  | anchor (name : List Char)
  | tag (source : TagSource)
  | scalar (text : List Char) (style : ScalarStyle)
deriving DecidableEq, Repr

structure Token where
  kind : TokenKind
  start : Mark
  stop : Mark
deriving DecidableEq, Repr

end Yaml

end PluginKit
