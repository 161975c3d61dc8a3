import PluginKit.Text.Hidden

/-!
# Quoted text

The way diagnostics show a text: between double quotes, with the quote, the backslash and
every character without a visible form spelled as an escape. Paths are shown the same way,
except that they escape the single quote too.
-/

namespace PluginKit

namespace Text

/-- Which quotes a quoted form escapes besides the backslash. -/
structure QuoteStyle where
  escapesSingle : Bool
  escapesDouble : Bool

/-- Texts escape the double quote only. -/
def QuoteStyle.text : QuoteStyle := ⟨false, true⟩

/-- Paths escape both quotes. -/
def QuoteStyle.path : QuoteStyle := ⟨true, true⟩

def hexDigits (n : Nat) : List Char :=
  (Nat.toDigits 16 n)

def escapeChar (style : QuoteStyle) (c : Char) : List Char :=
  if c = '\t' then ['\\', 't']
  else if c = '\n' then ['\\', 'n']
  else if c = '\r' then ['\\', 'r']
  else if c = '\x00' then ['\\', '0']
  else if c = '\\' then ['\\', '\\']
  else if c = '"' ∧ style.escapesDouble then ['\\', '"']
  else if c = '\'' ∧ style.escapesSingle then ['\\', '\'']
  else if isHidden c then ['\\', 'u', '{'] ++ hexDigits c.toNat ++ ['}']
  else [c]

def quoted (style : QuoteStyle) (text : List Char) : List Char :=
  '"' :: text.flatMap (escapeChar style) ++ ['"']

def quote (text : String) : String :=
  String.ofList (quoted .text text.toList)

def quotePath (text : String) : String :=
  String.ofList (quoted .path text.toList)

end Text

end PluginKit
