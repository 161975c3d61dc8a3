import PluginKit.Yaml.Token.Fold

/-!
# Quoted scalars

Between single quotes a quote is written twice and nothing else is special; between double
quotes the backslash starts an escape. In both, line breaks are folded.
-/

namespace PluginKit

namespace Yaml

namespace QuotedScalar

/-- What an escape stands for: a character, or the character with a code of so many
hexadecimal digits. -/
inductive Escape where
  | char (c : Char)
  | code (digits : Nat)

def escape? : Char → Option Escape
  | '0' => some (.char '\x00')
  | 'a' => some (.char '\x07')
  | 'b' => some (.char '\x08')
  | 't' => some (.char '\t')
  | '\t' => some (.char '\t')
  | 'n' => some (.char '\n')
  | 'v' => some (.char '\x0b')
  | 'f' => some (.char '\x0c')
  | 'r' => some (.char '\r')
  | 'e' => some (.char '\x1b')
  | ' ' => some (.char ' ')
  | '"' => some (.char '"')
  | '/' => some (.char '/')
  | '\\' => some (.char '\\')
  | 'N' => some (.char '\u0085')
  | '_' => some (.char '\u00A0')
  | 'L' => some (.char '\u2028')
  | 'P' => some (.char '\u2029')
  | 'x' => some (.code 2)
  | 'u' => some (.code 4)
  | 'U' => some (.code 8)
  | _ => none

/-- What is being read: words and gaps, the second of two quotes, the character behind a
backslash that stands at a place, or the remaining digits of a code that starts at a place. -/
inductive Mode where
  | words (gap : Gap)
  | secondQuote
  | escape (backslash : Mark)
  | code (digits value : Nat) (start : Mark)

/-- Reads on in a mode from the place `m`, where `text` (the latest character first) has been
read; the quote at the end is the last character read. -/
def readFrom (quote : Char) (start : Mark) (text : List Char) (mode : Mode) (m : Mark) :
    List Char → Except Problem (List Char × Cursor)
  | [] =>
      match mode with
      | .escape backslash => .error (.fault .unknownEscape backslash (some (.quotedText, start)))
      | .code _ _ place => .error (.fault .hexDigit place (some (.quotedText, start)))
      | _ => .error (.fault .endInsideQuotes m (some (.quotedScalar, start)))
  | c :: rest =>
      match mode with
      | .secondQuote => readFrom quote start (c :: text) (.words {}) (m.after c) rest
      | .escape backslash =>
          if isBreak c then
            readFrom quote start text (.words .escapedBreak) (m.after c) rest
          else
            match escape? c with
            | none => .error (.fault .unknownEscape backslash (some (.quotedText, start)))
            | some (.char x) => readFrom quote start (x :: text) (.words {}) (m.after c) rest
            | some (.code digits) =>
                readFrom quote start text (.code digits 0 (m.after c)) (m.after c) rest
      | .code digits value place =>
          match hexValue? c with
          | none => .error (.fault .hexDigit place (some (.quotedText, start)))
          | some digit =>
              let value := 16 * value + digit
              if 1 < digits then
                readFrom quote start text (.code (digits - 1) value place) (m.after c) rest
              else if value.isValidChar then
                readFrom quote start (Char.ofNat value :: text) (.words {}) (m.after c) rest
              else .error (.fault .invalidCharacter place (some (.quotedText, start)))
      | .words gap =>
          if isGap c then readFrom quote start text (.words (gap.addBlank c)) (m.after c) rest
          else if isBreak c then
            readFrom quote start text (.words (gap.addBreak c)) (m.after c) rest
          else if m.column = 0 ∧ startsMarker (c :: rest) then
            .error (.fault .documentInsideQuotes m (some (.quotedScalar, start)))
          else
            let text := gap.folded ++ text
            if c = quote then
              if quote = '\'' ∧ first rest = quote then
                readFrom quote start text .secondQuote (m.after c) rest
              else .ok (text.reverse, ⟨rest, m.after c⟩)
            else if quote = '"' ∧ c = '\\' then
              readFrom quote start text (.escape m) (m.after c) rest
            else readFrom quote start (c :: text) (.words {}) (m.after c) rest

def read (c : Cursor) : Except Problem (List Char × Cursor) :=
  readFrom c.peek c.mark [] (.words {}) c.next.mark c.next.rest

end QuotedScalar

end Yaml

end PluginKit
