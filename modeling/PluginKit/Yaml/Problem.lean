/-!
# Faults of a YAML text

What can be wrong with a YAML text, the activity that found it, and how both are told with
their places.
-/

namespace PluginKit

namespace Yaml

/-- A place in a text; lines and columns count from zero. -/
structure Mark where
  line : Nat := 0
  column : Nat := 0
deriving DecidableEq, Repr

namespace Mark

def isOrigin (m : Mark) : Bool :=
  m.line == 0 && m.column == 0

/-- A place as diagnostics tell it, counted from one; the start of a text is not told. -/
def note (m : Mark) : String :=
  if m.isOrigin then "" else
    " at line " ++ toString (m.line + 1) ++ " column " ++ toString (m.column + 1)

end Mark

inductive Fault where
  | keyWithoutColon
  | entryNotAllowed
  | keyNotAllowed
  | valueNotAllowed
  | badTokenStart
  | directiveName
  | directiveNameEnd
  | unknownDirective
  | directiveEnd
  | versionDot
  | longVersion
  | versionNumber
  | tagGap
  | tagEnd
  | anchorName
  | tagBang
  | tagAngle
  | tagUri
  | uriEscape
  | uriLeadingOctet
  | uriTrailingOctet
  | zeroIndentation
  | blockHeaderEnd
  | tabAsIndentation
  | documentInsideQuotes
  | endInsideQuotes
  | unknownEscape
  | hexDigit
  | invalidCharacter
  | colonInFlow
  | tabInIndentation
  | documentStart
  | repeatedVersion
  | incompatibleVersion
  | repeatedTagHandle
  | unknownTagHandle
  | nodeContent
  | blockEntry
  | blockKey
  | flowSequenceEntry
  | flowMappingEntry
deriving DecidableEq, Repr

def Fault.text : Fault → String
  | keyWithoutColon => "could not find expected ':'"
  | entryNotAllowed => "block sequence entries are not allowed in this context"
  | keyNotAllowed => "mapping keys are not allowed in this context"
  | valueNotAllowed => "mapping values are not allowed in this context"
  | badTokenStart => "found character that cannot start any token"
  | directiveName => "could not find expected directive name"
  | directiveNameEnd => "found unexpected non-alphabetical character"
  | unknownDirective => "found unknown directive name"
  | directiveEnd => "did not find expected comment or line break"
  | versionDot => "did not find expected digit or '.' character"
  | longVersion => "found extremely long version number"
  | versionNumber => "did not find expected version number"
  | tagGap => "did not find expected whitespace"
  | tagEnd => "did not find expected whitespace or line break"
  | anchorName => "did not find expected alphabetic or numeric character"
  | tagBang => "did not find expected '!'"
  | tagAngle => "did not find the expected '>'"
  | tagUri => "did not find expected tag URI"
  | uriEscape => "did not find URI escaped octet"
  | uriLeadingOctet => "found an incorrect leading UTF-8 octet"
  | uriTrailingOctet => "found an incorrect trailing UTF-8 octet"
  | zeroIndentation => "found an indentation indicator equal to 0"
  | blockHeaderEnd => "did not find expected comment or line break"
  | tabAsIndentation => "found a tab character where an indentation space is expected"
  | documentInsideQuotes => "found unexpected document indicator"
  | endInsideQuotes => "found unexpected end of stream"
  | unknownEscape => "found unknown escape character"
  | hexDigit => "did not find expected hexdecimal number"
  | invalidCharacter => "found invalid Unicode character escape code"
  | colonInFlow => "found unexpected ':'"
  | tabInIndentation => "found a tab character that violates indentation"
  | documentStart => "did not find expected <document start>"
  | repeatedVersion => "found duplicate %YAML directive"
  | incompatibleVersion => "found incompatible YAML document"
  | repeatedTagHandle => "found duplicate %TAG directive"
  | unknownTagHandle => "found undefined tag handle"
  | nodeContent => "did not find expected node content"
  | blockEntry => "did not find expected '-' indicator"
  | blockKey => "did not find expected key"
  | flowSequenceEntry => "did not find expected ',' or ']'"
  | flowMappingEntry => "did not find expected ',' or '\x7d'"

inductive Activity where
  | simpleKey
  | nextToken
  | directive
  | versionDirective
  | tagDirective
  | tagDirectiveHandle
  | tagDirectiveName
  | tagDirectiveLead
  | tag
  | tagName
  | anchor
  | aliasName
  | blockScalar
  | quotedScalar
  | quotedText
  | plainScalar
  | node
  | blockNode
  | flowNode
  | blockSequence
  | blockMapping
  | flowSequence
  | flowMapping
deriving DecidableEq, Repr

def Activity.text : Activity → String
  | simpleKey => "while scanning a simple key"
  | nextToken => "while scanning for the next token"
  | directive => "while scanning a directive"
  | versionDirective => "while scanning a %YAML directive"
  | tagDirective => "while scanning a %TAG directive"
  | tagDirectiveHandle => "while scanning a tag directive"
  | tagDirectiveName => "while parsing a tag directive"
  | tagDirectiveLead => "while parsing a %TAG directive"
  | tag => "while scanning a tag"
  | tagName => "while parsing a tag"
  | anchor => "while scanning an anchor"
  | aliasName => "while scanning an alias"
  | blockScalar => "while scanning a block scalar"
  | quotedScalar => "while scanning a quoted scalar"
  | quotedText => "while parsing a quoted scalar"
  | plainScalar => "while scanning a plain scalar"
  | node => "while parsing a node"
  | blockNode => "while parsing a block node"
  | flowNode => "while parsing a flow node"
  | blockSequence => "while parsing a block collection"
  | blockMapping => "while parsing a block mapping"
  | flowSequence => "while parsing a flow sequence"
  | flowMapping => "while parsing a flow mapping"

/-- Why a text is no YAML: it holds a character that no text may hold, at that many bytes from
its start, or there is a fault at a place, found during an activity that began at another. -/
inductive Problem where
  | controlCharacter (offset : Nat)
  | fault (what : Fault) (place : Mark) (during : Option (Activity × Mark))
deriving DecidableEq, Repr

/-- The wording of a problem. The start of the activity is told where it differs from the place
of the fault. -/
def Problem.message : Problem → String
  | controlCharacter offset =>
      "control characters are not allowed" ++
        (if offset = 0 then "" else " at position " ++ toString offset)
  | fault what place none => what.text ++ place.note
  | fault what place (some (activity, start)) =>
      what.text ++ place.note ++ ", " ++ activity.text ++
        (if start = place then "" else start.note)

end Yaml

end PluginKit
