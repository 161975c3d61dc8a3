import PluginKit.Yaml.Event
import PluginKit.Yaml.Token.Stream

/-!
# From tokens to events

What may follow is kept as a stack of goals. Each step takes the goal on top, looks at the next
token, answers with one event, and leaves the goals that are to be met behind it. A goal for the
entries of a collection knows where the collection was opened.
-/

namespace PluginKit

namespace Yaml

inductive Goal where
  | stream
  | firstDocument
  | document
  | documentBody
  | documentEnd
  | blockNode
  | blockSequenceStart
  | blockEntry (opened : Mark)
  | indentlessEntry
  | blockMappingStart
  | blockKey (opened : Mark)
  | blockValue (opened : Mark)
  | flowSequenceStart
  | flowEntry (opened : Mark)
  | flowPairKey
  | flowPairValue
  | flowPairEnd
  | flowMappingStart
  | flowKey (opened : Mark)
  | flowValue (opened : Mark)
  | flowAbsentValue (opened : Mark)
deriving DecidableEq, Repr

structure Directives where
  hasVersion : Bool := false
  handles : List (List Char × Octets) := []

namespace Directives

/-- The handles that hold where no directive sets them. -/
def defaults : List (List Char × Octets) :=
  [(['!'], [TagSource.octet '!']), (['!', '!'], "tag:yaml.org,2002:".toUTF8.toList)]

/-- What a handle stands for. -/
def lookup? (d : Directives) (handle : List Char) : Option Octets :=
  (d.handles ++ defaults).lookup handle

end Directives

/-- The state of reading events: the tokens that are left, why they end, the directives of the
document, and the goals. -/
structure EventReader where
  tokens : List Token
  problem : Option Problem
  directives : Directives := {}
  goals : List Goal := [.stream]

namespace EventReader

def peek (r : EventReader) : Except Problem Token :=
  match r.tokens, r.problem with
  | t :: _, _ => .ok t
  | [], some problem => .error problem
  | [], none => .ok ⟨.streamEnd, {}, {}⟩

def skip (r : EventReader) : EventReader :=
  { r with tokens := r.tokens.tail }

def push (r : EventReader) (goals : List Goal) : EventReader :=
  { r with goals := goals ++ r.goals }

def fail {α : Type} (what : Fault) (place : Mark) (during : Option (Activity × Mark)) :
    Except Problem α :=
  .error (.fault what place during)

abbrev Step := Except Problem (Event × EventReader)

def emit (r : EventReader) (kind : EventKind) (m : Mark) : Step :=
  .ok (⟨kind, m⟩, r)

/-- Answers with a node that is left out. -/
def emitAbsent (r : EventReader) (m : Mark) : Step :=
  .ok (Event.absent {} m, r)

def readAnchor (r : EventReader) : Except Problem (Option (List Char) × EventReader) := do
  match (← r.peek).kind with
  | .anchor name => .ok (some name, r.skip)
  | _ => .ok (none, r)

def readTag (r : EventReader) : Except Problem (Option (TagSource × Mark) × EventReader) := do
  let t ← r.peek
  match t.kind with
  | .tag source => .ok (some (source, t.start), r.skip)
  | _ => .ok (none, r)

/-- The tag that a written one stands for, in a node that starts at a place. -/
def resolveTag (r : EventReader) (start : Mark) :
    Option (TagSource × Mark) → Except Problem (Option Octets)
  | none => .ok none
  | some (source, place) =>
      if source.handle.isEmpty then .ok (some source.suffix)
      else
        match r.directives.lookup? source.handle with
        | some lead => .ok (some (lead ++ source.suffix))
        | none => fail .unknownTagHandle place (some (.node, start))

/-- Reads the properties that may stand in front of a node, in either order. What a tag stands for
is looked up once the token behind it is there. -/
def readProperties (r : EventReader) (start : Mark) :
    Except Problem (Properties × EventReader) := do
  let (anchor, r) ← r.readAnchor
  let (tag, r) ← r.readTag
  let (anchor, r) ← if anchor.isNone && tag.isSome then r.readAnchor else .ok (anchor, r)
  let _ ← r.peek
  let tag ← r.resolveTag start tag
  .ok (⟨anchor, tag⟩, r)

/-- The tag of a scalar: that of a lone exclamation mark says nothing. -/
def scalarTag (tag : Option Octets) : Option Octets :=
  if tag = some [TagSource.octet '!'] then none else tag

/-- Meets a node. In the block style it may be a block collection; the entries of an indentless
sequence stand at the column of the mapping around it. -/
def node (r : EventReader) (block indentless : Bool) : Step := do
  let t ← r.peek
  let start := t.start
  match t.kind with
  | .aliasTo name => r.skip.emit (.aliasTo name) start
  | _ =>
      let (properties, r) ← r.readProperties start
      let t ← r.peek
      match t.kind, block with
      | .scalar text style, _ =>
          r.skip.emit (.scalar properties.anchor ⟨text, style, scalarTag properties.tag⟩) start
      | .flowSequenceStart, _ =>
          (r.push [.flowSequenceStart]).emit (.sequenceStart properties) start
      | .flowMappingStart, _ =>
          (r.push [.flowMappingStart]).emit (.mappingStart properties) start
      | .blockSequenceStart, true =>
          (r.push [.blockSequenceStart]).emit (.sequenceStart properties) start
      | .blockMappingStart, true =>
          (r.push [.blockMappingStart]).emit (.mappingStart properties) start
      | kind, _ =>
          if indentless ∧ kind = .blockEntry then
            (r.push [.indentlessEntry]).emit (.sequenceStart properties) start
          else if properties = {} then
            fail .nodeContent t.start (some (if block then .blockNode else .flowNode, start))
          else .ok (Event.absent properties start, r)

/-- Reads the directives in front of a document; `fuel` bounds their number. -/
def readDirectives (d : Directives) :
    Nat → EventReader → Except Problem (Directives × EventReader)
  | 0, r => .ok (d, r)
  | fuel + 1, r => do
      let t ← r.peek
      match t.kind with
      | .version major minor =>
          if d.hasVersion then fail .repeatedVersion t.start none
          else if major ≠ 1 ∨ (minor ≠ 1 ∧ minor ≠ 2) then fail .incompatibleVersion t.start none
          else readDirectives { d with hasVersion := true } fuel r.skip
      | .tagHandle handle lead =>
          if (d.handles.lookup handle).isSome then fail .repeatedTagHandle t.start none
          else readDirectives { d with handles := d.handles ++ [(handle, lead)] } fuel r.skip
      | _ => .ok (d, r)

def skipDocumentEnds (r : EventReader) : EventReader :=
  { r with tokens := r.tokens.dropWhile fun t => t.kind = .documentEnd }

/-- Meets the start of a document, or the end of the stream. Only the first document may start
without a marker. -/
def documentStart (r : EventReader) (mayBeBare : Bool) : Step := do
  let r := if mayBeBare then r else r.skipDocumentEnds
  let t ← r.peek
  match t.kind with
  | .streamEnd => r.skip.emit .streamEnd t.start
  | kind =>
      let isExplicit : Bool :=
        match kind with
        | .version _ _ | .tagHandle _ _ | .documentStart => true
        | _ => !mayBeBare
      if isExplicit then
        let start := t.start
        let (directives, r) ← readDirectives {} r.tokens.length r
        let t ← r.peek
        if t.kind = .documentStart then
          ({ r with directives := directives }.skip.push [.documentBody, .documentEnd]).emit
            .documentStart start
        else fail .documentStart t.start none
      else
        ({ r with directives := {} }.push [.blockNode, .documentEnd]).emit .documentStart t.start

/-- Meets the node of a document, which may be left out. -/
def documentBody (r : EventReader) : Step := do
  let t ← r.peek
  match t.kind with
  | .version _ _ | .tagHandle _ _ | .documentStart | .documentEnd | .streamEnd =>
      r.emitAbsent t.start
  | _ => r.node true false

def documentEnd (r : EventReader) : Step := do
  let t ← r.peek
  let r := if t.kind = .documentEnd then r.skip else r
  ({ r with directives := {} }.push [.document]).emit .documentEnd t.start

def blockEntry (r : EventReader) (opened : Mark) : Step := do
  let t ← r.peek
  match t.kind with
  | .blockEntry =>
      let r := r.skip.push [.blockEntry opened]
      match (← r.peek).kind with
      | .blockEntry | .blockEnd => r.emitAbsent t.stop
      | _ => r.node true false
  | .blockEnd => r.skip.emit .sequenceEnd t.start
  | _ => fail .blockEntry t.start (some (.blockSequence, opened))

def indentlessEntry (r : EventReader) : Step := do
  let t ← r.peek
  match t.kind with
  | .blockEntry =>
      let r := r.skip.push [.indentlessEntry]
      match (← r.peek).kind with
      | .blockEntry | .key | .value | .blockEnd => r.emitAbsent t.stop
      | _ => r.node true false
  | _ => r.emit .sequenceEnd t.start

def blockKey (r : EventReader) (opened : Mark) : Step := do
  let t ← r.peek
  match t.kind with
  | .key =>
      let r := r.skip.push [.blockValue opened]
      match (← r.peek).kind with
      | .key | .value | .blockEnd => r.emitAbsent t.stop
      | _ => r.node true true
  | .blockEnd => r.skip.emit .mappingEnd t.start
  | _ => fail .blockKey t.start (some (.blockMapping, opened))

def blockValue (r : EventReader) (opened : Mark) : Step := do
  let t ← r.peek
  let r := r.push [.blockKey opened]
  match t.kind with
  | .value =>
      let r := r.skip
      match (← r.peek).kind with
      | .key | .value | .blockEnd => r.emitAbsent t.stop
      | _ => r.node true true
  | _ => r.emitAbsent t.start

/-- Meets an entry of a flow sequence, or its end. An entry may be a single pair of a mapping. -/
def flowEntry (r : EventReader) (opened : Mark) (isFirst : Bool) : Step := do
  let t ← r.peek
  match t.kind with
  | .flowSequenceEnd => r.skip.emit .sequenceEnd t.start
  | kind =>
      if ¬ isFirst ∧ kind ≠ .flowEntry then
        fail .flowSequenceEntry t.start (some (.flowSequence, opened))
      else
        let r := if isFirst then r else r.skip
        let t ← r.peek
        match t.kind with
        | .flowSequenceEnd => r.skip.emit .sequenceEnd t.start
        | .key => (r.skip.push [.flowPairKey, .flowEntry opened]).emit (.mappingStart {}) t.start
        | _ => (r.push [.flowEntry opened]).node false false

def flowPairKey (r : EventReader) : Step := do
  let t ← r.peek
  let r := r.push [.flowPairValue]
  match t.kind with
  | .value | .flowEntry | .flowSequenceEnd => r.skip.emitAbsent t.stop
  | _ => r.node false false

def flowPairValue (r : EventReader) : Step := do
  let t ← r.peek
  let r := r.push [.flowPairEnd]
  match t.kind with
  | .value =>
      let r := r.skip
      let t ← r.peek
      match t.kind with
      | .flowEntry | .flowSequenceEnd => r.emitAbsent t.start
      | _ => r.node false false
  | _ => r.emitAbsent t.start

/-- Meets a key of a flow mapping, or its end. A node without an indicator is a key without a
value. -/
def flowKey (r : EventReader) (opened : Mark) (isFirst : Bool) : Step := do
  let t ← r.peek
  match t.kind with
  | .flowMappingEnd => r.skip.emit .mappingEnd t.start
  | kind =>
      if ¬ isFirst ∧ kind ≠ .flowEntry then
        fail .flowMappingEntry t.start (some (.flowMapping, opened))
      else
        let r := if isFirst then r else r.skip
        let t ← r.peek
        match t.kind with
        | .flowMappingEnd => r.skip.emit .mappingEnd t.start
        | .key =>
            let r := r.skip.push [.flowValue opened]
            let t ← r.peek
            match t.kind with
            | .value | .flowEntry | .flowMappingEnd => r.emitAbsent t.start
            | _ => r.node false false
        | _ => (r.push [.flowAbsentValue opened]).node false false

def flowValue (r : EventReader) (opened : Mark) : Step := do
  let t ← r.peek
  let r := r.push [.flowKey opened]
  match t.kind with
  | .value =>
      let r := r.skip
      let t ← r.peek
      match t.kind with
      | .flowEntry | .flowMappingEnd => r.emitAbsent t.start
      | _ => r.node false false
  | _ => r.emitAbsent t.start

/-- Meets a goal that has been taken off the stack. -/
def meet (r : EventReader) : Goal → Step
  | .stream => do
      let t ← r.peek
      (r.skip.push [.firstDocument]).emit .streamStart t.start
  | .firstDocument => r.documentStart true
  | .document => r.documentStart false
  | .documentBody => r.documentBody
  | .documentEnd => r.documentEnd
  | .blockNode => r.node true false
  | .blockSequenceStart => do r.skip.blockEntry (← r.peek).start
  | .blockEntry opened => r.blockEntry opened
  | .indentlessEntry => r.indentlessEntry
  | .blockMappingStart => do r.skip.blockKey (← r.peek).start
  | .blockKey opened => r.blockKey opened
  | .blockValue opened => r.blockValue opened
  | .flowSequenceStart => do r.skip.flowEntry (← r.peek).start true
  | .flowEntry opened => r.flowEntry opened false
  | .flowPairKey => r.flowPairKey
  | .flowPairValue => r.flowPairValue
  | .flowPairEnd => do r.emit .mappingEnd (← r.peek).start
  | .flowMappingStart => do r.skip.flowKey (← r.peek).start true
  | .flowKey opened => r.flowKey opened false
  | .flowValue opened => r.flowValue opened
  | .flowAbsentValue opened => do
      let t ← r.peek
      (r.push [.flowKey opened]).emitAbsent t.start

/-- Reads events until no goal is left or one cannot be met; `fuel` bounds their number. -/
def run : Nat → EventReader → List Event × Option Problem
  | 0, _ => ([], none)
  | fuel + 1, r =>
      match r.goals with
      | [] => ([], none)
      | goal :: goals =>
          match { r with goals := goals }.meet goal with
          | .error problem => ([], some problem)
          | .ok (event, r) =>
              let (events, problem) := run fuel r
              (event :: events, problem)

end EventReader

/-- The events of a text up to its end or its first problem. A token leads to at most four
events. -/
def events (text : String) : List Event × Option Problem :=
  let (tokens, problem) := tokens text
  EventReader.run (4 * tokens.length + 8) { tokens := tokens, problem := problem }

end Yaml

end PluginKit
