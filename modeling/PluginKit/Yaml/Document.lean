import PluginKit.Yaml.Event.Stream

/-!
# The first document of a text

The nodes of the first document in their order, the nodes that aliases stand for, and what went
wrong in it or behind it. A text without a document holds one node that is missing.
-/

namespace PluginKit

namespace Yaml

/-- A part of a document. An alias refers to its node by a number. -/
inductive Item where
  | aliasTo (number : Nat)
  | scalar (scalar : Scalar)
  | sequenceStart (tag : Option Octets)
  | sequenceEnd
  | mappingStart (tag : Option Octets)
  | mappingEnd
  | missing
deriving DecidableEq, Repr

/-- Parts of a document, each with its place. -/
abbrev Items := List (Item × Mark)

inductive Breakage where
  | problem (p : Problem)
  | unknownAnchor (m : Mark)
deriving DecidableEq, Repr

/-- The first document of a text: its items, for each number of an alias how many items stand in
front of its node, why the document breaks off, and whether anything follows it. -/
structure Document where
  items : Items
  nodes : List (Nat × Nat)
  breakage : Option Breakage
  hasMore : Bool

namespace Document

/-- The items from the node that an alias stands for. -/
def resolve (d : Document) (number : Nat) : Items :=
  match d.nodes.lookup number with
  | some position => d.items.drop position
  | none => []

/-- What has been gathered: the items with the latest first, the number for each name, the
nodes for each number, the latest first. -/
structure Gathered where
  items : Items := []
  names : List (List Char × Nat) := []
  nodes : List (Nat × Nat) := []

namespace Gathered

/-- Names the next item. A name gets as its number how many different names there are. -/
def name (g : Gathered) : Option (List Char) → Gathered
  | none => g
  | some anchor =>
      let number := (g.names.map Prod.fst).eraseDups.length
      { g with
        names := (anchor, number) :: g.names
        nodes := (number, g.items.length) :: g.nodes }

def add (g : Gathered) (item : Item) (m : Mark) : Gathered :=
  { g with items := (item, m) :: g.items }

def close (g : Gathered) (breakage : Option Breakage) (hasMore : Bool) : Document :=
  ⟨g.items.reverse, g.nodes, breakage, hasMore⟩

end Gathered

/-- Whether events end with the stream, without a further document. -/
def endsStream : List Event → Bool
  | e :: _ => e.kind = .streamEnd
  | [] => false

def gather (problem : Option Problem) (g : Gathered) : List Event → Document
  | [] => g.close (problem.map .problem) false
  | e :: rest =>
      match e.kind with
      | .streamStart | .documentStart => gather problem g rest
      | .streamEnd => (g.add .missing e.mark).close none false
      | .documentEnd => g.close none (!endsStream rest)
      | .aliasTo name =>
          match g.names.lookup name with
          | some number => gather problem (g.add (.aliasTo number) e.mark) rest
          | none => g.close (some (.unknownAnchor e.mark)) false
      | .scalar anchor scalar =>
          gather problem ((g.name anchor).add (.scalar scalar) e.mark) rest
      | .sequenceStart properties =>
          gather problem
            ((g.name properties.anchor).add (.sequenceStart properties.tag) e.mark) rest
      | .sequenceEnd => gather problem (g.add .sequenceEnd e.mark) rest
      | .mappingStart properties =>
          gather problem
            ((g.name properties.anchor).add (.mappingStart properties.tag) e.mark) rest
      | .mappingEnd => gather problem (g.add .mappingEnd e.mark) rest

def ofText (text : String) : Document :=
  let (events, problem) := events text
  gather problem {} events

end Document

end Yaml

end PluginKit
