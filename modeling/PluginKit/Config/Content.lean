import PluginKit.Config.Fault

/-!
# Walking through a document

A walk is at an item of a document and knows how many aliases it has followed. Nodes are read,
or passed over without being looked at.
-/

namespace PluginKit

namespace Config

open Yaml (Document Item Items Mark Octets)

/-- The items that are left, and how many aliases have been followed. -/
structure Walk where
  items : Items
  jumps : Nat := 0

/-- The answer, with a place for an error that has none. -/
def placing {α : Type} (mark : Mark) (path : List PathStep) (answer : Except SettingsError α) :
    Except SettingsError α :=
  answer.mapError (SettingsError.placedAt ⟨mark, path⟩)

def failAt {α : Type} (what : Fault) (mark : Mark) (path : List PathStep) :
    Except SettingsError α :=
  .error (.fault what (some ⟨mark, path⟩))

def mismatch (s : Yaml.Scalar) (expected : Expected) : Fault :=
  match s.value with
  | .ok value => .unexpected (.value value) expected
  | .error demand => .unmetDemand s.string demand

namespace Walk

/-- Why a walk can be without items: the document breaks off. -/
def ending (d : Document) : SettingsError :=
  match d.breakage with
  | some breakage => .broken breakage
  | none => .incomplete

/-- The next item, and the walk behind it. -/
def next (d : Document) (w : Walk) : Except SettingsError (Item × Mark × Walk) :=
  match w.items with
  | (item, m) :: rest => .ok (item, m, { w with items := rest })
  | [] => .error (ending d)

/-- The walk at the node that an alias stands for. Aliases may be followed a hundred times as
often as the document has items. -/
def jump (d : Document) (number : Nat) (w : Walk) : Except SettingsError Walk :=
  if d.items.length * 100 < w.jumps + 1 then .error .tooManyAliases
  else .ok ⟨d.resolve number, w.jumps + 1⟩

/-- Reads a node with `read`, or the node that an alias in its place stands for. -/
def follow {α : Type} (d : Document)
    (read : Item → Mark → Walk → Except SettingsError (α × Walk)) (w : Walk) :
    Except SettingsError (α × Walk) := do
  let (item, m, left) ← w.next d
  match item with
  | .aliasTo number =>
      let (item, m, inner) ← (← left.jump d number).next d
      let (value, inner) ← read item m inner
      .ok (value, { left with jumps := inner.jumps })
  | _ => read item m left

/-- The items behind the node that starts here, `depth` collections being open. -/
def passFrom (d : Document) (depth : Nat) : Items → Except SettingsError Items
  | [] => .error (ending d)
  | (item, _) :: rest =>
      let depth :=
        match item with
        | .sequenceStart _ | .mappingStart _ => depth + 1
        | .sequenceEnd | .mappingEnd => depth - 1
        | _ => depth
      if depth = 0 then .ok rest else passFrom d depth rest

/-- Passes over a node; its aliases are not followed. -/
def pass (d : Document) (w : Walk) : Except SettingsError Walk := do
  .ok { w with items := ← passFrom d 0 w.items }

def keyStep (w : Walk) : PathStep :=
  match w.items with
  | (.scalar s, _) :: _ => .key s.string
  | _ => .unnamed

/-- Reads entries with `read` up to the end of a sequence; `fuel` bounds their number. -/
def entries (d : Document) (read : Nat → Walk → Except SettingsError Walk) :
    Nat → Nat → Walk → Except SettingsError Walk
  | 0, _, _ => .error .incomplete
  | fuel + 1, index, w =>
      match w.items with
      | (.sequenceEnd, _) :: rest => .ok { w with items := rest }
      | [] => .error (ending d)
      | _ => do entries d read fuel (index + 1) (← read index w)

/-- Reads pairs up to the end of a mapping, threading what they make up; `fuel` bounds their
number. -/
def pairs {α : Type} (d : Document) (read : α → Walk → Except SettingsError (α × Walk)) :
    Nat → α → Walk → Except SettingsError (α × Walk)
  | 0, _, _ => .error .incomplete
  | fuel + 1, value, w =>
      match w.items with
      | (.mappingEnd, _) :: rest => .ok (value, { w with items := rest })
      | [] => .error (ending d)
      | _ => do
          let (value, w) ← read value w
          pairs d read fuel value w

/-- More entries or pairs than a walk can meet. -/
def bound (w : Walk) : Nat :=
  w.items.length + 1

end Walk

/-- What a node holds as far as a time goes: a text, a number, or something else. -/
inductive Content where
  | text (s : String)
  | number (n : Nat)
  | other
deriving DecidableEq, Repr

namespace Content

/-- Whether a tag is one of the document's own, which begins with an exclamation mark. -/
def isOwnTag : Option Octets → Bool
  | some (33 :: rest) => (String.fromUTF8? ⟨rest.toArray⟩).isSome
  | _ => false

def ofScalar (s : Yaml.Scalar) : Except Fault Content :=
  match s.value with
  | .error demand => .error (.unmetDemand s.string demand)
  | .ok (.text t) => .ok (text t)
  | .ok (.natural n) => .ok (number n)
  | .ok (.signed n) => .ok (if 0 ≤ n then number n.toNat else other)
  | .ok (.wideNatural n) => .error (.unexpected (.value (.wideNatural n)) .anyValue)
  | .ok (.wideSigned n) => .error (.unexpected (.value (.wideSigned n)) .anyValue)
  | .ok _ => .ok other

/-- Reads a node. Collections are read to the end, so that what is wrong inside them is told;
`limit` is how deep they may be nested. -/
def read (d : Document) (limit : Nat) (path : List PathStep) (w : Walk) :
    Except SettingsError (Content × Walk) :=
  w.follow d (node limit path)
where
  node : Nat → List PathStep → Item → Mark → Walk → Except SettingsError (Content × Walk)
    | limit, path, item, m, w =>
        match item with
        | .scalar s =>
            if isOwnTag s.tag then failAt .ownTag m path
            else
              match ofScalar s with
              | .ok content => .ok (content, w)
              | .error what => failAt what m path
        | .sequenceStart tag =>
            if isOwnTag tag then failAt .ownTag m path
            else
              match limit with
              | 0 => .error (.tooDeep m)
              | limit + 1 => do
                  let entry (index : Nat) (w : Walk) : Except SettingsError Walk := do
                    let (_, w) ← w.follow d (node limit (path ++ [.entry index]))
                    .ok w
                  .ok (other, ← Walk.entries d entry w.bound 0 w)
        | .mappingStart tag =>
            if isOwnTag tag then failAt .ownTag m path
            else
              match limit with
              | 0 => .error (.tooDeep m)
              | limit + 1 =>
                  let pair (whole : Content) (w : Walk) :
                      Except SettingsError (Content × Walk) := do
                    let step := w.keyStep
                    let (_, w) ← w.follow d (node limit path)
                    let (_, w) ← w.follow d (node limit (path ++ [step]))
                    .ok (whole, w)
                  Walk.pairs d pair w.bound other w
        | _ => .error .incomplete

end Content

end Config

end PluginKit
