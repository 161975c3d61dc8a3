import PluginKit.Yaml.Token

/-!
# Events of a YAML text

The nodes of a text in the order in which they are met, each with the place where it starts.
-/

namespace PluginKit

namespace Yaml

/-- What is said in front of a node: a name for it, and its tag. -/
structure Properties where
  anchor : Option (List Char) := none
  tag : Option Octets := none
deriving DecidableEq, Repr

structure Scalar where
  text : List Char
  style : ScalarStyle
  tag : Option Octets := none
deriving DecidableEq, Repr

inductive EventKind where
  | streamStart
  | streamEnd
  | documentStart
  | documentEnd
  | aliasTo (name : List Char)
  | scalar (anchor : Option (List Char)) (scalar : Scalar)
  | sequenceStart (properties : Properties)
  | sequenceEnd
  | mappingStart (properties : Properties)
  | mappingEnd
deriving DecidableEq, Repr

structure Event where
  kind : EventKind
  mark : Mark
deriving DecidableEq, Repr

namespace Event

def absent (properties : Properties) (m : Mark) : Event :=
  ⟨.scalar properties.anchor ⟨[], .plain, properties.tag⟩, m⟩

end Event

end Yaml

end PluginKit
