import PluginKit.Yaml.Document
import PluginKit.Yaml.Value

/-!
# Why a document holds no settings

The causes and their wording. A fault in a node is told with the place of the node and with the
path of keys and positions that leads to it.
-/

namespace PluginKit

namespace Config

inductive Key where
  | retryInterval
  | dialTimeout
  | crashResetWindow
  | crashThreshold
  | serverStopGrace
deriving DecidableEq, Repr

namespace Key

def all : List Key :=
  [retryInterval, dialTimeout, crashResetWindow, crashThreshold, serverStopGrace]

/-- How a key is written; times are given in milliseconds. -/
def text : Key → String
  | retryInterval => "retryIntervalMs"
  | dialTimeout => "dialTimeoutMs"
  | crashResetWindow => "crashResetWindowMs"
  | crashThreshold => "crashThreshold"
  | serverStopGrace => "serverStopGraceMs"

def ofText? (s : String) : Option Key :=
  all.find? fun k => k.text = s

theorem ofText?_text (k : Key) : ofText? k.text = some k := by
  cases k <;> decide

end Key

/-- A step from a node to one inside it: to the value of a key, to an entry, or to the value of
a key that is no scalar. -/
inductive PathStep where
  | key (text : String)
  | entry (index : Nat)
  | unnamed
deriving DecidableEq, Repr

/-- The path behind one that is written already, where the top is a point. -/
def pathTextFrom (isTop : Bool) (written : String) : List PathStep → String
  | [] => written
  | step :: rest =>
      let lead := if isTop then "" else written ++ "."
      pathTextFrom false
        (match step with
        | .key text => lead ++ text
        | .entry index => written ++ "[" ++ toString index ++ "]"
        | .unnamed => lead ++ "?")
        rest

def pathText (path : List PathStep) : String :=
  pathTextFrom true "." path

inductive Found where
  | value (v : Yaml.Value)
  | sequence
  | mapping
deriving DecidableEq, Repr

def Found.describe : Found → String
  | value v => v.describe
  | sequence => "sequence"
  | mapping => "map"

inductive Expected where
  | settings
  | key
  | count
  | anyValue
deriving DecidableEq, Repr

def Expected.describe : Expected → String
  | settings => "struct LifecycleConfig"
  | key => "field identifier"
  | count => "u32"
  | anyValue => "any value"

inductive Fault where
  | unexpected (found : Found) (expected : Expected)
  | unmetDemand (text : String) (demand : Yaml.Demand)
  | countTooLarge (n : Nat)
  | repeatedKey (k : Key)
  | noTime
  | badTime (text : String) (fault : Decimal.NumberFault)
  | ownTag
deriving DecidableEq, Repr

def Fault.message : Fault → String
  | unexpected found expected =>
      "invalid type: " ++ found.describe ++ ", expected " ++ expected.describe
  | unmetDemand text demand =>
      "invalid value: string " ++ Text.quote text ++ ", expected " ++ demand.text
  | countTooLarge n =>
      "invalid value: " ++ (Yaml.Value.natural n).describe ++ ", expected " ++
        Expected.count.describe
  | repeatedKey k => "duplicate field \x60" ++ k.text ++ "\x60"
  | noTime => "data did not match any variant of untagged enum StringOrInt"
  | badTime text fault =>
      "Failed to parse milliseconds from string '" ++ text ++ "': " ++ fault.message
  | ownTag => "untagged and internally tagged enums do not support enum input"

structure Place where
  mark : Yaml.Mark
  path : List PathStep
deriving DecidableEq, Repr

/-- Why a text holds no settings: its document breaks off or ends too early, its collections are
nested too deeply, its aliases are followed too often, another document follows, or a node is
faulty. -/
inductive SettingsError where
  | broken (b : Yaml.Breakage)
  | incomplete
  | tooDeep (m : Yaml.Mark)
  | tooManyAliases
  | severalDocuments
  | fault (what : Fault) (place : Option Place)
deriving DecidableEq, Repr

namespace SettingsError

/-- The error with a place, unless it has one already or none belongs to it. -/
def placedAt (place : Place) : SettingsError → SettingsError
  | fault what none => fault what (some place)
  | e => e

def message : SettingsError → String
  | broken (.problem p) => p.message
  | broken (.unknownAnchor m) => "unknown anchor" ++ m.note
  | incomplete => "EOF while parsing a value"
  | tooDeep m => "recursion limit exceeded" ++ m.note
  | tooManyAliases => "repetition limit exceeded"
  | severalDocuments =>
      "deserializing from YAML containing more than one document is not supported"
  | fault what none => what.message
  | fault what (some place) =>
      let path := pathText place.path
      (if path = "." then "" else path ++ ": ") ++ what.message ++ place.mark.note

end SettingsError

end Config

end PluginKit
