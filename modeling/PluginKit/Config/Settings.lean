import PluginKit.Config.Content
import PluginKit.Lifecycle.Settings
import PluginKit.Text.Blank

/-!
# Settings as YAML

The settings are a mapping; keys that are missing keep their defaults and unknown keys are
passed over. A time is a number of milliseconds or a text that spells one; the crash threshold is
a number only. A text without a document, or with blanks only, holds the defaults.
-/

namespace PluginKit

namespace Config

open Yaml (Document Item Mark)

structure Given where
  retryInterval : Option Nat := none
  dialTimeout : Option Nat := none
  crashResetWindow : Option Nat := none
  crashThreshold : Option Nat := none
  serverStopGrace : Option Nat := none
deriving DecidableEq, Repr

namespace Given

def get? (g : Given) : Key → Option Nat
  | .retryInterval => g.retryInterval
  | .dialTimeout => g.dialTimeout
  | .crashResetWindow => g.crashResetWindow
  | .crashThreshold => g.crashThreshold
  | .serverStopGrace => g.serverStopGrace

def put (g : Given) (value : Nat) : Key → Given
  | .retryInterval => { g with retryInterval := some value }
  | .dialTimeout => { g with dialTimeout := some value }
  | .crashResetWindow => { g with crashResetWindow := some value }
  | .crashThreshold => { g with crashThreshold := some value }
  | .serverStopGrace => { g with serverStopGrace := some value }

theorem get?_put_self (g : Given) (value : Nat) (k : Key) :
    (g.put value k).get? k = some value := by
  cases k <;> rfl

theorem get?_put_of_ne (g : Given) (value : Nat) {k l : Key} (h : k ≠ l) :
    (g.put value k).get? l = g.get? l := by
  cases k <;> cases l <;> first | rfl | exact absurd rfl h

def toSettings (g : Given) : Settings :=
  let defaults : Settings := {}
  { retryInterval := g.retryInterval.getD defaults.retryInterval
    dialTimeout := g.dialTimeout.getD defaults.dialTimeout
    crashResetWindow := g.crashResetWindow.getD defaults.crashResetWindow
    crashThreshold := (g.crashThreshold.map UInt32.ofNat).getD defaults.crashThreshold
    serverStopGrace := g.serverStopGrace.getD defaults.serverStopGrace }

end Given

/-- How deep collections may be nested in a text, the settings themselves included. -/
def nestingLimit : Nat := 128

/-- The key that a node spells; none for one that is unknown. -/
def keyOf (item : Item) (m : Mark) (w : Walk) :
    Except SettingsError (Option Key × Walk) :=
  match item with
  | .scalar s => .ok (Key.ofText? s.string, w)
  | .sequenceStart _ => failAt (.unexpected .sequence .key) m []
  | .mappingStart _ => failAt (.unexpected .mapping .key) m []
  | _ => .error .incomplete

def timeOf : Content → Except SettingsError Nat
  | .number n => .ok n
  | .text s =>
      match Decimal.readUInt64 (Text.trim s.toList) with
      | .ok n => .ok n
      | .error fault => .error (.fault (.badTime s fault) none)
  | .other => .error (.fault .noTime none)

def readTime (d : Document) (path : List PathStep) (w : Walk) :
    Except SettingsError (Nat × Walk) := do
  let (content, w) ← Content.read d (nestingLimit - 1) path w
  .ok (← timeOf content, w)

/-- Whether a scalar is read as a number where one is expected: without quotes, or as a literal
block with the tag of whole numbers. -/
def maySpellCount (s : Yaml.Scalar) : Bool :=
  s.style == .plain || (s.style == .literal && s.tag == some Yaml.Demand.int.tag)

def countOf (path : List PathStep) (item : Item) (m : Mark) (w : Walk) :
    Except SettingsError (Nat × Walk) :=
  match item with
  | .scalar s =>
      let count? :=
        if maySpellCount s then Yaml.Value.readNatural? (Decimal.wordCount 64) s.text else none
      match count? with
      | some n => if n < Decimal.wordCount 32 then .ok (n, w) else failAt (.countTooLarge n) m path
      | none => failAt (mismatch s .count) m path
  | .sequenceStart _ => failAt (.unexpected .sequence .count) m path
  | .mappingStart _ => failAt (.unexpected .mapping .count) m path
  | _ => .error .incomplete

def readValue (d : Document) (path : List PathStep) :
    Key → Walk → Except SettingsError (Nat × Walk)
  | .crashThreshold => Walk.follow d (countOf path)
  | _ => readTime d path

def readPair (d : Document) (g : Given) (w : Walk) : Except SettingsError (Given × Walk) := do
  let step := w.keyStep
  match ← w.follow d keyOf with
  | (none, w) => .ok (g, ← w.pass d)
  | (some key, w) =>
      if (g.get? key).isSome then .error (.fault (.repeatedKey key) none)
      else
        let (value, w) ← readValue d [step] key w
        .ok (g.put value key, w)

def readDocument (d : Document) : Except SettingsError Given := do
  let (item, m, w) ← Walk.next d ⟨d.items, 0⟩
  placing m [] <|
    match item with
    | .mappingStart _ => do
        let (g, _) ← Walk.pairs d (readPair d) w.bound {} w
        .ok g
    | .missing => .ok {}
    | .scalar s =>
        if s.text.isEmpty && s.style == .plain then .ok {}
        else .error (.fault (mismatch s .settings) none)
    | .sequenceStart _ => .error (.fault (.unexpected .sequence .settings) none)
    | _ => .error .incomplete

/-- The settings in a document that is the only one of its text. -/
def settingsOf (d : Document) : Except SettingsError Settings := do
  let g ← readDocument d
  match d.breakage with
  | some breakage => .error (.broken breakage)
  | none => if d.hasMore then .error .severalDocuments else .ok g.toSettings

def parse (text : String) : Except SettingsError Settings :=
  if (Text.trim text.toList).isEmpty then .ok {} else settingsOf (.ofText text)

end Config

end PluginKit
