import PluginKit.Plugin.Kind
import PluginKit.Plugin.ReporterStub
import PluginKit.Lifecycle.Error
import PluginKit.Rpc.Status

/-!
# Plugins

What a plugin says of itself, and how it answers the calls of its service. Besides plugins
without a kind there are those that do nothing, and a reporter with canned content.
-/

namespace PluginKit

inductive Role where
  | plain
  | dummy (kind : PluginKind)
  | stub (reporter : ReporterStub)

/-- A plugin. Only a resource plugin looks at the name of its resource. -/
structure Plugin where
  name : String
  role : Role
  resourceName : Option String := none

/-- The service a plugin offers, and the name it registers under where that is not its own. -/
structure Capability where
  kind : PluginKind
  advertisedName : Option String
deriving DecidableEq, Repr

def Capability.debug (c : Capability) : String :=
  Text.showPartialRecord "PluginCapability"
    [("kind", c.kind.debug), ("advertised_name", Text.showOption c.advertisedName)]

structure Descriptor where
  name : String
  advertisedName : String
  kind : PluginKind
  supportedVersions : List String
deriving DecidableEq, Repr

def Descriptor.debug (d : Descriptor) : String :=
  Text.showRecord "PluginDescriptor"
    [("name", Text.quote d.name), ("advertised_name", Text.quote d.advertisedName),
      ("kind", d.kind.debug), ("supported_versions", Text.showList d.supportedVersions)]

namespace Plugin

/-- The name of a plugin that does nothing, where none is given. -/
def dummyName : PluginKind → String
  | .eviction => "fake-eviction-plugin"
  | .reporter => "fake-reporter-plugin"
  | .qosResource => "fake-qrm-plugin"

/-- A plugin that does nothing. -/
def dummy (kind : PluginKind) (name : Option String) (resourceName : Option String) : Plugin :=
  ⟨name.getD (dummyName kind), .dummy kind, resourceName⟩

/-- A reporter with canned content. -/
def stub (content : Contents) (name : String) : Plugin :=
  ⟨name, .stub { content := content }, none⟩

def kind? (p : Plugin) : Option PluginKind :=
  match p.role with
  | .plain => none
  | .dummy kind => some kind
  | .stub _ => some .reporter

/-- What a plugin offers. A resource plugin registers under the name of its resource. -/
def capability? (p : Plugin) : Option Capability :=
  p.kind?.map fun kind =>
    ⟨kind, if kind = .qosResource then some (p.resourceName.getD p.name) else none⟩

/-- The identity of a plugin; one that offers nothing has none. -/
def resolve (p : Plugin) : Except (Report ConstructionError) Descriptor :=
  match p.capability? with
  | none => .error ⟨.unsupportedPluginType p.name, [], []⟩
  | some c =>
      .ok ⟨p.name, c.advertisedName.getD p.name, c.kind, c.kind.supportedVersions⟩

/-- The plugin after the stub behind it, if there is one, was acted upon. -/
def onStub (p : Plugin) (act : ReporterStub → ReporterStub) : Plugin :=
  match p.role with
  | .stub reporter => { p with role := .stub (act reporter) }
  | _ => p

def start (p : Plugin) : Plugin := p.onStub ReporterStub.start

def stop (p : Plugin) : Plugin := p.onStub ReporterStub.stop

/-- Whether a plugin that does nothing answers a method, with a message that says nothing. -/
def isAnswered : Rpc.Method → Bool
  | .thresholdMet => false
  | .getTopEvictionPods => false
  | .getEvictPods => false
  | .getTopologyHints => false
  | .allocate => false
  | _ => true

def answer (p : Plugin) (m : Rpc.Method) : Except Rpc.Status m.response.Value :=
  match m, p.role with
  | .getReportContent, .stub reporter => .ok (reporter.content, ())
  | m, _ =>
      if isAnswered m then .ok m.response.default
      else .error ⟨.unimplemented, m.name ++ " is not implemented"⟩

def watch (p : Plugin) (id : String) : Except Rpc.Status Plugin :=
  match p.role with
  | .stub reporter =>
      match reporter.watch? id with
      | none => .error ⟨.failedPrecondition, "plugin " ++ p.name ++ " is not started"⟩
      | some reporter' => .ok { p with role := .stub reporter' }
  | _ => .error ⟨.unimplemented, "list_and_watch_report_content is not implemented"⟩

end Plugin

end PluginKit
