import PluginKit.Rpc.Method

/-!
# Kinds of plugins

The kind of a plugin decides which service it offers and what it says of itself in the
handshake.
-/

namespace PluginKit

inductive PluginKind where
  | eviction
  | reporter
  | qosResource
deriving DecidableEq, Repr

namespace PluginKind

def typeName : PluginKind → String
  | eviction => "EvictionPlugin"
  | reporter => "ReporterPlugin"
  | qosResource => "QoSResourcePlugin"

def debug : PluginKind → String
  | eviction => "Eviction"
  | reporter => "Reporter"
  | qosResource => "QosResource"

def supportedVersions : PluginKind → List String
  | _ => ["v1alpha1"]

def service : PluginKind → Rpc.Service
  | eviction => .eviction
  | reporter => .reporter
  | qosResource => .resource

def serviceName : PluginKind → String
  | eviction => Wire.Contracts.Eviction.package ++ ".EvictionPlugin"
  | reporter => Wire.Contracts.Reporter.package ++ ".ReporterPlugin"
  | qosResource => Wire.Contracts.Resource.package ++ ".ResourcePlugin"

end PluginKind

end PluginKit
