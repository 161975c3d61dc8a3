import PluginKit.Plugin.Basic

/-!
# The registration handshake

The host asks every socket of a plugin for its identity, and later tells it whether it was
registered.
-/

namespace PluginKit

open Wire.Contracts

def pluginInfo (type name endpoint : String) (versions : List String) :
    Registration.pluginInfo.Value :=
  (type, name, endpoint, versions, ())

/-- The handshake of a plugin, and the last outcome its host has told it. -/
structure Handshake where
  descriptor : Descriptor
  lastStatus : Option Registration.registrationStatus.Value := none

namespace Handshake

def info (h : Handshake) : Registration.pluginInfo.Value :=
  pluginInfo h.descriptor.kind.typeName h.descriptor.advertisedName ""
    h.descriptor.supportedVersions

/-- Takes the outcome of a registration in; it is always acknowledged. -/
def notify (h : Handshake) (status : Registration.registrationStatus.Value) : Handshake :=
  { h with lastStatus := some status }

end Handshake

end PluginKit
