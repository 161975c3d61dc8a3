import PluginKit.Wire.Contracts

/-!
# Services and their methods

The methods that answer one message with one message. Watching the content of a reporter is
not among them: it answers with a stream.
-/

namespace PluginKit

namespace Rpc

/-- What a server may offer: the handshake, and the service of each kind of plugin. -/
inductive Service where
  | registration
  | eviction
  | reporter
  | resource
deriving DecidableEq, Repr

inductive Method where
  | getInfo
  | notifyRegistrationStatus
  | getToken
  | thresholdMet
  | getTopEvictionPods
  | getEvictPods
  | getReportContent
  | getResourcePluginOptions
  | getTopologyHints
  | allocate
  | getResourcesAllocation
  | removePod
  | preStartContainer
deriving DecidableEq, Repr

namespace Method

open Wire.Contracts

def service : Method → Service
  | getInfo => .registration
  | notifyRegistrationStatus => .registration
  | getToken => .eviction
  | thresholdMet => .eviction
  | getTopEvictionPods => .eviction
  | getEvictPods => .eviction
  | getReportContent => .reporter
  | _ => .resource

def name : Method → String
  | getInfo => "get_info"
  | notifyRegistrationStatus => "notify_registration_status"
  | getToken => "get_token"
  | thresholdMet => "threshold_met"
  | getTopEvictionPods => "get_top_eviction_pods"
  | getEvictPods => "get_evict_pods"
  | getReportContent => "get_report_content"
  | getResourcePluginOptions => "get_resource_plugin_options"
  | getTopologyHints => "get_topology_hints"
  | allocate => "allocate"
  | getResourcesAllocation => "get_resources_allocation"
  | removePod => "remove_pod"
  | preStartContainer => "pre_start_container"

@[reducible] def request : Method → Wire.MessageType
  | getInfo => Registration.infoRequest
  | notifyRegistrationStatus => Registration.registrationStatus
  | getToken => Eviction.empty
  | thresholdMet => Eviction.getThresholdMetRequest
  | getTopEvictionPods => Eviction.getTopEvictionPodsRequest
  | getEvictPods => Eviction.getEvictPodsRequest
  | getReportContent => Reporter.empty
  | getResourcePluginOptions => Resource.empty
  | getTopologyHints => Resource.resourceRequest
  | allocate => Resource.resourceRequest
  | getResourcesAllocation => Resource.getResourcesAllocationRequest
  | removePod => Resource.removePodRequest
  | preStartContainer => Resource.preStartContainerRequest

@[reducible] def response : Method → Wire.MessageType
  | getInfo => Registration.pluginInfo
  | notifyRegistrationStatus => Registration.registrationStatusResponse
  | getToken => Eviction.getTokenResponse
  | thresholdMet => Eviction.thresholdMetResponse
  | getTopEvictionPods => Eviction.getTopEvictionPodsResponse
  | getEvictPods => Eviction.getEvictPodsResponse
  | getReportContent => Reporter.getReportContentResponse
  | getResourcePluginOptions => Resource.resourcePluginOptions
  | getTopologyHints => Resource.resourceHintsResponse
  | allocate => Resource.resourceAllocationResponse
  | getResourcesAllocation => Resource.getResourcesAllocationResponse
  | removePod => Resource.removePodResponse
  | preStartContainer => Resource.preStartContainerResponse

def all : List Method :=
  [getInfo, notifyRegistrationStatus, getToken, thresholdMet, getTopEvictionPods,
    getEvictPods, getReportContent, getResourcePluginOptions, getTopologyHints, allocate,
    getResourcesAllocation, removePod, preStartContainer]

def find? (service : Service) (name : String) : Option Method :=
  all.find? fun m => m.service == service && m.name == name

end Method

end Rpc

end PluginKit
