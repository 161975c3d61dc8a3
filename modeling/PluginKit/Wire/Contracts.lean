import PluginKit.Wire.Schema

/-!
# The contracts

The messages that plugins and their host exchange: the registration handshake and the services
of the three kinds of plugin.
-/

namespace PluginKit

namespace Wire

@[reducible] def Fields.ofList : List (FieldName × Occurrence × Element) → Fields
  | [] => .nil
  | (field, occurrence, element) :: rest => .cons field occurrence element (ofList rest)

namespace Contracts

@[reducible] def one (number : Nat) (name : String) (s : Scalar) :
    FieldName × Occurrence × Element :=
  (⟨number, name, name⟩, .one, .scalar s)

@[reducible] def many (number : Nat) (name : String) (s : Scalar) :
    FieldName × Occurrence × Element :=
  (⟨number, name, name⟩, .many, .scalar s)

@[reducible] def table (number : Nat) (name : String) (s : Scalar) :
    FieldName × Occurrence × Element :=
  (⟨number, name, name⟩, .map, .scalar s)

@[reducible] def nested (number : Nat) (name : String) (occurrence : Occurrence)
    (type : MessageType) : FieldName × Occurrence × Element :=
  (⟨number, name, name⟩, occurrence, .message type.name type.fields)

@[reducible] def message (package name : String)
    (fields : List (FieldName × Occurrence × Element)) : MessageType :=
  ⟨package ++ "." ++ name, Fields.ofList fields⟩

namespace Registration

@[reducible] def package : String := "pluginregistration"

@[reducible] def infoRequest : MessageType := message package "InfoRequest" []

/-- The name of the first field is a reserved word, which errors mark. -/
@[reducible] def pluginInfo : MessageType :=
  message package "PluginInfo"
    [(⟨1, "type", "r#type"⟩, .one, .scalar .string), one 2 "name" .string,
      one 3 "endpoint" .string, many 4 "supported_versions" .string]

@[reducible] def registrationStatus : MessageType :=
  message package "RegistrationStatus"
    [one 1 "plugin_registered" .bool, one 2 "error" .string]

@[reducible] def registrationStatusResponse : MessageType :=
  message package "RegistrationStatusResponse" []

end Registration

namespace Eviction

@[reducible] def package : String := "evictionplugin.v1alpha1"

@[reducible] def empty : MessageType := message package "Empty" []

@[reducible] def getTokenResponse : MessageType :=
  message package "GetTokenResponse" [one 1 "token" .string]

@[reducible] def thresholdMetResponse : MessageType :=
  message package "ThresholdMetResponse"
    [one 1 "threshold_value" .double, one 2 "observed_value" .double,
      one 3 "threshold_operator" .enum, one 4 "met_type" .enum,
      one 5 "eviction_scope" .string, one 6 "grace_period_seconds" .int64,
      table 7 "condition" .string]

@[reducible] def getThresholdMetRequest : MessageType :=
  message package "GetThresholdMetRequest" [many 1 "active_pods" .bytes]

@[reducible] def getTopEvictionPodsRequest : MessageType :=
  message package "GetTopEvictionPodsRequest"
    [many 1 "active_pods" .bytes, one 2 "top_n" .uint64, one 3 "eviction_scope" .string]

@[reducible] def getTopEvictionPodsResponse : MessageType :=
  message package "GetTopEvictionPodsResponse"
    [many 1 "target_pods" .bytes, one 2 "grace_period_seconds" .int64]

@[reducible] def evictPod : MessageType :=
  message package "EvictPod"
    [one 1 "pod" .bytes, one 2 "reason" .string, one 3 "grace_period_seconds" .int64,
      one 4 "force_evict" .bool, one 5 "eviction_plugin_name" .string]

@[reducible] def getEvictPodsRequest : MessageType :=
  message package "GetEvictPodsRequest" [many 1 "active_pods" .bytes]

@[reducible] def getEvictPodsResponse : MessageType :=
  message package "GetEvictPodsResponse" [nested 1 "evict_pods" .many evictPod]

end Eviction

namespace Reporter

@[reducible] def package : String := "reporterplugin.v1alpha1"

@[reducible] def empty : MessageType := message package "Empty" []

@[reducible] def groupVersionKind : MessageType :=
  message package "GroupVersionKind"
    [one 1 "group" .string, one 2 "version" .string, one 3 "kind" .string]

@[reducible] def reportField : MessageType :=
  message package "ReportField"
    [one 1 "field_type" .enum, one 2 "field_name" .string, one 3 "value" .bytes]

@[reducible] def reportContent : MessageType :=
  message package "ReportContent"
    [nested 1 "group_version_kind" .one groupVersionKind, nested 2 "field" .many reportField]

@[reducible] def getReportContentResponse : MessageType :=
  message package "GetReportContentResponse" [nested 1 "content" .many reportContent]

end Reporter

namespace Resource

@[reducible] def package : String := "resourceplugin.v1alpha1"

@[reducible] def empty : MessageType := message package "Empty" []

@[reducible] def resourcePluginOptions : MessageType :=
  message package "ResourcePluginOptions"
    [one 1 "pre_start_required" .bool, one 2 "with_topology_alignment" .bool,
      one 3 "need_reconcile" .bool]

@[reducible] def topologyHint : MessageType :=
  message package "TopologyHint" [many 1 "nodes" .uint64, one 2 "preferred" .bool]

@[reducible] def resourceRequest : MessageType :=
  message package "ResourceRequest"
    [one 1 "pod_uid" .string, one 2 "pod_namespace" .string, one 3 "pod_name" .string,
      one 4 "container_name" .string, one 5 "resource_name" .string,
      table 6 "resource_requests" .double, nested 7 "hint" .one topologyHint,
      table 8 "labels" .string, table 9 "annotations" .string]

@[reducible] def resourceHintsResponse : MessageType :=
  message package "ResourceHintsResponse"
    [one 1 "pod_uid" .string, one 2 "container_name" .string, one 3 "resource_name" .string,
      nested 4 "hints" .many topologyHint]

@[reducible] def resourceAllocationInfo : MessageType :=
  message package "ResourceAllocationInfo"
    [one 1 "oci_property_name" .string, one 2 "is_node_resource" .bool,
      one 3 "is_scalar_resource" .bool, one 4 "allocated_quantity" .double,
      one 5 "allocation_result" .string, table 6 "envs" .string,
      table 7 "annotations" .string]

@[reducible] def resourceAllocationResponse : MessageType :=
  message package "ResourceAllocationResponse"
    [one 1 "pod_uid" .string, one 2 "container_name" .string, one 3 "resource_name" .string,
      nested 4 "allocation_result" .map resourceAllocationInfo]

@[reducible] def containerResources : MessageType :=
  message package "ContainerResources"
    [nested 1 "resource_allocation" .map resourceAllocationInfo]

@[reducible] def podResources : MessageType :=
  message package "PodResources" [nested 1 "containers" .map containerResources]

@[reducible] def getResourcesAllocationRequest : MessageType :=
  message package "GetResourcesAllocationRequest" []

@[reducible] def getResourcesAllocationResponse : MessageType :=
  message package "GetResourcesAllocationResponse"
    [nested 1 "pod_resources" .map podResources]

@[reducible] def removePodRequest : MessageType :=
  message package "RemovePodRequest" [one 1 "pod_uid" .string]

@[reducible] def removePodResponse : MessageType := message package "RemovePodResponse" []

@[reducible] def preStartContainerRequest : MessageType :=
  message package "PreStartContainerRequest"
    [one 1 "pod_uid" .string, one 2 "container_name" .string]

@[reducible] def preStartContainerResponse : MessageType :=
  message package "PreStartContainerResponse" []

end Resource

def all : List MessageType :=
  [Registration.infoRequest, Registration.pluginInfo, Registration.registrationStatus,
    Registration.registrationStatusResponse, Eviction.empty, Eviction.getTokenResponse,
    Eviction.thresholdMetResponse, Eviction.getThresholdMetRequest,
    Eviction.getTopEvictionPodsRequest, Eviction.getTopEvictionPodsResponse,
    Eviction.evictPod, Eviction.getEvictPodsRequest, Eviction.getEvictPodsResponse,
    Reporter.empty, Reporter.groupVersionKind, Reporter.reportField, Reporter.reportContent,
    Reporter.getReportContentResponse, Resource.empty, Resource.resourcePluginOptions,
    Resource.topologyHint, Resource.resourceRequest, Resource.resourceHintsResponse,
    Resource.resourceAllocationInfo, Resource.resourceAllocationResponse,
    Resource.containerResources, Resource.podResources,
    Resource.getResourcesAllocationRequest, Resource.getResourcesAllocationResponse,
    Resource.removePodRequest, Resource.removePodResponse,
    Resource.preStartContainerRequest, Resource.preStartContainerResponse]

def find? (name : String) : Option MessageType :=
  all.find? fun type => type.name == name

end Contracts

structure Enumeration where
  name : String
  values : List (String × Int32)

namespace Enumeration

def thresholdMetType : Enumeration :=
  ⟨"ThresholdMetType", [("NOT_MET", 0), ("SOFT_MET", 1), ("HARD_MET", 2)]⟩

def thresholdOperator : Enumeration :=
  ⟨"ThresholdOperator", [("LESS_THAN", 0), ("GREATER_THAN", 1)]⟩

def fieldType : Enumeration :=
  ⟨"FieldType", [("SPEC", 0), ("STATUS", 1), ("METADATA", 2)]⟩

def all : List Enumeration := [thresholdMetType, thresholdOperator, fieldType]

def nameOf? (e : Enumeration) (number : Int32) : Option String :=
  (e.values.find? fun value => value.2 == number).map Prod.fst

def numberOf? (e : Enumeration) (name : String) : Option Int32 :=
  (e.values.find? fun value => value.1 == name).map Prod.snd

/-- What is said of a number without a declared name. -/
def unknownMessage (number : Int32) : String :=
  "unknown enumeration value " ++ toString number.toInt

end Enumeration

end Wire

end PluginKit
