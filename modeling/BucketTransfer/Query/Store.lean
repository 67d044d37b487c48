import BucketTransfer.Query.Schema

/-!
# The stores of the control plane

The tables that can be queried.
-/
namespace BucketTransfer.Query

inductive Store where
  | assets
  | contractDefinitions
  | contractNegotiations
  | transferProcesses
  | policyDefinitions
  | policyMonitor
  | dataPlaneInstances
  deriving DecidableEq, Repr

namespace Store

def all : List Store :=
  [.assets, .contractDefinitions, .contractNegotiations, .transferProcesses, .policyDefinitions,
    .policyMonitor, .dataPlaneInstances]

/-- The store's name on the command line. -/
def name : Store → String
  | .assets => "assets"
  | .contractDefinitions => "contract-definitions"
  | .contractNegotiations => "contract-negotiations"
  | .transferProcesses => "transfer-processes"
  | .policyDefinitions => "policy-definitions"
  | .policyMonitor => "policy-monitor"
  | .dataPlaneInstances => "data-plane-instances"

def ofName? (name : String) : Option Store := all.find? fun s => s.name == name

private def assetsTable : Schema where
  table := "edc_asset"
  idColumn := "asset_id"
  columns := [
    ⟨.scalar, "id", "asset_id"⟩,
    ⟨.scalar, "createdAt", "created_at"⟩,
    ⟨.json, "properties", "properties"⟩,
    ⟨.json, "privateProperties", "private_properties"⟩,
    ⟨.json, "dataAddress", "data_address"⟩]
  fallback := some "properties"

private def contractDefinitionsTable : Schema where
  table := "edc_contract_definitions"
  idColumn := "contract_definition_id"
  columns := [
    ⟨.scalar, "id", "contract_definition_id"⟩,
    ⟨.scalar, "createdAt", "created_at"⟩,
    ⟨.scalar, "accessPolicyId", "access_policy_id"⟩,
    ⟨.scalar, "contractPolicyId", "contract_policy_id"⟩,
    ⟨.json, "assetsSelector", "assets_selector"⟩,
    ⟨.json, "privateProperties", "private_properties"⟩]
  array := some
    ⟨"assetsSelector", "assets_selector", "crit", ["operandLeft", "operator", "operandRight"]⟩

private def contractNegotiationsTable : Schema where
  table := "edc_contract_negotiation"
  idColumn := "id"
  columns := [
    ⟨.scalar, "id", "id"⟩,
    ⟨.scalar, "createdAt", "created_at"⟩,
    ⟨.scalar, "updatedAt", "updated_at"⟩,
    ⟨.scalar, "correlationId", "correlation_id"⟩,
    ⟨.scalar, "counterPartyId", "counterparty_id"⟩,
    ⟨.scalar, "counterPartyAddress", "counterparty_address"⟩,
    ⟨.scalar, "protocol", "protocol"⟩,
    ⟨.scalar, "type", "type"⟩,
    ⟨.scalar, "state", "state"⟩,
    ⟨.scalar, "stateCount", "state_count"⟩,
    ⟨.scalar, "stateTimestamp", "state_timestamp"⟩,
    ⟨.scalar, "errorDetail", "error_detail"⟩,
    ⟨.scalar, "agreementId", "agreement_id"⟩,
    ⟨.json, "contractOffers", "contract_offers"⟩,
    ⟨.json, "callbackAddresses", "callback_addresses"⟩,
    ⟨.json, "traceContext", "trace_context"⟩,
    ⟨.scalar, "pending", "pending"⟩,
    ⟨.json, "protocolMessages", "protocol_messages"⟩]
  unsupported := ["contractAgreement"]

private def transferProcessesTable : Schema where
  table := "edc_transfer_process"
  idColumn := "transferprocess_id"
  columns := [
    ⟨.scalar, "id", "transferprocess_id"⟩,
    ⟨.scalar, "type", "type"⟩,
    ⟨.scalar, "state", "state"⟩,
    ⟨.scalar, "stateCount", "state_count"⟩,
    ⟨.scalar, "stateTimestamp", "state_time_stamp"⟩,
    ⟨.scalar, "createdAt", "created_at"⟩,
    ⟨.scalar, "updatedAt", "updated_at"⟩,
    ⟨.json, "traceContext", "trace_context"⟩,
    ⟨.scalar, "errorDetail", "error_detail"⟩,
    ⟨.json, "resourceManifest", "resource_manifest"⟩,
    ⟨.json, "provisionedResourceSet", "provisioned_resource_set"⟩,
    ⟨.json, "contentDataAddress", "content_data_address"⟩,
    ⟨.json, "deprovisionedResources", "deprovisioned_resources"⟩,
    ⟨.json, "privateProperties", "private_properties"⟩,
    ⟨.json, "callbackAddresses", "callback_addresses"⟩,
    ⟨.scalar, "pending", "pending"⟩,
    ⟨.scalar, "transferType", "transfer_type"⟩,
    ⟨.json, "protocolMessages", "protocol_messages"⟩,
    ⟨.scalar, "dataPlaneId", "data_plane_id"⟩,
    ⟨.scalar, "correlationId", "correlation_id"⟩,
    ⟨.scalar, "counterPartyAddress", "counter_party_address"⟩,
    ⟨.scalar, "protocol", "protocol"⟩,
    ⟨.scalar, "assetId", "asset_id"⟩,
    ⟨.scalar, "contractId", "contract_id"⟩,
    ⟨.json, "dataDestination", "data_destination"⟩]

private def policyDefinitionsTable : Schema where
  table := "edc_policydefinitions"
  idColumn := "policy_id"
  columns := [
    ⟨.scalar, "id", "policy_id"⟩,
    ⟨.scalar, "createdAt", "created_at"⟩,
    ⟨.json, "policy.permissions", "permissions"⟩,
    ⟨.json, "policy.prohibitions", "prohibitions"⟩,
    ⟨.json, "policy.obligations", "duties"⟩,
    ⟨.json, "policy.profiles", "profiles"⟩,
    ⟨.json, "policy.extensibleProperties", "extensible_properties"⟩,
    ⟨.scalar, "policy.inheritsFrom", "inherits_from"⟩,
    ⟨.scalar, "policy.assigner", "assigner"⟩,
    ⟨.scalar, "policy.assignee", "assignee"⟩,
    ⟨.scalar, "policy.target", "target"⟩,
    ⟨.scalar, "policy.type", "policy_type"⟩,
    ⟨.json, "privateProperties", "private_properties"⟩]

private def policyMonitorTable : Schema where
  table := "edc_policy_monitor"
  idColumn := "entry_id"
  columns := [
    ⟨.scalar, "id", "entry_id"⟩,
    ⟨.scalar, "state", "state"⟩,
    ⟨.scalar, "createdAt", "created_at"⟩,
    ⟨.scalar, "updatedAt", "updated_at"⟩,
    ⟨.scalar, "stateCount", "state_count"⟩,
    ⟨.scalar, "stateTimestamp", "state_time_stamp"⟩,
    ⟨.json, "traceContext", "trace_context"⟩,
    ⟨.scalar, "errorDetail", "error_detail"⟩,
    ⟨.json, "properties", "properties"⟩,
    ⟨.scalar, "contractId", "contract_id"⟩]

private def dataPlaneInstancesTable : Schema where
  table := "edc_data_plane_instance"
  idColumn := "id"
  columns := [
    ⟨.scalar, "id", "id"⟩,
    ⟨.json, "data", "data"⟩]
  fallback := some "data"

def schema : Store → Schema
  | .assets => assetsTable
  | .contractDefinitions => contractDefinitionsTable
  | .contractNegotiations => contractNegotiationsTable
  | .transferProcesses => transferProcessesTable
  | .policyDefinitions => policyDefinitionsTable
  | .policyMonitor => policyMonitorTable
  | .dataPlaneInstances => dataPlaneInstancesTable

end Store

end BucketTransfer.Query
