import Nexora.Catalog.Repository
import Nexora.Integration.Credentials
import Nexora.Workspace.Members

/-!
# The tenancy store

The rows behind a tenant's connections and installed agents, beside the catalog they
are installed from. The database couples an instance's status with the reason for a
pause; `Standing` holds both columns, so that a paused instance without a reason, or
an active one with a reason, cannot be written.
-/

namespace Nexora.Tenant

open Nexora.Std Nexora.Catalog Nexora.Integration Nexora.Workspace

/-- Where a connection stands. -/
inductive IntegrationStatus where
  | pending
  | connected
  | expired
  | revoked
  | error
  | disabled
  deriving DecidableEq, Repr

/-- A row of `tenant_integrations`. -/
structure IntegrationRow where
  workspaceId : Uuid
  integrationDefinitionId : String
  displayName : String
  accountIdentifier : String
  authType : AuthType
  credentialReference : Option Uuid
  status : IntegrationStatus
  scopes : List String
  grantedScopes : List String
  config : Dict String
  createdAt : Instant
  updatedAt : Instant
  lastTestedAt : Option Instant
  lastSuccessAt : Option Instant
  lastError : Option String
  deriving DecidableEq

/-- A row of `integration_credentials`. The vault is an ideal authenticated cipher: the
row holds the document it seals and the identity bound into its associated data. -/
structure CredentialRow where
  workspaceId : Uuid
  tenantIntegrationId : Uuid
  document : Dict String
  expiresAt : Option Instant
  createdAt : Instant
  deriving DecidableEq

/-- A row of `integration_oauth_states`. -/
structure OAuthStateRow where
  workspaceId : Uuid
  integrationDefinitionId : String
  tenantIntegrationId : Uuid
  requestedScopes : List String
  expiresAt : Instant
  deriving DecidableEq

/-- How an instance follows new releases. -/
inductive UpdateMode where
  | manual
  | automatic
  deriving DecidableEq, Repr

/-- Why an instance is paused. -/
inductive PausedReason where
  | notReady
  | operator
  deriving DecidableEq, Repr

/-- An instance's status as a person sets it. -/
inductive InstanceStatus where
  | active
  | paused
  | disabled
  deriving DecidableEq, Repr

/-- The `status` and `paused_reason` columns of an instance: a reason stands beside
exactly the paused status. -/
inductive Standing where
  | active
  | paused (reason : PausedReason)
  | disabled
  deriving DecidableEq, Repr

/-- The `status` column. -/
def Standing.status : Standing → InstanceStatus
  | .active => .active
  | .paused _ => .paused
  | .disabled => .disabled

/-- A row of `tenant_agents`. -/
structure TenantAgentRow where
  workspaceId : Uuid
  catalogAgentId : Uuid
  versionId : Uuid
  displayName : String
  standing : Standing
  updateChannel : Channel
  updateMode : UpdateMode
  instructionsOverride : Option String
  settings : Json
  createdAt : Instant
  updatedAt : Instant
  deriving DecidableEq

/-- A row of `agent_integration_bindings`, under its agent and key. -/
structure BindingRow where
  workspaceId : Uuid
  tenantIntegrationId : Uuid
  createdAt : Instant
  updatedAt : Instant
  deriving DecidableEq

/-- What a version event records. -/
inductive VersionAction where
  | installed
  | updated
  | rolledBack
  deriving DecidableEq, Repr

/-- A row of `tenant_agent_version_events`. -/
structure VersionEventRow where
  workspaceId : Uuid
  tenantAgentId : Uuid
  fromVersionId : Option Uuid
  toVersionId : Uuid
  action : VersionAction
  actor : Principal
  createdAt : Instant
  deriving DecidableEq

/-- A workspace's row of `agent_update_policies`. -/
structure UpdatePolicyRow where
  channel : Channel
  mode : UpdateMode
  deriving DecidableEq

/-- The tables of the tenancy store. -/
structure Store where
  memberships : Memberships
  catalog : Nexora.Catalog
  definitions : Table String ConnectorManifest
  integrations : Table Uuid IntegrationRow
  credentials : Table Uuid CredentialRow
  oauthStates : Table Nat OAuthStateRow
  updatePolicies : Table Uuid UpdatePolicyRow
  tenantAgents : Table Uuid TenantAgentRow
  bindings : Table (Uuid × String) BindingRow
  versionEvents : Table Uuid VersionEventRow

/-- What a deployment configures: the standard library, the digest, whether secret
storage has a key, the registered OAuth clients and the runtime version. -/
structure Deployment where
  library : Library
  sha256 : String → Nat
  vaultAvailable : Bool
  oauthClients : List String
  runtimeVersion : Version

end Nexora.Tenant
