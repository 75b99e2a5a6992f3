import Nexora.Std.History
import Nexora.Catalog.Operations
import Nexora.Tenant.Agents

/-!
# The tenancy machine

Every write of the catalog, vault and instance repositories as one labelled
operation over the tenancy store. A run is any sequence of successful operations from
a store without instances; a failed operation is rolled back and is no step.
-/

namespace Nexora.Tenant

open Nexora.Std Nexora.Catalog Nexora.Integration Nexora.Workspace

/-- A write of the tenancy store, with what it draws from its surroundings. -/
inductive Operation where
  | setMember (principal : Principal) (workspaceId : Uuid) (subject : String) (role : Role)
  | catalog (operation : CatalogOperation)
  | publishDefinition (definitionId : String) (manifest : ConnectorManifest)
  | connect (cached : Option ConnectorManifest) (principal : Principal) (workspaceId : Uuid)
      (body : ConnectInput) (integrationId credentialId : Uuid) (now : Instant)
  | updateIntegration (principal : Principal) (workspaceId integrationId : Uuid)
      (body : IntegrationUpdate) (now : Instant)
  | rotate (cached : Option ConnectorManifest) (principal : Principal)
      (workspaceId integrationId : Uuid) (credentials : Dict String) (credentialId : Uuid)
      (now : Instant)
  | disconnect (principal : Principal) (workspaceId integrationId : Uuid)
  | testIntegration (cached : Option ConnectorManifest) (principal : Principal)
      (workspaceId integrationId : Uuid) (exchange : Except Failure TokenAnswer)
      (probe : Except ConnectorError ConnectorResult) (credentialId : Uuid) (clock now : Instant)
  | refreshForCall (cached : Option ConnectorManifest) (workspaceId integrationId : Uuid)
      (exchange : Except Failure TokenAnswer) (credentialId : Uuid) (clock now : Instant)
  | startOAuth (cached : Option ConnectorManifest) (principal : Principal) (workspaceId : Uuid)
      (body : OAuthStartInput) (integrationId : Uuid) (stateDigest : Nat) (clock now : Instant)
  | completeOAuth (cached : Option ConnectorManifest) (principal : Principal) (workspaceId : Uuid)
      (stateDigest : Nat) (exchange : Except Failure TokenAnswer) (credentialId : Uuid)
      (clock now : Instant)
  | install (principal : Principal) (workspaceId : Uuid) (body : InstallInput)
      (agentId eventId : Uuid) (now : Instant)
  | setBinding (principal : Principal) (workspaceId agentId : Uuid) (key : String)
      (integrationId : Uuid) (now : Instant)
  | clearBinding (principal : Principal) (workspaceId agentId : Uuid) (key : String)
      (now : Instant)
  | updateAgentInstance (principal : Principal) (workspaceId agentId : Uuid)
      (body : TenantAgentUpdate) (now : Instant)
  | uninstall (principal : Principal) (workspaceId agentId : Uuid) (now : Instant)
  | moveVersion (principal : Principal) (workspaceId agentId : Uuid) (version : Option Version)
      (eventId : Uuid) (now : Instant)
  | rollbackVersion (principal : Principal) (workspaceId agentId eventId : Uuid) (now : Instant)
  | setPolicy (principal : Principal) (workspaceId : Uuid) (channel : Channel) (mode : UpdateMode)
  | applyAutomaticUpdates (limit : Nat) (cursor : Option Uuid) (locked : List Uuid)
      (eventId : Uuid → Uuid) (now : Instant)

/-- The store after an operation. -/
def run (deployment : Deployment) (store : Store) : Operation → Except Failure Store
  | .setMember principal workspaceId subject role => do
      let memberships ← setMember store.memberships principal workspaceId subject role
      pure { store with memberships := memberships }
  | .catalog operation => do
      let catalog ← operation.run store.catalog
      pure { store with catalog := catalog }
  | .publishDefinition definitionId manifest => publishDefinition store definitionId manifest
  | .connect cached principal workspaceId body integrationId credentialId now =>
    connect deployment store cached principal workspaceId body integrationId credentialId now
  | .updateIntegration principal workspaceId integrationId body now =>
    updateIntegration store principal workspaceId integrationId body now
  | .rotate cached principal workspaceId integrationId credentials credentialId now =>
    rotate deployment store cached principal workspaceId integrationId credentials credentialId
      now
  | .disconnect principal workspaceId integrationId =>
    disconnect store principal workspaceId integrationId
  | .testIntegration cached principal workspaceId integrationId exchange probe credentialId clock
      now => do
      let tested ← testIntegration deployment store cached principal workspaceId integrationId
        exchange probe credentialId clock now
      pure tested.2
  | .refreshForCall cached workspaceId integrationId exchange credentialId clock now =>
    refreshForCall deployment store cached workspaceId integrationId exchange credentialId clock
      now
  | .startOAuth cached principal workspaceId body integrationId stateDigest clock now =>
    startOAuth deployment store cached principal workspaceId body integrationId stateDigest clock
      now
  | .completeOAuth cached principal workspaceId stateDigest exchange credentialId clock now =>
    completeOAuth deployment store cached principal workspaceId stateDigest exchange credentialId
      clock now
  | .install principal workspaceId body agentId eventId now =>
    install deployment store principal workspaceId body agentId eventId now
  | .setBinding principal workspaceId agentId key integrationId now =>
    setBinding store principal workspaceId agentId key integrationId now
  | .clearBinding principal workspaceId agentId key now =>
    clearBinding store principal workspaceId agentId key now
  | .updateAgentInstance principal workspaceId agentId body now =>
    updateAgentInstance store principal workspaceId agentId body now
  | .uninstall principal workspaceId agentId now =>
    uninstall store principal workspaceId agentId now
  | .moveVersion principal workspaceId agentId version eventId now =>
    moveVersion deployment store principal workspaceId agentId version eventId now
  | .rollbackVersion principal workspaceId agentId eventId now =>
    rollbackVersion store principal workspaceId agentId eventId now
  | .setPolicy principal workspaceId channel mode =>
    setPolicy store principal workspaceId channel mode
  | .applyAutomaticUpdates limit cursor locked eventId now =>
    applyAutomaticUpdates deployment store limit cursor locked eventId now

/-- The tenancy store under any sequence of operations, from a store without instances. -/
def machine (deployment : Deployment) : Machine Store Operation :=
  .ofFunction (fun store => store.tenantAgents = .empty) (run deployment)

/-- Executing operations from a store without instances is a run of the machine. -/
theorem exists_run (deployment : Deployment) (operations : List Operation) (start : Store)
    (check : Store → Bool) (valid : start.tenantAgents = .empty)
    (passes : (operations.foldlM (run deployment) start).toOption.map check = some true) :
    ∃ history state, (machine deployment).Runs history state ∧
      history.map Transition.label = operations ∧ check state = true :=
  Machine.exists_run_of_replay _ (run deployment) operations start check valid passes

end Nexora.Tenant
