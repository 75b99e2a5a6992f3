import Nexora.Catalog.Repository

/-!
# Catalog operations

Every write of the catalog repository as one labelled operation.
-/

namespace Nexora.Catalog

open Nexora.Std

/-- A write of the catalog repository, with the identifiers and the time it draws. -/
inductive CatalogOperation where
  | createAgent (body : CatalogAgentInput) (agentId : Uuid) (now : Instant)
  | updateAgent (slug : String) (body : CatalogAgentUpdate) (now : Instant)
  | publishVersion (slug : String) (manifest : AgentManifest) (versionId : Uuid) (now : Instant)
  | setVersionRelease (slug : String) (version : Version) (body : VersionReleaseInput)
  | createRollout (slug : String) (body : RolloutInput) (rolloutId : Uuid) (now : Instant)
  | updateRollout (slug : String) (rolloutId : Uuid) (body : RolloutUpdate) (now : Instant)
  | rollbackRollout (slug : String) (rolloutId replacement : Uuid) (now : Instant)
  | grantEntitlement (slug : String) (workspaceId : Uuid) (now : Instant)
  | revokeEntitlement (slug : String) (workspaceId : Uuid)

/-- The catalog after an operation. -/
def CatalogOperation.run (operation : CatalogOperation) (catalog : Nexora.Catalog) :
    Except Failure Nexora.Catalog :=
  match operation with
  | .createAgent body agentId now => Catalog.createAgent catalog body agentId now
  | .updateAgent slug body now => Catalog.updateAgent catalog slug body now
  | .publishVersion slug manifest versionId now =>
    Catalog.publishVersion catalog slug manifest versionId now
  | .setVersionRelease slug version body => Catalog.setVersionRelease catalog slug version body
  | .createRollout slug body rolloutId now => do
      pure (← Catalog.createRollout catalog slug body rolloutId now).2
  | .updateRollout slug rolloutId body now => do
      pure (← Catalog.updateRollout catalog slug rolloutId body now).2
  | .rollbackRollout slug rolloutId replacement now => do
      pure (← Catalog.rollbackRollout catalog slug rolloutId replacement now).2
  | .grantEntitlement slug workspaceId now =>
    Catalog.grantEntitlement catalog slug workspaceId now
  | .revokeEntitlement slug workspaceId => Catalog.revokeEntitlement catalog slug workspaceId

end Nexora.Catalog
