import Nexora.Tenant.Integrations

/-!
# Tenant agent instances

`TenantAgentRepository` as the source computes it: installing, bindings, settings,
version movement and the automatic update batch. An instance is settled after every
change of its bindings or of its pin: paused while a required connection is missing,
active again when they are all there.
-/

namespace Nexora.Tenant

open Nexora.Std Nexora.Catalog Nexora.Integration Nexora.Workspace

/-- The body of an installation; at most twenty bindings are accepted. -/
structure InstallInput where
  slug : String
  displayName : Option String
  updateChannel : Option Channel
  updateMode : Option UpdateMode
  bindings : Dict Uuid
  bounded : bindings.entries.length ≤ 20

/-- The body of an instance's update; at least one field is supplied. -/
structure TenantAgentUpdate where
  displayName : Option String
  status : Option InstanceStatus
  updateChannel : Option Channel
  updateMode : Option UpdateMode
  instructionsOverride : Option String
  settings : Option Json
  notEmpty : displayName.isSome ∨ status.isSome ∨ updateChannel.isSome ∨ updateMode.isSome ∨
    instructionsOverride.isSome ∨ settings.isSome

/-- The manifest of a published version. -/
def manifest (store : Store) (versionId : Uuid) : Except Failure AgentManifest :=
  found ((store.catalog.tables.versions.find? versionId).map VersionRow.manifest)

/-- The channel a workspace follows by default. -/
def policyChannel (store : Store) (workspaceId : Uuid) : Channel :=
  ((store.updatePolicies.find? workspaceId).map UpdatePolicyRow.channel).getD .stable

/-- The update mode a workspace follows by default. -/
def policyMode (store : Store) (workspaceId : Uuid) : UpdateMode :=
  ((store.updatePolicies.find? workspaceId).map UpdatePolicyRow.mode).getD .manual

/-- The connection an instance's key is bound to, with its status. -/
def boundStatus (store : Store) (workspaceId agentId : Uuid) (key : String) :
    Option IntegrationStatus := do
  let binding ← store.bindings.find? (agentId, key)
  guard (binding.workspaceId = workspaceId)
  let integration ← store.integrations.find? binding.tenantIntegrationId
  pure integration.status

/-- The required integrations that do not resolve to a live account. -/
def missingRequired (manifest : AgentManifest) (statusOf : String → Option IntegrationStatus) :
    List String :=
  (manifest.integrations.filter fun requirement =>
    requirement.2 && statusOf requirement.1 ≠ some .connected).map Prod.fst

/-- An agent is ready only when every required integration resolves to a live account. -/
def readiness (manifest : AgentManifest) (statusOf : String → Option IntegrationStatus) : Bool :=
  (missingRequired manifest statusOf).isEmpty

/-- A workspace's instance, whose agent and version the row refers to. -/
def instanceRow (store : Store) (workspaceId agentId : Uuid) : Except Failure TenantAgentRow :=
  found do
    let row ← store.tenantAgents.find? agentId
    guard (row.workspaceId = workspaceId)
    let _ ← store.catalog.tables.agents.find? row.catalogAgentId
    let _ ← store.catalog.tables.versions.find? row.versionId
    pure row

/-- What a person's pause, or its absence, leaves in the status columns. -/
def requestedStanding : InstanceStatus → Standing
  | .active => .active
  | .paused => .paused .operator
  | .disabled => .disabled

/-- What settling makes of an instance: nothing of a retired one, nor of one a person
paused while it could run. -/
def settledRow (row : TenantAgentRow) (ready : Bool) (now : Instant) : TenantAgentRow :=
  if row.standing = .disabled ∨ ready = true ∧ row.standing = .paused .operator then row
  else { row with standing := if ready then .active else .paused .notReady, updatedAt := now }

/-- Keep the instance's status honest about whether it can actually run. -/
def settleStatus (store : Store) (workspaceId agentId : Uuid) (manifest : AgentManifest)
    (now : Instant) : Store :=
  let ready := readiness manifest (boundStatus store workspaceId agentId)
  { store with
    tenantAgents := store.tenantAgents.modify agentId fun row =>
      if row.workspaceId = workspaceId then settledRow row ready now else row }

/-- Append a version event. -/
def recordVersion (store : Store) (principal : Principal) (workspaceId agentId : Uuid)
    (fromVersionId : Option Uuid) (toVersionId : Uuid) (action : VersionAction) (eventId : Uuid)
    (now : Instant) : Except Failure Store := do
  let versionEvents ← inserted (store.versionEvents.insert? eventId
    { workspaceId := workspaceId, tenantAgentId := agentId, fromVersionId := fromVersionId,
      toVersionId := toVersionId, action := action, actor := principal, createdAt := now })
  pure { store with versionEvents := versionEvents }

/-- The row a binding is written as; a rebound key keeps its creation time. -/
def bindingRow (store : Store) (workspaceId agentId : Uuid) (key : String) (integrationId : Uuid)
    (now : Instant) : BindingRow where
  workspaceId := workspaceId
  tenantIntegrationId := integrationId
  createdAt := ((store.bindings.find? (agentId, key)).map BindingRow.createdAt).getD now
  updatedAt := now

/-- Bind a declared integration to one of the workspace's connections. -/
def writeBinding (store : Store) (workspaceId agentId : Uuid) (manifest : AgentManifest)
    (key : String) (integrationId : Uuid) (now : Instant) : Except Failure Store := do
  raiseIf (key ∉ manifest.integrations.map Prod.fst)
    (.http 422 (some "This agent does not use that integration"))
  let row ← orRaise ((store.integrations.find? integrationId).filter fun row =>
      row.workspaceId = workspaceId)
    (.http 404 (some "Unknown connection"))
  raiseIf (row.integrationDefinitionId ≠ key)
    (.http 422 (some "That connection is for a different integration"))
  raiseIf (row.status = .disabled) (.http 409 (some "That connection is disabled"))
  pure { store with
    bindings := store.bindings.put (agentId, key)
      (bindingRow store workspaceId agentId key integrationId now) }

/-- An instance that still reserves a display name. -/
def nameTaken (store : Store) (workspaceId catalogAgentId : Uuid) (displayName : String)
    (except : Option Uuid) : Bool :=
  store.tenantAgents.any fun id row =>
    some id ≠ except && row.workspaceId = workspaceId && row.catalogAgentId = catalogAgentId &&
      row.displayName = displayName && row.standing ≠ .disabled

/-- A catalog entry this workspace may install. -/
def entitledAgent (store : Store) (workspaceId : Uuid) (slug : String) :
    Except Failure (Uuid × AgentRow) :=
  found ((store.catalog.tables.agents.entries.find? fun entry => entry.2.slug = slug).filter
    fun entry => entry.2.status ∉ [.draft, .disabled] &&
      (entry.2.visibility = .publicly ||
        (store.catalog.tables.entitlements.find? (entry.1, workspaceId)).isSome))

/-- Install the version this workspace is offered. -/
def install (deployment : Deployment) (store : Store) (principal : Principal)
    (workspaceId : Uuid) (body : InstallInput) (agentId eventId : Uuid) (now : Instant) :
    Except Failure Store := do
  scopedMember store.memberships principal workspaceId .manageAgents
  let agent ← entitledAgent store workspaceId body.slug
  let channel := body.updateChannel.getD (policyChannel store workspaceId)
  let offered ← orRaise
    (offeredVersion deployment.sha256 store.catalog.tables agent.1 workspaceId channel)
    (.http 409 (some "No released version is available on this channel"))
  let manifest ← manifest store offered.1
  raiseIf (deployment.runtimeVersion.satisfiesMinimum manifest.minRuntimeVersion = false)
    (.http 409
      (some "This agent version requires a newer Nexora runtime than this deployment"))
  let displayName := body.displayName.getD agent.2.name
  raiseIf (nameTaken store workspaceId agent.1 displayName none)
    (.http 409 (some "This workspace already has an instance with that name"))
  let tenantAgents ← inserted (store.tenantAgents.insert? agentId
    { workspaceId := workspaceId, catalogAgentId := agent.1, versionId := offered.1,
      displayName := displayName, standing := .paused .notReady, updateChannel := channel,
      updateMode := body.updateMode.getD (policyMode store workspaceId),
      instructionsOverride := none, settings := .object [], createdAt := now, updatedAt := now })
  let bound ← body.bindings.entries.foldlM
    (fun current entry => writeBinding current workspaceId agentId manifest entry.1 entry.2 now)
    { store with tenantAgents := tenantAgents }
  let recorded ← recordVersion bound principal workspaceId agentId none offered.1 .installed
    eventId now
  -- An instance starts paused and becomes active the moment its required integrations
  -- resolve, so it never runs against a connection it lacks.
  pure (settleStatus recorded workspaceId agentId manifest now)

/-- Bind an integration and settle the instance. -/
def setBinding (store : Store) (principal : Principal) (workspaceId agentId : Uuid)
    (key : String) (integrationId : Uuid) (now : Instant) : Except Failure Store := do
  scopedMember store.memberships principal workspaceId .manageAgents
  let row ← instanceRow store workspaceId agentId
  let manifest ← manifest store row.versionId
  let bound ← writeBinding store workspaceId agentId manifest key integrationId now
  pure (settleStatus bound workspaceId agentId manifest now)

/-- Remove a binding of a workspace's instance. -/
def eraseBinding (store : Store) (workspaceId agentId : Uuid) (key : String) : Store :=
  match store.bindings.find? (agentId, key) with
  | some binding =>
    if binding.workspaceId = workspaceId then
      { store with bindings := store.bindings.erase (agentId, key) }
    else store
  | none => store

/-- Unbind an integration and settle the instance. -/
def clearBinding (store : Store) (principal : Principal) (workspaceId agentId : Uuid)
    (key : String) (now : Instant) : Except Failure Store := do
  scopedMember store.memberships principal workspaceId .manageAgents
  let row ← instanceRow store workspaceId agentId
  let manifest ← manifest store row.versionId
  pure (settleStatus (eraseBinding store workspaceId agentId key) workspaceId agentId manifest now)

/-- Change an instance's settings or status. A pause asked for here is recorded as a
decision. -/
def updateAgentInstance (store : Store) (principal : Principal) (workspaceId agentId : Uuid)
    (body : TenantAgentUpdate) (now : Instant) : Except Failure Store := do
  scopedMember store.memberships principal workspaceId .manageAgents
  let row ← instanceRow store workspaceId agentId
  let manifest ← manifest store row.versionId
  raiseIf (body.status = some .active ∧
      readiness manifest (boundStatus store workspaceId agentId) = false)
    (.http 409 (some "Connect the required integrations before activating"))
  let changed := { row with
    displayName := body.displayName.getD row.displayName
    standing := (body.status.map requestedStanding).getD row.standing
    updateChannel := body.updateChannel.getD row.updateChannel
    updateMode := body.updateMode.getD row.updateMode
    instructionsOverride := body.instructionsOverride.or row.instructionsOverride
    settings := body.settings.getD row.settings
    updatedAt := now }
  raiseIf (changed.standing ≠ .disabled ∧
      nameTaken store workspaceId row.catalogAgentId changed.displayName (some agentId) = true)
    .constraint
  pure { store with tenantAgents := store.tenantAgents.put agentId changed }

/-- Retire an instance. Its history stays; its bindings and its name are given up. -/
def uninstall (store : Store) (principal : Principal) (workspaceId agentId : Uuid)
    (now : Instant) : Except Failure Store := do
  scopedMember store.memberships principal workspaceId .manageAgents
  let _ ← instanceRow store workspaceId agentId
  pure { store with
    tenantAgents := store.tenantAgents.modify agentId fun row =>
      { row with standing := .disabled, updatedAt := now }
    bindings := ((store.bindings.select fun key binding =>
        key.1 = agentId ∧ binding.workspaceId = workspaceId).map Prod.fst).foldl
      Table.erase store.bindings }

/-- Move the pin only. Settings, overrides and bindings are untouched by design. -/
def repin (store : Store) (principal : Principal) (workspaceId agentId : Uuid)
    (fromVersionId toVersionId : Uuid) (action : VersionAction) (eventId : Uuid)
    (now : Instant) : Except Failure Store :=
  recordVersion { store with
      tenantAgents := store.tenantAgents.modify agentId fun row =>
        if row.workspaceId = workspaceId then
          { row with versionId := toVersionId, updatedAt := now }
        else row }
    principal workspaceId agentId (some fromVersionId) toVersionId action eventId now

/-- The version a move is to: an explicit released one, or the one offered. -/
def moveTarget (deployment : Deployment) (store : Store) (row : TenantAgentRow)
    (version : Option Version) : Except Failure Uuid :=
  match version with
  | none => do
      let offered ← orRaise
        (offeredVersion deployment.sha256 store.catalog.tables row.catalogAgentId
          row.workspaceId row.updateChannel)
        (.http 409 (some "No released version is available on this channel"))
      pure offered.1
  | some number => do
      -- An explicit version may be older than the offered one: pinning back is a
      -- supported move.
      let target ← orRaise ((agentVersions store.catalog.tables row.catalogAgentId).find?
        fun entry => entry.2.version = number) (.http 404 (some "Unknown version"))
      raiseIf (target.2.status ∈ [.draft, .disabled])
        (.http 409 (some "That version is not released"))
      pure target.1

/-- Pin an instance to another version and settle it. -/
def moveVersion (deployment : Deployment) (store : Store) (principal : Principal)
    (workspaceId agentId : Uuid) (version : Option Version) (eventId : Uuid) (now : Instant) :
    Except Failure Store := do
  scopedMember store.memberships principal workspaceId .manageAgents
  let row ← instanceRow store workspaceId agentId
  let target ← moveTarget deployment store row version
  if target = row.versionId then pure store else do
    let manifest ← manifest store target
    raiseIf (deployment.runtimeVersion.satisfiesMinimum manifest.minRuntimeVersion = false)
      (.http 409
        (some "That version requires a newer Nexora runtime than this deployment"))
    let moved ← repin store principal workspaceId agentId row.versionId target .updated eventId now
    pure (settleStatus moved workspaceId agentId manifest now)

/-- The version before an instance's latest recorded move. -/
def rollbackTarget (store : Store) (workspaceId agentId : Uuid) : Option Uuid := do
  let latest ← (store.versionEvents.select fun _ event =>
    event.tenantAgentId = agentId ∧ event.workspaceId = workspaceId ∧
      event.fromVersionId.isSome).argmax fun entry => toLex (entry.2.createdAt, entry.1)
  latest.2.fromVersionId

/-- Return an instance to the version before its latest move and settle it. -/
def rollbackVersion (store : Store) (principal : Principal) (workspaceId agentId eventId : Uuid)
    (now : Instant) : Except Failure Store := do
  scopedMember store.memberships principal workspaceId .manageAgents
  let row ← instanceRow store workspaceId agentId
  let target ← orRaise ((rollbackTarget store workspaceId agentId).filter (· ≠ row.versionId))
    (.http 409 (some "There is no earlier version to return to"))
  let manifest ← manifest store target
  let moved ← repin store principal workspaceId agentId row.versionId target .rolledBack eventId now
  pure (settleStatus moved workspaceId agentId manifest now)

/-- Set the workspace's default channel and mode. -/
def setPolicy (store : Store) (principal : Principal) (workspaceId : Uuid) (channel : Channel)
    (mode : UpdateMode) : Except Failure Store := do
  scopedMember store.memberships principal workspaceId .manageAgents
  pure { store with updatePolicies := store.updatePolicies.put workspaceId ⟨channel, mode⟩ }

/-- The identity automatic updates act under. -/
def updateScheduler : Principal := ⟨"nexora://system", "agent-update-scheduler"⟩

/-- The instances of one automatic update batch: enabled, automatic, after the cursor and
not locked by another transaction, in identifier order. -/
def automaticBatch (store : Store) (limit : Nat) (cursor : Option Uuid) (locked : List Uuid) :
    List (Uuid × TenantAgentRow) :=
  let candidates := store.tenantAgents.select fun id row =>
    row.updateMode = .automatic && row.standing ≠ .disabled &&
      (match cursor with
        | some last => decide (last < id)
        | none => true) && decide (id ∉ locked)
  (candidates.insertionSort fun left right => left.1 ≤ right.1).take limit

/-- The version one instance of a batch moves to, with its manifest: the offered one,
when it is another one and this runtime serves it. -/
def automaticTarget (deployment : Deployment) (store : Store) (row : TenantAgentRow) :
    Except Failure (Option (Uuid × Version × AgentManifest)) :=
  match offeredVersion deployment.sha256 store.catalog.tables row.catalogAgentId row.workspaceId
      row.updateChannel with
  | none => pure none
  | some (target, number) =>
    if target = row.versionId then pure none else do
      let manifest ← manifest store target
      -- Fail closed: a later runtime rollout makes this version eligible.
      if deployment.runtimeVersion.satisfiesMinimum manifest.minRuntimeVersion = false then
        pure none
      else pure (some (target, number, manifest))

/-- Apply the catalog's offer to one instance of a batch. -/
def automaticUpdate (deployment : Deployment) (store : Store) (agentId : Uuid)
    (row : TenantAgentRow) (eventId : Uuid) (now : Instant) : Except Failure Store := do
  match ← automaticTarget deployment store row with
  | none => pure store
  | some (target, number, manifest) => do
      let pinned ← found (store.catalog.tables.versions.find? row.versionId)
      let action := if number.parts < pinned.version.parts then .rolledBack else .updated
      let moved ← repin store updateScheduler row.workspaceId agentId row.versionId target action
        eventId now
      pure (settleStatus moved row.workspaceId agentId manifest now)

/-- Apply the catalog's offers to a bounded batch of automatic instances. -/
def applyAutomaticUpdates (deployment : Deployment) (store : Store) (limit : Nat)
    (cursor : Option Uuid) (locked : List Uuid) (eventId : Uuid → Uuid) (now : Instant) :
    Except Failure Store := do
  raiseIf (limit < 1 ∨ 200 < limit) (.valueError "limit must be between 1 and 200")
  (automaticBatch store limit cursor locked).foldlM
    (fun current entry =>
      automaticUpdate deployment current entry.1 entry.2 (eventId entry.1) now) store

end Nexora.Tenant
