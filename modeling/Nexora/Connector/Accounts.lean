import Nexora.Connector.Names
import Nexora.Tenant.Integrations

/-!
# Connections and their tools

A connection's tools are provisioned after the transaction that connected it, and hidden
after the one that removed it. All accounts of a connector share one tool for each endpoint,
and a tool's calls go to the account that was provisioned last. So the tools follow the
connections exactly where that account is still connected when everything has finished, or
its tools were hidden after they were provisioned and no other account is left.
-/

namespace Nexora.Connector

open Nexora.Std Nexora.Workspace Nexora.Tools Nexora.Integration Nexora.Tenant Json

/-- What a request does once its own transaction has committed. -/
inductive Task where
  | sync (workspaceId integrationId : Uuid) (definitionId : String)
  | disable (workspaceId integrationId : Uuid)
  deriving DecidableEq

/-- The connections and the tools of all workspaces, the identifiers that connections have
had, and what is still to be done. -/
structure Accounts where
  tenant : Tenant.Store
  tools : Run.Store
  drawn : List Uuid
  pending : List Task

/-- A request about a connection, or the second transaction of one. -/
inductive Request where
  | connect (cached : Option ConnectorManifest) (principal : Principal) (workspaceId : Uuid)
      (body : ConnectInput) (integrationId credentialId : Uuid) (now : Instant)
  | startOAuth (cached : Option ConnectorManifest) (principal : Principal) (workspaceId : Uuid)
      (body : OAuthStartInput) (integrationId : Uuid) (stateDigest : Nat) (clock now : Instant)
  | completeOAuth (cached : Option ConnectorManifest) (principal : Principal)
      (workspaceId : Uuid) (stateDigest : Nat) (exchange : Except Failure TokenAnswer)
      (credentialId : Uuid) (clock now : Instant)
  | disconnect (principal : Principal) (workspaceId integrationId : Uuid)
  | perform (index : Nat) (toolIds : Nat → Uuid)

namespace Accounts

variable (accounts : Accounts)

/-- `uuid4` draws 128 bits that no connection has had. -/
def draw (integrationId : Uuid) : Except Run.Raised Unit :=
  raiseIf (integrationId ∈ accounts.drawn ∨ 2 ^ 128 ≤ integrationId) .database

/-- The provisioning that follows a request about a connection. -/
def syncLater (workspaceId integrationId : Uuid) : Except Run.Raised Accounts := do
  let row ← Run.ofRequest (integrationRow accounts.tenant workspaceId integrationId)
  pure { accounts with
    pending := accounts.pending ++ [.sync workspaceId integrationId row.integrationDefinitionId] }

/-- The tools after a task. -/
def performed (platform : Run.Platform) (toolIds : Nat → Uuid) : Task → Except Run.Raised Run.Store
  | .sync workspaceId integrationId definitionId =>
    sync platform accounts.tools (accounts.tenant.definitions.find? definitionId) workspaceId
      integrationId toolIds
  | .disable workspaceId integrationId => pure (disable accounts.tools workspaceId integrationId)

/-- The accounts after a request. -/
def run (platform : Run.Platform) (deployment : Deployment) :
    Request → Except Run.Raised Accounts
  | .connect cached principal workspaceId body integrationId credentialId now => do
      accounts.draw integrationId
      let tenant ← Run.ofRequest (connect deployment accounts.tenant cached principal workspaceId
        body integrationId credentialId now)
      { accounts with tenant := tenant, drawn := integrationId :: accounts.drawn }.syncLater
        workspaceId integrationId
  | .startOAuth cached principal workspaceId body integrationId stateDigest clock now => do
      accounts.draw integrationId
      let tenant ← Run.ofRequest (startOAuth deployment accounts.tenant cached principal
        workspaceId body integrationId stateDigest clock now)
      pure { accounts with tenant := tenant, drawn := integrationId :: accounts.drawn }
  | .completeOAuth cached principal workspaceId stateDigest exchange credentialId clock now => do
      let state ← Run.ofRequest (found (accounts.tenant.oauthStates.find? stateDigest))
      let tenant ← Run.ofRequest (completeOAuth deployment accounts.tenant cached principal
        workspaceId stateDigest exchange credentialId clock now)
      { accounts with tenant := tenant }.syncLater workspaceId state.tenantIntegrationId
  | .disconnect principal workspaceId integrationId => do
      let tenant ← Run.ofRequest (disconnect accounts.tenant principal workspaceId integrationId)
      pure { accounts with
        tenant := tenant
        pending := accounts.pending ++ [.disable workspaceId integrationId] }
  | .perform index toolIds => do
      let task ← orRaise accounts.pending[index]? .database
      let tools ← accounts.performed platform toolIds task
      pure { accounts with tools := tools, pending := accounts.pending.eraseIdx index }

end Accounts

/-- Published connectors are well formed and stand under their identifiers. -/
def Published (platform : Run.Platform) (deployment : Deployment)
    (definitions : Table String ConnectorManifest) : Prop :=
  ∀ definitionId manifest, definitions.find? definitionId = some manifest →
    manifest.id = definitionId ∧ manifest.validate deployment.library platform.runtime = .ok ()

/-- Workspaces before any account is connected: their tools are no connector's. -/
structure Unconnected (platform : Run.Platform) (deployment : Deployment) (accounts : Accounts) :
    Prop where
  published : Published platform deployment accounts.tenant.definitions
  none : accounts.tenant.integrations = .empty
  undrawn : accounts.drawn = []
  quiet : accounts.pending = []
  namesUnique : NamesUnique accounts.tools.toolDefinitions
  serverKeys : ∀ toolId tool, accounts.tools.toolDefinitions.find? toolId = some tool →
    tool.serverKey ≠ connectorServerKey
  names : ∀ toolId tool definitionId manifest, ∀ endpoint ∈ manifest.endpoints,
    accounts.tools.toolDefinitions.find? toolId = some tool →
      accounts.tenant.definitions.find? definitionId = some manifest →
        tool.name ≠ toolName manifest endpoint

/-- Requests about connections and their second transactions, in any order. -/
def accountMachine (platform : Run.Platform) (deployment : Deployment) :
    Machine Accounts Request :=
  .ofFunction (Unconnected platform deployment) fun accounts => accounts.run platform deployment

/-- The task that a step performs. -/
def taskOf (transition : Transition Accounts Request) : Option Task :=
  match transition.label with
  | .perform index _ => transition.before.pending[index]?
  | _ => none

/-- What a task makes of the account that a connector's tools in a workspace go to, and of
whether they have been hidden since. -/
def track (workspaceId : Uuid) (definitionId : String) (account : Option (Uuid × Bool)) :
    Option Task → Option (Uuid × Bool)
  | some (.sync inWorkspace integrationId ofDefinition) =>
    if inWorkspace = workspaceId ∧ ofDefinition = definitionId then some (integrationId, false)
    else account
  | some (.disable inWorkspace integrationId) =>
    account.map fun tracked =>
      (tracked.1, tracked.2 || (inWorkspace = workspaceId && integrationId = tracked.1))
  | none => account

/-- The account of a connector that was provisioned last in a workspace, and whether its tools
have been hidden since. -/
def provisionedLast (history : List (Transition Accounts Request)) (workspaceId : Uuid)
    (definitionId : String) : Option (Uuid × Bool) :=
  (history.map taskOf).foldl (track workspaceId definitionId) none

/-- A workspace has a connected account of a connector. -/
def HasConnected (tenant : Tenant.Store) (workspaceId : Uuid) (definitionId : String) : Prop :=
  ∃ integrationId row, tenant.integrations.find? integrationId = some row ∧
    row.workspaceId = workspaceId ∧ row.integrationDefinitionId = definitionId ∧
      row.status = .connected

/-- The connector tools follow the connections: no enabled one goes to a removed connection,
and each endpoint of a connector with a connected account has an enabled one that goes to a
connection of that connector. -/
structure ToolsFollow (accounts : Accounts) : Prop where
  present : ∀ toolId tool integrationId,
    accounts.tools.toolDefinitions.find? toolId = some tool → tool.enabled = true →
      tool.serverKey = connectorServerKey → Targets tool integrationId →
        accounts.tenant.integrations.find? integrationId ≠ none
  offered : ∀ workspaceId definitionId manifest, ∀ endpoint ∈ manifest.endpoints,
    accounts.tenant.definitions.find? definitionId = some manifest →
      HasConnected accounts.tenant workspaceId definitionId →
        ∃ toolId tool integrationId row,
          accounts.tools.toolNamed workspaceId (toolName manifest endpoint) = some (toolId, tool) ∧
          tool.enabled = true ∧ Targets tool integrationId ∧
            accounts.tenant.integrations.find? integrationId = some row ∧
              row.workspaceId = workspaceId ∧ row.integrationDefinitionId = definitionId

/-- The account of each connector that was provisioned last is still there, or its tools have
been hidden since and no connected account of the connector is left. -/
def LastStands (history : List (Transition Accounts Request)) (accounts : Accounts) : Prop :=
  ∀ workspaceId definitionId manifest integrationId hidden,
    accounts.tenant.definitions.find? definitionId = some manifest → manifest.endpoints ≠ [] →
      provisionedLast history workspaceId definitionId = some (integrationId, hidden) →
        accounts.tenant.integrations.find? integrationId ≠ none ∨
          hidden = true ∧ ¬ HasConnected accounts.tenant workspaceId definitionId

variable {platform : Run.Platform} {deployment : Deployment} {accounts next : Accounts}
  {workspaceId integrationId : Uuid} {definitionId : String} {store later : Tenant.Store}
  {now : Instant}

theorem writeCredential_writes {document : Dict String} {expiresAt : Option Instant}
    {credentialId : Uuid}
    (ok : writeCredential deployment store workspaceId integrationId document expiresAt
      credentialId now = .ok later) :
    later.definitions = store.definitions ∧ ∃ was row,
      store.integrations.find? integrationId = some was ∧
        Table.Written store.integrations later.integrations integrationId row ∧
          row.workspaceId = was.workspaceId ∧
            row.integrationDefinitionId = was.integrationDefinitionId := by
  simp only [writeCredential, bind_eq_ok, found_eq_ok, pure_eq_ok] at ok
  obtain ⟨_, _, _, _, was, present, rfl⟩ := ok
  refine ⟨rfl, was, _, present, .modify _ present, ?_⟩
  split <;> exact ⟨rfl, rfl⟩

theorem insertIntegration_writes {definition : ConnectorManifest}
    {displayName accountIdentifier : String} {scopes : List String} {config : Dict String}
    (ok : insertIntegration store workspaceId integrationId definition displayName
      accountIdentifier scopes config now = .ok later) :
    later.definitions = store.definitions ∧ ∃ row,
      store.integrations.find? integrationId = none ∧
        Table.Written store.integrations later.integrations integrationId row ∧
          row.workspaceId = workspaceId ∧ row.status = .pending := by
  simp only [insertIntegration, bind_eq_ok, inserted_eq_ok, Table.insert?_eq_some,
    pure_eq_ok] at ok
  obtain ⟨_, _, _, ⟨absent, rfl⟩, rfl⟩ := ok
  exact ⟨rfl, _, absent, .put _ _ _, rfl, rfl⟩

/-- What a step changes. -/
inductive Effect (platform : Run.Platform) (before : Accounts) : Request → Accounts → Prop where
  | added {request : Request} {after : Accounts} (integrationId : Uuid) (row : IntegrationRow)
      (idle : taskOf ⟨before, request, after⟩ = none)
      (undrawn : integrationId ∉ before.drawn) (bounded : integrationId < 2 ^ 128)
      (written : Table.Written before.tenant.integrations after.tenant.integrations
        integrationId row)
      (definitions : after.tenant.definitions = before.tenant.definitions)
      (tools : after.tools = before.tools) (drawn : after.drawn = integrationId :: before.drawn)
      (pending : after.pending = before.pending ++
          [.sync row.workspaceId integrationId row.integrationDefinitionId] ∨
        after.pending = before.pending ∧ row.status ≠ .connected) :
      Effect platform before request after
  | completed {request : Request} {after : Accounts} (integrationId : Uuid)
      (was row : IntegrationRow) (idle : taskOf ⟨before, request, after⟩ = none)
      (present : before.tenant.integrations.find? integrationId = some was)
      (written : Table.Written before.tenant.integrations after.tenant.integrations
        integrationId row)
      (inWorkspace : row.workspaceId = was.workspaceId)
      (ofDefinition : row.integrationDefinitionId = was.integrationDefinitionId)
      (definitions : after.tenant.definitions = before.tenant.definitions)
      (tools : after.tools = before.tools) (drawn : after.drawn = before.drawn)
      (pending : after.pending = before.pending ++
        [.sync row.workspaceId integrationId row.integrationDefinitionId]) :
      Effect platform before request after
  | removed {request : Request} {after : Accounts} (workspaceId integrationId : Uuid)
      (was : IntegrationRow) (idle : taskOf ⟨before, request, after⟩ = none)
      (present : before.tenant.integrations.find? integrationId = some was)
      (erased : after.tenant.integrations = before.tenant.integrations.erase integrationId)
      (definitions : after.tenant.definitions = before.tenant.definitions)
      (tools : after.tools = before.tools) (drawn : after.drawn = before.drawn)
      (pending : after.pending = before.pending ++ [.disable workspaceId integrationId]) :
      Effect platform before request after
  | performed {request : Request} {after : Accounts} (index : Nat) (toolIds : Nat → Uuid)
      (task : Task) (isTask : taskOf ⟨before, request, after⟩ = some task)
      (listed : before.pending[index]? = some task)
      (ok : before.performed platform toolIds task = .ok after.tools)
      (tenant : after.tenant = before.tenant) (drawn : after.drawn = before.drawn)
      (pending : after.pending = before.pending.eraseIdx index) :
      Effect platform before request after

theorem syncLater_eq_ok (ok : accounts.syncLater workspaceId integrationId = .ok next) :
    ∃ row, accounts.tenant.integrations.find? integrationId = some row ∧
      row.workspaceId = workspaceId ∧ next = { accounts with
        pending := accounts.pending ++
          [.sync workspaceId integrationId row.integrationDefinitionId] } := by
  simp only [Accounts.syncLater, integrationRow, bind_eq_ok, Run.ofRequest_eq_ok, found_eq_ok,
    Option.filter_eq_some_iff, decide_eq_true_eq, pure_eq_ok] at ok
  obtain ⟨row, ⟨present, inWorkspace⟩, rfl⟩ := ok
  exact ⟨row, present, inWorkspace, rfl⟩

theorem effect {request : Request} (ok : accounts.run platform deployment request = .ok next) :
    Effect platform accounts request next := by
  cases request with
  | connect cached principal workspaceId body integrationId credentialId now =>
    simp only [Accounts.run, Accounts.draw, bind_eq_ok, raiseIf_eq_ok, Run.ofRequest_eq_ok,
      not_or, not_le] at ok
    obtain ⟨_, ⟨undrawn, bounded⟩, tenant, connected, later⟩ := ok
    simp only [connect, bind_eq_ok] at connected
    obtain ⟨_, _, _, _, _, _, _, _, _, _, _, _, inserted, insertion, write⟩ := connected
    obtain ⟨sameDefinitions, early, absent, added, _⟩ := insertIntegration_writes insertion
    obtain ⟨laterDefinitions, was, row, present, written, _⟩ := writeCredential_writes write
    obtain ⟨found, stored, inWorkspace, rfl⟩ := syncLater_eq_ok later
    obtain rfl : found = row := Option.some.inj (stored.symm.trans written.self)
    subst inWorkspace
    exact .added integrationId found rfl undrawn bounded (added.again written)
      (laterDefinitions.trans sameDefinitions) rfl rfl (.inl rfl)
  | startOAuth cached principal workspaceId body integrationId stateDigest clock now =>
    simp only [Accounts.run, Accounts.draw, bind_eq_ok, raiseIf_eq_ok, Run.ofRequest_eq_ok,
      not_or, not_le, pure_eq_ok] at ok
    obtain ⟨_, ⟨undrawn, bounded⟩, tenant, started, rfl⟩ := ok
    simp only [startOAuth, bind_eq_ok, pure_eq_ok] at started
    obtain ⟨_, _, _, _, _, _, _, _, _, _, _, _, inserted, insertion, _, _, _, _, rfl⟩ := started
    obtain ⟨sameDefinitions, row, absent, added, _, pending⟩ := insertIntegration_writes insertion
    exact .added integrationId row rfl undrawn bounded added sameDefinitions rfl rfl
      (.inr ⟨rfl, by simp [pending]⟩)
  | completeOAuth cached principal workspaceId stateDigest exchange credentialId clock now =>
    simp only [Accounts.run, bind_eq_ok, Run.ofRequest_eq_ok, found_eq_ok] at ok
    obtain ⟨state, isState, tenant, completed, later⟩ := ok
    simp only [completeOAuth, bind_eq_ok, orRaise_eq_ok, Option.filter_eq_some_iff] at completed
    obtain ⟨_, _, again, ⟨found, _⟩, _, _, _, _, _, _, _, _, write⟩ := completed
    obtain rfl : again = state := Option.some.inj (found.symm.trans isState)
    obtain ⟨laterDefinitions, middle, row, present, written, inWorkspace, ofDefinition⟩ :=
      writeCredential_writes write
    obtain ⟨stored, isStored, isHere, rfl⟩ := syncLater_eq_ok later
    obtain rfl : stored = row := Option.some.inj (isStored.symm.trans written.self)
    rw [Table.find?_modify_self, Option.map_eq_some_iff] at present
    obtain ⟨was, present, rfl⟩ := present
    refine .completed again.tenantIntegrationId was stored rfl present
      ((Table.Written.modify _ present).again written) (inWorkspace.trans ?_)
      (ofDefinition.trans ?_) laterDefinitions rfl rfl (by rw [isHere])
    · split <;> rfl
    · split <;> rfl
  | disconnect principal workspaceId integrationId =>
    simp only [Accounts.run, disconnect, integrationRow, bind_eq_ok, Run.ofRequest_eq_ok,
      found_eq_ok, Option.filter_eq_some_iff, pure_eq_ok] at ok
    obtain ⟨_, ⟨_, _, was, ⟨present, _⟩, _, _, _, _, rfl⟩, rfl⟩ := ok
    exact .removed workspaceId integrationId was rfl present rfl rfl rfl rfl rfl
  | perform index toolIds =>
    simp only [Accounts.run, bind_eq_ok, orRaise_eq_ok, pure_eq_ok] at ok
    obtain ⟨task, listed, tools, done, rfl⟩ := ok
    exact .performed index toolIds task listed listed done rfl rfl rfl

theorem Published.isSlug {definitions : Table String ConnectorManifest}
    {manifest : ConnectorManifest} (published : Published platform deployment definitions)
    (found : definitions.find? definitionId = some manifest) : isSlug manifest.id = true := by
  obtain ⟨_, valid⟩ := published definitionId manifest found
  obtain ⟨fields, -⟩ := validate_eq_ok.mp valid
  simp only [ConnectorManifest.validateFields, bind_eq_ok, raiseIf_eq_ok, not_or] at fields
  obtain ⟨_, slug, _⟩ := fields
  simpa using slug.1

end Nexora.Connector
