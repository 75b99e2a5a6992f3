import Nexora.Connector.Contracts
import Nexora.Connector.Provision
import Nexora.Tenant.Sealed

/-!
# Runs, their tools and their calls

The tenancy store, the governed tools and the runs of all workspaces, with the connector
calls that runs have in progress. A call is one transaction, statement by statement: it reads
what is committed when a statement starts, and between two of its statements anything else
may commit that does not need a row it holds. It holds the binding it has found, and a
connection whose credential it has renewed.
-/

namespace Nexora.Connector

open Nexora.Std Nexora.Workspace Nexora.Integration Nexora.Tenant Json

/-- How far a call has come, with what it has read. -/
inductive CallStage where
  | begun
  | bound
  | read (row : IntegrationRow)
  | defined (row : IntegrationRow) (current : ConnectorManifest)
  | opened (row : IntegrationRow) (current : ConnectorManifest) (document : Dict String)
  | refreshed (row : IntegrationRow) (current : ConnectorManifest) (document : Dict String)
  | sent (request : HttpRequest)

/-- A connector call of a run in progress. -/
structure Call where
  runId : Uuid
  context : CallContext
  integrationId : Uuid
  capability : String
  arguments : List (PyStr × Json)
  spec : Option ConnectorSpec
  stage : CallStage
  renewal : Option (Dict String × Option Instant)

/-- The execution context a run's calls are made in. -/
def RunRow.context (run : RunRow) : CallContext where
  workspaceId := run.workspaceId
  agentId := match run.target with
    | .custom agentId => agentId
    | .standard agentId _ => agentId
  kind := match run.target with
    | .custom _ => .custom
    | .standard _ contracts => .standard (some (contracts.connectorTools.map Prod.snd))

/-- All workspaces: their tenancy, their tools, their runs, the identifiers that rows of the
vault have had, and the calls in progress. -/
structure Fleet where
  tenant : Tenant.Store
  tools : Run.Store
  runs : Table Uuid RunRow
  drawn : List Uuid
  calls : Table Nat Call

/-- A request, a task that follows one, or a statement of a call. -/
inductive FleetRequest where
  | tenant (operation : Tenant.Operation)
  | upsertTool (principal : Principal) (workspaceId : Uuid) (name : PyStr)
      (body : Run.ToolUpsertInput) (toolId : Uuid)
  | sync (workspaceId integrationId : Uuid) (definitionId : String) (toolIds : Nat → Uuid)
  | disable (workspaceId integrationId : Uuid)
  | createCustomRun (principal : Principal) (workspaceId agentId : Uuid) (input : PyStr)
      (idempotencyKey : String) (runId : Uuid)
  | createStandardRun (principal : Principal) (workspaceId agentId : Uuid) (input : PyStr)
      (idempotencyKey : String) (runId : Uuid) (toolIds : Nat → Uuid)
  | beginCall (callId : Nat) (runId integrationId : Uuid) (capability : String)
      (arguments : List (PyStr × Json))
  | shareBinding (callId : Nat)
  | readRow (callId : Nat)
  | readDefinition (callId : Nat) (cached : Option ConnectorManifest)
  | openCredential (callId : Nat)
  | refresh (callId : Nat) (exchange : Except Failure TokenAnswer) (clock : Instant)
  | send (callId : Nat) (network : Network)
  | finish (callId : Nat) (commits : Bool) (credentialId : Uuid) (now : Instant)

/-- Why a request is no step. -/
inductive Halt where
  | waits
  | outOfOrder
  | drawn
  | raised (error : Run.Raised)
  | escaped (escape : Escape)

/-- A change of the tenancy store leaves the rows a call holds. -/
def Call.respects (call : Call) (before after : Tenant.Store) : Bool :=
  (match call.stage with
    | .begun => true
    | _ => decide (∀ spec ∈ call.spec, ∀ key ∈ spec.bindingKey,
        after.bindings.find? (call.context.agentId, key) =
          before.bindings.find? (call.context.agentId, key))) &&
    (call.renewal.isNone ||
      after.integrations.find? call.integrationId = before.integrations.find? call.integrationId)

namespace Fleet

variable (fleet : Fleet)

/-- A change of the tenancy store needs a row that another call holds. -/
def isBlocked (self : Option Nat) (next : Tenant.Store) : Bool :=
  fleet.calls.any fun id call => decide (some id ≠ self) && !call.respects fleet.tenant next

/-- `uuid4` draws 128 bits that no row of the vault has had. -/
def draw (ids : List Uuid) : Except Halt Unit :=
  raiseIf (∃ id ∈ ids, id ∈ fleet.drawn ∨ 2 ^ 128 ≤ id) .drawn

/-- A call in progress. -/
def call? (callId : Nat) : Except Halt Call := orRaise (fleet.calls.find? callId) .outOfOrder

/-- Store a call's progress. -/
def progress (callId : Nat) (call : Call) : Fleet :=
  { fleet with calls := fleet.calls.put callId call }

/-- The start of a call of a run, under the contract its snapshot keeps. -/
def beginCall (callId : Nat) (runId integrationId : Uuid) (capability : String)
    (arguments : List (PyStr × Json)) : Except Halt Fleet := do
  raiseIf ((fleet.calls.find? callId).isSome) .outOfOrder
  let run ← orRaise (fleet.runs.find? runId) .outOfOrder
  let spec ← (standardSpec run.context.kind integrationId capability).mapError .escaped
  pure (fleet.progress callId
    { runId := runId, context := run.context, integrationId := integrationId
      capability := capability, arguments := arguments, spec := spec, stage := .begun
      renewal := none })

/-- `SELECT … FROM agent_integration_bindings … FOR SHARE`. -/
def shareBinding (callId : Nat) : Except Halt Fleet := do
  let call ← fleet.call? callId
  match call.stage with
  | .begun => do
      (checkBinding fleet.tenant.bindings call.context call.integrationId
        call.spec).mapError .escaped
      pure (fleet.progress callId { call with stage := .bound })
  | _ => .error .outOfOrder

/-- `resolve`'s statement on the connection, which takes no lock. -/
def readRow (callId : Nat) : Except Halt Fleet := do
  let call ← fleet.call? callId
  match call.stage with
  | .bound => do
      let row ← (integrationRow fleet.tenant call.context.workspaceId
        call.integrationId).mapError fun failure => .escaped (.ofFailure failure)
      raiseIf (row.status = .disabled ∨ row.status = .revoked) (.escaped (.http 409))
      raiseIf (row.credentialReference = none) (.escaped (.http 409))
      pure (fleet.progress callId { call with stage := .read row })
  | _ => .error .outOfOrder

/-- `resolve`'s definition. -/
def readDefinition (callId : Nat) (cached : Option ConnectorManifest) : Except Halt Fleet := do
  let call ← fleet.call? callId
  match call.stage with
  | .read row => do
      let current ← (definitionFor fleet.tenant cached row.integrationDefinitionId).mapError
        fun failure => .escaped (.ofFailure failure)
      pure (fleet.progress callId { call with stage := .defined row current })
  | _ => .error .outOfOrder

/-- The rest of `resolve`: open the credential the row pointed to. The target is checked
against the snapshot at once. -/
def openCredential (host : Host) (callId : Nat) : Except Halt Fleet := do
  let call ← fleet.call? callId
  match call.stage with
  | .defined row current => do
      let credential ← orRaise ((row.credentialReference.bind
        fleet.tenant.credentials.find?).filter fun credential =>
          credential.workspaceId = call.context.workspaceId) (.escaped (.http 409))
      raiseIf (host.deployment.vaultAvailable = false) (.escaped (.http 503))
      raiseIf (credential.tenantIntegrationId ≠ call.integrationId) (.escaped (.http 409))
      (validateStandardTarget host.platform.runtime row call.spec).mapError .escaped
      pure (fleet.progress callId { call with stage := .opened row current credential.document })
  | _ => .error .outOfOrder

/-- `_refresh_if_needed`. What it writes is seen by others when the call commits. -/
def refresh (host : Host) (callId : Nat) (exchange : Except Failure TokenAnswer)
    (clock : Instant) : Except Halt Fleet := do
  let call ← fleet.call? callId
  match call.stage with
  | .opened row current document =>
    match refreshDue fleet.tenant call.context.workspaceId call.integrationId current document
        clock with
    | none =>
      pure (fleet.progress callId { call with stage := .refreshed row current document })
    | some refreshToken => do
        (client host.deployment current).mapError fun failure => .escaped (.ofFailure failure)
        let answer ← exchange.mapError fun failure => .escaped (.ofFailure failure)
        let renewed := refreshedDocument answer refreshToken
        raiseIf (fleet.tenant.integrations.find? call.integrationId = none)
          (.raised .database)
        pure (fleet.progress callId { call with
          stage := .refreshed row current renewed, renewal := some (renewed, answer.expiresAt) })
  | _ => .error .outOfOrder

/-- `invoke` up to the request on the wire. -/
def send (host : Host) (callId : Nat) (network : Network) : Except Halt Fleet := do
  let call ← fleet.call? callId
  match call.stage with
  | .refreshed row current document => do
      let definition ← (usedDefinition current row call.capability call.spec).mapError .escaped
      let request ← (prepare host.deployment.library network definition call.capability document
        row.config call.arguments).mapError fun leaving => .escaped (.ofLeaving leaving)
      pure (fleet.progress callId { call with stage := .sent request })
  | _ => .error .outOfOrder

/-- The end of a call's transaction: what it wrote is committed, or nothing of it is. -/
def finish (host : Host) (callId : Nat) (commits : Bool) (credentialId : Uuid) (now : Instant) :
    Except Halt Fleet := do
  let call ← fleet.call? callId
  let ended := { fleet with calls := fleet.calls.erase callId }
  match commits, call.stage, call.renewal with
  | false, _, _ => pure ended
  | true, .sent _, none => pure ended
  | true, .sent _, some (document, expiresAt) => do
      fleet.draw [credentialId]
      let tenant ← (writeCredential host.deployment fleet.tenant call.context.workspaceId
        call.integrationId document expiresAt credentialId now).mapError fun failure =>
          .raised (.request failure)
      raiseIf (fleet.isBlocked (some callId) tenant = true) .waits
      pure { ended with tenant := tenant, drawn := credentialId :: fleet.drawn }
  | true, _, _ => .error .outOfOrder

/-- An operation of the tenancy store. -/
def operate (host : Host) (operation : Tenant.Operation) : Except Halt Fleet := do
  fleet.draw operation.draws
  let tenant ← (Tenant.run host.deployment fleet.tenant operation).mapError fun failure =>
    .raised (.request failure)
  raiseIf (fleet.isBlocked none tenant = true) .waits
  pure { fleet with tenant := tenant, drawn := operation.draws ++ fleet.drawn }

/-- The fleet after a request. -/
def run (host : Host) : FleetRequest → Except Halt Fleet
  | .tenant operation => fleet.operate host operation
  | .upsertTool principal workspaceId name body toolId => do
      let tools ← (Run.Store.upsertTool { fleet.tools with memberships := fleet.tenant.memberships }
        host.platform principal workspaceId name body toolId).mapError .raised
      pure { fleet with tools := tools }
  | .sync workspaceId integrationId definitionId toolIds => do
      let tools ← (Connector.sync host.platform fleet.tools
        (fleet.tenant.definitions.find? definitionId) workspaceId integrationId
        toolIds).mapError .raised
      pure { fleet with tools := tools }
  | .disable workspaceId integrationId =>
    pure { fleet with tools := Connector.disable fleet.tools workspaceId integrationId }
  | .createCustomRun principal workspaceId agentId input idempotencyKey runId => do
      let runs ← (Connector.createCustomRun host.platform.runtime fleet.tenant.memberships
        fleet.runs principal workspaceId agentId input idempotencyKey runId).mapError .raised
      pure { fleet with runs := runs }
  | .createStandardRun principal workspaceId agentId input idempotencyKey runId toolIds => do
      let created ← (Connector.createStandardRun host fleet.tenant fleet.tools fleet.runs principal
        workspaceId agentId input idempotencyKey runId toolIds).mapError .raised
      pure { fleet with tools := created.1, runs := created.2 }
  | .beginCall callId runId integrationId capability arguments =>
    fleet.beginCall callId runId integrationId capability arguments
  | .shareBinding callId => fleet.shareBinding callId
  | .readRow callId => fleet.readRow callId
  | .readDefinition callId cached => fleet.readDefinition callId cached
  | .openCredential callId => fleet.openCredential host callId
  | .refresh callId exchange clock => fleet.refresh host callId exchange clock
  | .send callId network => fleet.send host callId network
  | .finish callId commits credentialId now => fleet.finish host callId commits credentialId now

end Fleet

/-- Workspaces before any account is connected and any run is created. -/
structure Unused (fleet : Fleet) : Prop where
  integrations : fleet.tenant.integrations = .empty
  credentials : fleet.tenant.credentials = .empty
  oauthStates : fleet.tenant.oauthStates = .empty
  bindings : fleet.tenant.bindings = .empty
  runs : fleet.runs = .empty
  calls : fleet.calls = .empty
  namesUnique : NamesUnique fleet.tools.toolDefinitions

/-- Requests, tasks and the statements of calls, in any order. -/
def fleetMachine (host : Host) : Machine Fleet FleetRequest :=
  .ofFunction Unused fun fleet => fleet.run host

end Nexora.Connector
