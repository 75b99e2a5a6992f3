import Nexora.Std.History
import Nexora.Std.Locks
import Nexora.Tenant.Integrations

/-!
# Vault transactions

The writers of one connection as concurrent transactions, statement by statement. A
statement reads what is committed when it starts and what its own transaction wrote; what
a transaction writes becomes visible when it commits and disappears when it does not. A
statement that meets another transaction's lock waits: it is no step until it can finish.

Every request locks the workspace's row first. An agent's call does not: it locks the
workspace and the connection only through the foreign keys of the credential it inserts,
and only as far as another call may do the same.
-/

namespace Nexora.Tenant.Vault

open Nexora.Std Nexora.Integration Nexora.Workspace

/-- The rows of one connection: its own and those of its credentials. -/
structure Rows where
  integration : Option IntegrationRow
  credentials : Table Uuid CredentialRow

/-- What a transaction is for, with what it draws from its surroundings. -/
inductive Work where
  | update (principal : Principal) (body : IntegrationUpdate)
  | rotate (principal : Principal) (definition : ConnectorManifest) (submission : Dict String)
  | completeOAuth (principal : Principal) (definition : ConnectorManifest)
      (requestedScopes : List String) (exchange : Except Failure TokenAnswer)
  | disconnect (principal : Principal) (bound : Bool)
  | test (principal : Principal) (definition : ConnectorManifest)
      (exchange : Except Failure TokenAnswer) (probe : Except ConnectorError ConnectorResult)
  | call (definition : ConnectorManifest) (exchange : Except Failure TokenAnswer)

namespace Work

/-- Who makes a request, and the permission it needs. -/
def caller : Work → Option (Principal × Permission)
  | .update principal _ | .rotate principal _ _ | .completeOAuth principal _ _ _
  | .disconnect principal _ => some (principal, .manageIntegrations)
  | .test principal _ _ _ => some (principal, .read)
  | .call _ _ => none

/-- The request reads the connection's row with `FOR UPDATE`. -/
def locksRow : Work → Bool
  | .update _ _ | .rotate _ _ _ | .disconnect _ _ => true
  | _ => false

/-- The definition and the token answer of a request that opens the credential. -/
def opens : Work → Option (ConnectorManifest × Except Failure TokenAnswer)
  | .test _ definition exchange _ | .call definition exchange => some (definition, exchange)
  | _ => none

end Work

/-- A row lock: on the workspace's row or on the connection's. -/
inductive Lock where
  | workspaceUpdate
  | workspaceKeyShare
  | rowUpdate
  | rowNoKeyUpdate
  | rowKeyShare
  deriving DecidableEq, Repr

/-- An update lock excludes every lock of its row, and two updates that leave the key alone
exclude each other. -/
def Lock.conflicts : Lock → Lock → Bool
  | .workspaceUpdate, .workspaceUpdate | .workspaceUpdate, .workspaceKeyShare
  | .workspaceKeyShare, .workspaceUpdate => true
  | .rowUpdate, .rowUpdate | .rowUpdate, .rowNoKeyUpdate | .rowUpdate, .rowKeyShare
  | .rowNoKeyUpdate, .rowUpdate | .rowKeyShare, .rowUpdate => true
  | .rowNoKeyUpdate, .rowNoKeyUpdate => true
  | _, _ => false

/-- Where a transaction stands in its own function. -/
inductive Stage where
  | begun
  | scopedTo
  | locked (row : IntegrationRow)
  | resolved (row : IntegrationRow)
  | opened (document : Dict String)
  | unchanged
  | writing (document : Dict String) (expiresAt : Option Instant)
  | recorded
  | removed
  deriving DecidableEq

/-- How far a transaction has come in `_write_credential`: what it inserted, the reference
it read, and whether it has updated the row and deleted what the row pointed to. -/
inductive Secret where
  | unwritten
  | inserted (credentialId : Uuid) (credential : CredentialRow)
  | read (credentialId : Uuid) (credential : CredentialRow) (previous : Option Uuid)
  | referenced (credentialId : Uuid) (credential : CredentialRow) (previous : Option Uuid)
  | replaced (credentialId : Uuid) (credential : CredentialRow) (previous : Option Uuid)
  deriving DecidableEq

/-- The credential a transaction has inserted. -/
def Secret.credentialId : Secret → Option Uuid
  | .unwritten => none
  | .inserted credentialId _ | .read credentialId _ _ | .referenced credentialId _ _
  | .replaced credentialId _ _ => some credentialId

/-- A transaction in progress: its locks, its own version of the connection's row and the
credential it writes. -/
structure Tx where
  work : Work
  stage : Stage
  secret : Secret
  locks : List Lock
  row : Option IntegrationRow

/-- A connection's committed rows and the transactions in progress. -/
structure State where
  workspaceId : Uuid
  integrationId : Uuid
  memberships : Memberships
  committed : Rows
  running : Table Nat Tx

/-- Why a statement is no step. -/
inductive Refusal where
  | waits
  | outOfOrder
  | failed (failure : Failure)

/-- A statement of a transaction, or its end. -/
inductive Statement where
  | begin (id : Nat) (work : Work)
  | scope (id : Nat)
  | lockRow (id : Nat)
  | configure (id : Nat)
  | grant (id : Nat)
  | readRow (id : Nat)
  | openCredential (id : Nat)
  | refresh (id : Nat) (clock : Instant)
  | insertCredential (id : Nat) (credentialId : Uuid) (now : Instant)
  | readPrevious (id : Nat)
  | updateRow (id : Nat) (now : Instant)
  | deletePrevious (id : Nat)
  | setStatus (id : Nat) (now : Instant)
  | recordTest (id : Nat) (now : Instant)
  | remove (id : Nat)
  | commit (id : Nat)
  | abort (id : Nat)

/-- A transaction before its first statement. -/
def Tx.start (work : Work) : Tx where
  work := work
  stage := .begun
  secret := .unwritten
  locks := []
  row := none

/-- The connection's row as a statement of a transaction sees it. -/
def State.row (state : State) (tx : Tx) : Option IntegrationRow :=
  tx.row.or state.committed.integration

/-- A transaction in progress. -/
def State.tx? (state : State) (id : Nat) : Except Refusal Tx :=
  orRaise (state.running.find? id) .outOfOrder

/-- Store a transaction's progress. -/
def State.progress (state : State) (id : Nat) (tx : Tx) : State :=
  { state with running := state.running.put id tx }

/-- Another transaction holds a conflicting lock. -/
def State.isBlocked (state : State) (id : Nat) (lock : Lock) : Bool :=
  blocked Tx.locks Lock.conflicts state.running id lock

/-- `WorkspaceRepository.scoped`: an update lock of the workspace's row, held to the end. -/
def scope (state : State) (id : Nat) : Except Refusal State := do
  let tx ← state.tx? id
  raiseIf (tx.stage ≠ .begun) .outOfOrder
  let caller ← orRaise tx.work.caller .outOfOrder
  raiseIf (state.isBlocked id .workspaceUpdate) .waits
  (scopedMember state.memberships caller.1 state.workspaceId caller.2).mapError .failed
  pure (state.progress id { tx with stage := .scopedTo, locks := .workspaceUpdate :: tx.locks })

/-- `_row(lock=True)`. -/
def lockRow (state : State) (id : Nat) : Except Refusal State := do
  let tx ← state.tx? id
  raiseIf (tx.stage ≠ .scopedTo ∨ tx.work.locksRow = false) .outOfOrder
  raiseIf (state.isBlocked id .rowUpdate) .waits
  let row ← orRaise state.committed.integration (.failed (.http 404 none))
  pure (state.progress id { tx with stage := .locked row, locks := .rowUpdate :: tx.locks })

/-- `rotate` up to its update of the configuration. -/
def configure (deployment : Deployment) (state : State) (id : Nat) : Except Refusal State := do
  let tx ← state.tx? id
  match tx.work, tx.stage with
  | .rotate _ definition submission, .locked row => do
      raiseIf (definition.auth = .oauth2)
        (.failed (.http 409 (some "Reconnect this integration through its provider")))
      let fields ← (splitFields deployment.library definition submission).mapError .failed
      raiseIf (fields.1.entries = [])
        (.failed (.http 422 (some "This integration requires a secret")))
      pure (state.progress id { tx with
        stage := .writing fields.1 none, row := some { row with config := fields.2 } })
  | _, _ => .error .outOfOrder

/-- `complete_oauth` up to its update of the granted scopes. -/
def grant (deployment : Deployment) (state : State) (id : Nat) : Except Refusal State := do
  let tx ← state.tx? id
  match tx.work, tx.stage with
  | .completeOAuth _ definition requestedScopes exchange, .scopedTo => do
      (client deployment definition).mapError .failed
      let answer ← exchange.mapError .failed
      raiseIf (state.isBlocked id .rowNoKeyUpdate) .waits
      pure (state.progress id { tx with
        stage := .writing answer.document answer.expiresAt
        locks := .rowNoKeyUpdate :: tx.locks
        row := state.committed.integration.map fun row =>
          { row with grantedScopes := answer.grantedScopes.getD requestedScopes } })
  | _, _ => .error .outOfOrder

/-- A transaction may resolve the connection: a test once it is scoped, a call at once. -/
def Tx.mayResolve (tx : Tx) : Bool :=
  match tx.work, tx.stage with
  | .test _ _ _ _, .scopedTo | .call _ _, .begun => true
  | _, _ => false

/-- The first statement of `resolve`, which takes no lock. -/
def readRow (state : State) (id : Nat) : Except Refusal State := do
  let tx ← state.tx? id
  raiseIf (tx.mayResolve = false) .outOfOrder
  let row ← orRaise state.committed.integration (.failed (.http 404 none))
  raiseIf (row.status = .disabled ∨ row.status = .revoked)
    (.failed (.http 409 (some "This connection is not usable")))
  raiseIf (row.credentialReference = none)
    (.failed (.http 409 (some "This connection has no credential")))
  pure (state.progress id { tx with stage := .resolved row })

/-- The rest of `resolve`: open the credential the row pointed to. -/
def openCredential (deployment : Deployment) (state : State) (id : Nat) :
    Except Refusal State := do
  let tx ← state.tx? id
  match tx.stage with
  | .resolved row => do
      let credential ← orRaise (row.credentialReference.bind state.committed.credentials.find?)
        (.failed (.http 409 (some "This connection has no credential")))
      raiseIf (deployment.vaultAvailable = false)
        (.failed (.http 503 (some "Secret storage is not configured")))
      pure (state.progress id { tx with stage := .opened credential.document })
  | _ => .error .outOfOrder

/-- When the newest of a connection's credentials expires. -/
def Rows.expiry (rows : Rows) : Option Instant := do
  let newest ← rows.credentials.entries.argmax fun entry => entry.2.createdAt
  newest.2.expiresAt

/-- The refresh token of a document that is about to expire, if its connector renews them. -/
def refreshToken (definition : ConnectorManifest) (document : Dict String)
    (expiresAt : Option Instant) (clock : Instant) : Option String := do
  guard (definition.auth = .oauth2)
  let oauth ← definition.oauth
  guard oauth.refreshable
  let refreshToken ← document.get? "refresh_token"
  let expiresAt ← expiresAt
  guard (expiresAt ≤ clock + oauth.refreshMarginSeconds * 1000000)
  pure refreshToken

/-- `_refresh_if_needed` up to the provider's answer. -/
def refresh (deployment : Deployment) (state : State) (id : Nat) (clock : Instant) :
    Except Refusal State := do
  let tx ← state.tx? id
  match tx.work.opens, tx.stage with
  | some (definition, exchange), .opened document =>
    match refreshToken definition document state.committed.expiry clock with
    | none => pure (state.progress id { tx with stage := .unchanged })
    | some refreshToken => do
        (client deployment definition).mapError .failed
        let answer ← exchange.mapError .failed
        let refreshed := { answer with
          refreshToken := some (answer.refreshToken.getD refreshToken) }
        pure (state.progress id { tx with
          stage := .writing refreshed.document answer.expiresAt })
  | _, _ => .error .outOfOrder

/-- `INSERT INTO integration_credentials`, whose foreign keys share the keys of the
workspace's and the connection's rows. -/
def insertCredential (deployment : Deployment) (state : State) (id : Nat) (credentialId : Uuid)
    (now : Instant) : Except Refusal State := do
  let tx ← state.tx? id
  match tx.stage, tx.secret with
  | .writing document expiresAt, .unwritten => do
      raiseIf (deployment.vaultAvailable = false)
        (.failed (.http 503 (some "Secret storage is not configured")))
      raiseIf (state.isBlocked id .workspaceKeyShare ∨ state.isBlocked id .rowKeyShare) .waits
      raiseIf (state.row tx = none) (.failed .constraint)
      raiseIf ((state.committed.credentials.find? credentialId).isSome ∨
        state.running.any fun _ other => other.secret.credentialId = some credentialId)
        (.failed .constraint)
      pure (state.progress id { tx with
        secret := .inserted credentialId {
          workspaceId := state.workspaceId, tenantIntegrationId := state.integrationId
          document := document, expiresAt := expiresAt, createdAt := now }
        locks := .workspaceKeyShare :: .rowKeyShare :: tx.locks })
  | _, _ => .error .outOfOrder

/-- `SELECT credential_reference`, which takes no lock. -/
def readPrevious (state : State) (id : Nat) : Except Refusal State := do
  let tx ← state.tx? id
  match tx.secret with
  | .inserted credentialId credential => do
      let row ← orRaise (state.row tx) (.failed .constraint)
      pure (state.progress id { tx with
        secret := .read credentialId credential row.credentialReference })
  | _ => .error .outOfOrder

/-- `UPDATE tenant_integrations SET credential_reference, status='connected'`. -/
def updateRow (state : State) (id : Nat) (now : Instant) : Except Refusal State := do
  let tx ← state.tx? id
  match tx.secret with
  | .read credentialId credential previous => do
      raiseIf (state.isBlocked id .rowNoKeyUpdate) .waits
      let row ← orRaise (state.row tx) (.failed .constraint)
      pure (state.progress id { tx with
        secret := .referenced credentialId credential previous
        locks := .rowNoKeyUpdate :: tx.locks
        row := some { row with
          credentialReference := some credentialId, status := .connected, lastError := none
          updatedAt := now } })
  | _ => .error .outOfOrder

/-- `DELETE FROM integration_credentials`, for the credential the row pointed to when it was
read. -/
def deletePrevious (state : State) (id : Nat) : Except Refusal State := do
  let tx ← state.tx? id
  match tx.secret with
  | .referenced credentialId credential previous =>
    pure (state.progress id { tx with secret := .replaced credentialId credential previous })
  | _ => .error .outOfOrder

/-- The row `update` writes over the one it locked. -/
def updated (body : IntegrationUpdate) (row : IntegrationRow) (now : Instant) : IntegrationRow :=
  { row with
    displayName := body.displayName.getD row.displayName
    status := match body.enabled with
      | some true =>
        if row.status = .disabled then
          if row.credentialReference.isSome then .connected else .pending
        else row.status
      | some false => .disabled
      | none => row.status
    updatedAt := now }

/-- `update`'s statement. -/
def setStatus (state : State) (id : Nat) (now : Instant) : Except Refusal State := do
  let tx ← state.tx? id
  match tx.work, tx.stage with
  | .update _ body, .locked row =>
    pure (state.progress id { tx with
      stage := .recorded, row := some (updated body row now) })
  | _, _ => .error .outOfOrder

/-- What a test records: the error code, and the status a probe's result stands for. -/
def outcome (definition : ConnectorManifest) (probe : Except ConnectorError ConnectorResult) :
    Option String × Option IntegrationStatus :=
  match definition.testCapability, probe with
  | none, _ => (none, none)
  | some _, .error raised => (some raised.code, none)
  | some _, .ok result => (result.errorCode, some (probedStatus result))

/-- A test that has a current credential: it needed no refresh, or has written one. -/
def Tx.mayRecord (tx : Tx) : Bool :=
  match tx.stage, tx.secret with
  | .unchanged, .unwritten | .writing _ _, .replaced _ _ _ => true
  | _, _ => false

/-- `_record_test`. -/
def recordOutcome (state : State) (id : Nat) (now : Instant) : Except Refusal State := do
  let tx ← state.tx? id
  match tx.work with
  | .test _ definition _ probe => do
      raiseIf (tx.mayRecord = false) .outOfOrder
      raiseIf (state.isBlocked id .rowNoKeyUpdate) .waits
      let result := outcome definition probe
      pure (state.progress id { tx with
        stage := .recorded
        locks := .rowNoKeyUpdate :: tx.locks
        row := (state.row tx).map fun row =>
          { row with
            lastTestedAt := some now
            lastSuccessAt := if result.1 = none then some now else row.lastSuccessAt
            lastError := result.1, status := result.2.getD row.status, updatedAt := now } })
  | _ => .error .outOfOrder

/-- `disconnect` after it has locked the row: an unbound connection is deleted with every
credential of it. -/
def remove (state : State) (id : Nat) : Except Refusal State := do
  let tx ← state.tx? id
  match tx.work, tx.stage with
  | .disconnect _ bound, .locked _ => do
      raiseIf (bound = true)
        (.failed (.http 409
          (some "Remove this connection from its agents before disconnecting it")))
      pure (state.progress id { tx with stage := .removed })
  | _, _ => .error .outOfOrder

/-- A transaction whose statements are done. -/
def Tx.isDone (tx : Tx) : Bool :=
  match tx.work, tx.stage, tx.secret with
  | .rotate _ _ _, .writing _ _, .replaced _ _ _ => true
  | .completeOAuth _ _ _ _, .writing _ _, .replaced _ _ _ => true
  | .update _ _, .recorded, _ => true
  | .disconnect _ _, .removed, _ => true
  | .test _ _ _ _, .recorded, _ => true
  | .call _ _, .unchanged, _ => true
  | .call _ _, .writing _ _, .replaced _ _ _ => true
  | _, _, _ => false

/-- The credentials a transaction leaves. -/
def Secret.leaves (secret : Secret) (credentials : Table Uuid CredentialRow) :
    Table Uuid CredentialRow :=
  match secret with
  | .unwritten => credentials
  | .inserted credentialId credential | .read credentialId credential _
  | .referenced credentialId credential _ => credentials.put credentialId credential
  | .replaced credentialId credential previous =>
    (match previous with
      | some previous => credentials.erase previous
      | none => credentials).put credentialId credential

/-- The rows a transaction leaves. -/
def State.leaves (state : State) (tx : Tx) : Rows :=
  if tx.stage = .removed then ⟨none, .empty⟩
  else ⟨state.row tx, tx.secret.leaves state.committed.credentials⟩

/-- A transaction whose statements are done commits. -/
def commit (state : State) (id : Nat) : Except Refusal State := do
  let tx ← state.tx? id
  raiseIf (tx.isDone = false) .outOfOrder
  pure { state with committed := state.leaves tx, running := state.running.erase id }

/-- The state after a statement. -/
def run (deployment : Deployment) (state : State) : Statement → Except Refusal State
  | .begin id work => do
      raiseIf ((state.running.find? id).isSome) .outOfOrder
      pure (state.progress id (.start work))
  | .scope id => scope state id
  | .lockRow id => lockRow state id
  | .configure id => configure deployment state id
  | .grant id => grant deployment state id
  | .readRow id => readRow state id
  | .openCredential id => openCredential deployment state id
  | .refresh id clock => refresh deployment state id clock
  | .insertCredential id credentialId now => insertCredential deployment state id credentialId now
  | .readPrevious id => readPrevious state id
  | .updateRow id now => updateRow state id now
  | .deletePrevious id => deletePrevious state id
  | .setStatus id now => setStatus state id now
  | .recordTest id now => recordOutcome state id now
  | .remove id => remove state id
  | .commit id => commit state id
  -- Any transaction may fail at any point: nothing it wrote is kept.
  | .abort id => pure { state with running := state.running.erase id }

/-- A connection has at most one credential, and points to the one it has. -/
def OneSecret (rows : Rows) : Prop :=
  ∀ credentialId, (rows.credentials.find? credentialId).isSome = true ↔
    ∃ row, rows.integration = some row ∧ row.credentialReference = some credentialId

/-- A connection as `connect` or `start_oauth` leaves it. -/
structure Opening (state : State) : Prop where
  quiet : state.running = .empty
  oneSecret : OneSecret state.committed
  usable : ∃ row, state.committed.integration = some row

/-- The transactions of one connection, in any order of their statements. -/
def machine (deployment : Deployment) : Machine State Statement :=
  .ofFunction Opening (run deployment)

end Nexora.Tenant.Vault
