import Nexora.Connector.Runtime
import Nexora.Tenant.Readiness
import Nexora.Tenant.Secrets

/-!
# Calls and tests through a connection

`ConnectorMcpAdapter.call_tool_for_context` and a connection's test open the credential,
renew it when it is about to expire and send one request, all in one transaction. The
transaction commits when its block ends normally and is undone when an exception leaves it.
A renewed token is written before the request, so it stays exactly where nothing after it
raises: a test records a refusal, a call lets it leave the block.
-/

namespace Nexora.Connector

open Nexora.Std Nexora.Workspace Nexora.Integration Nexora.Tenant Json

/-- One connector tool of a run's snapshot, as its readers find it: a field that is absent or
of another type is `none`, and a document may be one the contract refuses. -/
structure ConnectorSpec where
  bindingKey : Option String
  tenantIntegrationId : Option String
  definitionId : Option String
  capability : Option String
  configFingerprint : Option Nat
  credentialReference : Option (Option String)
  definition : Option (Except String ConnectorManifest)
  deriving DecidableEq

/-- Which agent a run executes, and what a standard run's snapshot keeps of its connector
tools. -/
inductive AgentKind where
  | custom
  | standard (connectorTools : Option (List ConnectorSpec))

/-- The part of an execution context that a connector call reads. -/
structure CallContext where
  workspaceId : Uuid
  agentId : Uuid
  kind : AgentKind

/-- An exception inside a connection's block. -/
inductive Escape where
  | adapter (code : String)
  | http (status : Nat)
  | connector (error : ConnectorError)
  | raised
  deriving DecidableEq

/-- A repository's failure as an exception; a statement the database refuses is neither of
those the adapter translates. -/
def Escape.ofFailure : Failure → Escape
  | .http status _ => .http status
  | .valueError _ | .constraint => .raised

/-- What leaves a capability call. -/
def Escape.ofLeaving : Leaving → Escape
  | .refused error => .connector error
  | .raised => .raised

/-- The digest of a connection's configuration. -/
def configFingerprint (runtime : Tools.Runtime) (config : Dict String) : Nat :=
  runtime.sha256 (Tools.dumps runtime
    (.object (config.entries.map fun entry => (py entry.1, Json.str (py entry.2)))))

/-- The snapshotted contract a standard run's call is made under. -/
def standardSpec (kind : AgentKind) (integrationId : Uuid) (capability : String) :
    Except Escape (Option ConnectorSpec) :=
  match kind with
  | .custom => pure none
  | .standard connectorTools => do
      let tools ← orRaise connectorTools (.adapter "connector_snapshot_missing")
      let spec ← orRaise (tools.find? fun spec =>
          spec.tenantIntegrationId = some integrationId.text ∧ spec.capability = some capability)
        (.adapter "connector_tool_not_snapshotted")
      pure (some spec)

/-- The snapshotted key is still bound to the connection. -/
def checkBinding (bindings : Table (Uuid × String) BindingRow) (context : CallContext)
    (integrationId : Uuid) : Option ConnectorSpec → Except Escape Unit
  | none => pure ()
  | some spec => do
      let key ← orRaise spec.bindingKey (.adapter "connector_snapshot_invalid")
      let binding ← orRaise ((bindings.find? (context.agentId, key)).filter fun binding =>
          binding.workspaceId = context.workspaceId) (.adapter "connector_binding_changed")
      raiseIf (binding.tenantIntegrationId ≠ integrationId) (.adapter "connector_binding_changed")

/-- `_validate_standard_target`. -/
def validateStandardTarget (runtime : Tools.Runtime) (row : IntegrationRow) :
    Option ConnectorSpec → Except Escape Unit
  | none => pure ()
  | some spec => do
      raiseIf (spec.configFingerprint ≠ some (configFingerprint runtime row.config))
        (.adapter "connector_config_changed")
      match ← orRaise spec.credentialReference (.adapter "connector_snapshot_invalid") with
      | none => pure ()
      | some expected =>
        raiseIf (row.credentialReference.map Uuid.text ≠ some expected)
          (.adapter "connector_credential_changed")

/-- The definition a call uses: the current one, or the one the snapshot froze. -/
def usedDefinition (current : ConnectorManifest) (row : IntegrationRow) (capability : String) :
    Option ConnectorSpec → Except Escape ConnectorManifest
  | none => pure current
  | some spec => do
      let definitionId ← orRaise spec.definitionId (.adapter "connector_snapshot_invalid")
      let document ← orRaise spec.definition (.adapter "connector_snapshot_invalid")
      raiseIf (row.integrationDefinitionId ≠ definitionId) (.adapter "connector_snapshot_invalid")
      let definition ← document.mapError fun _ => .raised
      raiseIf (definition.id ≠ definitionId ∨ definition.endpointFor capability = none)
        (.adapter "connector_snapshot_invalid")
      pure definition

/-- A connection as an operation has opened it, and the contract it is opened under. -/
structure Opened where
  spec : Option ConnectorSpec
  definition : ConnectorManifest
  document : Dict String
  row : IntegrationRow

/-- What an operation draws from its surroundings. -/
structure Surroundings where
  cached : Option ConnectorManifest
  exchange : Except Failure TokenAnswer
  network : Network
  credentialId : Uuid
  clock : Instant
  now : Instant

/-- What an agent's call does before it looks at the token's expiry. -/
def openForCall (runtime : Tools.Runtime) (deployment : Deployment) (store : Store)
    (around : Surroundings) (context : CallContext) (integrationId : Uuid) (capability : String) :
    Except Escape Opened := do
  let spec ← standardSpec context.kind integrationId capability
  checkBinding store.bindings context integrationId spec
  let resolved ← (resolve deployment store around.cached context.workspaceId
    integrationId).mapError .ofFailure
  validateStandardTarget runtime resolved.2.2 spec
  pure ⟨spec, resolved.1, resolved.2.1, resolved.2.2⟩

/-- What a test does before it looks at the token's expiry. -/
def openForTest (deployment : Deployment) (store : Store) (around : Surroundings)
    (principal : Principal) (workspaceId integrationId : Uuid) : Except Escape Opened := do
  (scopedMember store.memberships principal workspaceId .read).mapError .ofFailure
  let resolved ← (resolve deployment store around.cached workspaceId
    integrationId).mapError .ofFailure
  pure ⟨none, resolved.1, resolved.2.1, resolved.2.2⟩

/-- `_refresh_if_needed` of an opened connection: its document and the store. -/
def refreshOpened (deployment : Deployment) (store : Store) (around : Surroundings)
    (workspaceId integrationId : Uuid) (opened : Opened) : Except Escape (Dict String × Store) :=
  (refreshIfNeeded deployment store workspaceId integrationId opened.definition opened.document
    around.exchange around.credentialId around.clock around.now).mapError .ofFailure

/-- The connection block of a call: the definition used, the answer and the store. -/
def callInConnection (runtime : Tools.Runtime) (deployment : Deployment) (store : Store)
    (around : Surroundings) (context : CallContext) (integrationId : Uuid) (capability : String)
    (arguments : List (PyStr × Json)) :
    Except Escape (ConnectorManifest × ConnectorAnswer × Store) := do
  let opened ← openForCall runtime deployment store around context integrationId capability
  let refreshed ← refreshOpened deployment store around context.workspaceId integrationId opened
  let definition ← usedDefinition opened.definition opened.row capability opened.spec
  let answer ← (invoke deployment.library around.network definition capability refreshed.1
    opened.row.config arguments).mapError .ofLeaving
  pure (definition, answer, refreshed.2)

/-- The connection block of a test. -/
def testInConnection (deployment : Deployment) (store : Store) (around : Surroundings)
    (principal : Principal) (workspaceId integrationId : Uuid) : Except Escape Store := do
  let opened ← openForTest deployment store around principal workspaceId integrationId
  let refreshed ← refreshOpened deployment store around workspaceId integrationId opened
  match opened.definition.testCapability with
  | none => pure (recordTest refreshed.2 workspaceId integrationId none none around.now)
  | some capability =>
    match invoke deployment.library around.network opened.definition capability refreshed.1
        opened.row.config [] with
    | .ok answer =>
      pure (recordTest refreshed.2 workspaceId integrationId answer.errorCode
        (some (probedStatus answer.toConnectorResult)) around.now)
    | .error (.refused error) =>
      pure (recordTest refreshed.2 workspaceId integrationId (some error.code) none around.now)
    | .error .raised => .error .raised

/-- How a call fails. -/
inductive AdapterFailure where
  | adapter (code : String) (retryable : Bool)
  | raised
  deriving DecidableEq

/-- The exception a call ends with when one leaves its connection block. -/
def Escape.translated : Escape → AdapterFailure
  | .adapter code => .adapter code false
  | .http status =>
    .adapter (if status = 404 then "connector_not_found" else "connector_unavailable") false
  | .connector error => .adapter error.code (error.code = "host_unresolvable")
  | .raised => .raised

/-- An answer that another attempt may better. -/
def ConnectorAnswer.isTransient (answer : ConnectorAnswer) : Bool :=
  answer.errorCode ∈ [some "timeout", some "transport_error", some "rate_limited"] ||
    500 ≤ answer.statusCode.getD 0

/-- What a call makes of an answer once its transaction has committed. -/
def reported (definition : ConnectorManifest) (capability : String) (answer : ConnectorAnswer) :
    Except AdapterFailure ConnectorAnswer :=
  if answer.ok then pure answer
  else
    let retry := ((definition.endpointFor capability).map ConnectorEndpoint.retry).getD .never
    .error (.adapter ("connector_" ++ answer.errorCode.getD "provider_error")
      (retry ∈ [.safe, .idempotent] && answer.isTransient))

/-- `call_tool_for_context`: its result and the store it leaves. -/
def callToolForContext (runtime : Tools.Runtime) (deployment : Deployment) (store : Store)
    (around : Surroundings) (context : CallContext) (integrationId : Uuid) (capability : String)
    (arguments : List (PyStr × Json)) : Except AdapterFailure ConnectorAnswer × Store :=
  match callInConnection runtime deployment store around context integrationId capability
      arguments with
  | .ok (definition, answer, next) => (reported definition capability answer, next)
  | .error escape => (.error escape.translated, store)

/-- The store a connection's test leaves. -/
def testConnection (deployment : Deployment) (store : Store) (around : Surroundings)
    (principal : Principal) (workspaceId integrationId : Uuid) : Store :=
  match testInConnection deployment store around principal workspaceId integrationId with
  | .ok next => next
  | .error _ => store

/-- An operation that opens a connection. -/
inductive Use where
  | call (context : CallContext) (capability : String) (arguments : List (PyStr × Json))
  | test (principal : Principal) (workspaceId : Uuid)

namespace Use

/-- The workspace an operation is for. -/
def workspaceId : Use → Uuid
  | .call context _ _ => context.workspaceId
  | .test _ workspaceId => workspaceId

/-- The connection as the operation opens it. -/
def opening (runtime : Tools.Runtime) (deployment : Deployment) (store : Store)
    (around : Surroundings) (integrationId : Uuid) : Use → Except Escape Opened
  | .call context capability _ =>
    openForCall runtime deployment store around context integrationId capability
  | .test principal workspaceId =>
    openForTest deployment store around principal workspaceId integrationId

/-- The store after the operation has ended. -/
def after (runtime : Tools.Runtime) (deployment : Deployment) (store : Store)
    (around : Surroundings) (integrationId : Uuid) : Use → Store
  | .call context capability arguments =>
    (callToolForContext runtime deployment store around context integrationId capability
      arguments).2
  | .test principal workspaceId =>
    testConnection deployment store around principal workspaceId integrationId

end Use

/-- The document a renewal is stored as: a refresh token that is not reissued is kept. -/
def refreshedDocument (answer : TokenAnswer) (refreshToken : String) : Dict String :=
  { answer with refreshToken := some (answer.refreshToken.getD refreshToken) }.document

/-- An operation opens a connection, finds its token due, and the provider answers with new
ones; the identifier drawn for them is a new one. -/
structure Renews (runtime : Tools.Runtime) (deployment : Deployment) (store : Store)
    (around : Surroundings) (integrationId : Uuid) (use : Use) (opened : Opened)
    (refreshToken : String) (answer : TokenAnswer) : Prop where
  opens : use.opening runtime deployment store around integrationId = .ok opened
  due : refreshDue store use.workspaceId integrationId opened.definition opened.document
    around.clock = some refreshToken
  registered : opened.definition.id ∈ deployment.oauthClients
  answered : around.exchange = .ok answer
  unused : store.credentials.find? around.credentialId = none

/-- A connection's stored credential is the renewed one. -/
def StoresRenewed (store : Store) (integrationId credentialId : Uuid) (document : Dict String)
    (expiresAt : Option Instant) : Prop :=
  ∃ row credential, store.integrations.find? integrationId = some row ∧
    row.credentialReference = some credentialId ∧
      store.credentials.find? credentialId = some credential ∧
        credential.document = document ∧ credential.expiresAt = expiresAt

/-- Nothing leaves the connection block after the renewal. An agent's call needs a usable
definition, a request that may be sent and a reply; a test only needs that no exception other
than the runtime's own is raised. -/
def EndsNormally (library : Library) (around : Surroundings) (opened : Opened)
    (document : Dict String) : Use → Prop
  | .call _ capability arguments =>
    ∃ definition, usedDefinition opened.definition opened.row capability opened.spec =
        .ok definition ∧
      ∃ request, prepare library around.network definition capability document
          opened.row.config arguments = .ok request ∧
        (around.network.request request).answer ≠ .error .raised
  | .test _ _ => ∀ capability ∈ opened.definition.testCapability,
      prepare library around.network opened.definition capability document opened.row.config [] ≠
          .error .raised ∧
        ∀ request, prepare library around.network opened.definition capability document
            opened.row.config [] = .ok request →
          (around.network.request request).answer ≠ .error .raised

section Renewal

variable {runtime : Tools.Runtime} {deployment : Deployment} {store next : Store}
  {around : Surroundings} {workspaceId integrationId credentialId : Uuid} {opened : Opened}
  {refreshToken : String} {answer : TokenAnswer} {capability : String}
  {arguments : List (PyStr × Json)} {context : CallContext} {principal : Principal} {use : Use}

/-- What resolving a connection has established. -/
structure Resolved (deployment : Deployment) (store : Store) (workspaceId integrationId : Uuid)
    (row : IntegrationRow) : Prop where
  vault : deployment.vaultAvailable = true
  present : store.integrations.find? integrationId = some row
  own : row.workspaceId = workspaceId
  referenced : ∃ reference credential, row.credentialReference = some reference ∧
    store.credentials.find? reference = some credential

theorem resolve_resolved {cached : Option ConnectorManifest}
    {resolved : ConnectorManifest × Dict String × IntegrationRow}
    (ok : resolve deployment store cached workspaceId integrationId = .ok resolved) :
    Resolved deployment store workspaceId integrationId resolved.2.2 := by
  simp only [resolve, integrationRow, bind_eq_ok, found_eq_ok, orRaise_eq_ok, raiseIf_eq_ok,
    pure_eq_ok, Option.filter_eq_some_iff, decide_eq_true_eq] at ok
  obtain ⟨row, ⟨present, own⟩, _, _, reference, isReference, _, _, credential, ⟨stored, _⟩, _,
    vault, _, _, rfl⟩ := ok
  exact ⟨by simpa using vault, present, own, reference, credential, isReference, stored⟩

theorem openForCall_resolved
    (ok : openForCall runtime deployment store around context integrationId capability =
      .ok opened) : Resolved deployment store context.workspaceId integrationId opened.row := by
  simp only [openForCall, bind_eq_ok, mapError_eq_ok, pure_eq_ok] at ok
  obtain ⟨_, _, _, _, resolved, isResolved, _, _, rfl⟩ := ok
  exact resolve_resolved isResolved

theorem openForTest_resolved
    (ok : openForTest deployment store around principal workspaceId integrationId = .ok opened) :
    Resolved deployment store workspaceId integrationId opened.row := by
  simp only [openForTest, bind_eq_ok, mapError_eq_ok, pure_eq_ok] at ok
  obtain ⟨_, _, resolved, isResolved, rfl⟩ := ok
  exact resolve_resolved isResolved

theorem Use.opening_resolved
    (ok : use.opening runtime deployment store around integrationId = .ok opened) :
    Resolved deployment store use.workspaceId integrationId opened.row := by
  cases use with
  | call context capability arguments => exact openForCall_resolved ok
  | test principal workspaceId => exact openForTest_resolved ok

/-- A credential written under a new identifier is the connection's stored one. -/
theorem writeCredential_stores {row : IntegrationRow}
    (resolved : Resolved deployment store workspaceId integrationId row)
    (unused : store.credentials.find? credentialId = none) (document : Dict String)
    (expiresAt : Option Instant) (now : Instant) :
    ∃ later, writeCredential deployment store workspaceId integrationId document expiresAt
        credentialId now = .ok later ∧
      StoresRenewed later integrationId credentialId document expiresAt := by
  obtain ⟨reference, credential, isReference, stored⟩ := resolved.referenced
  have distinct : credentialId ≠ reference := by
    rintro rfl
    rw [unused] at stored
    cases stored
  have inserts : ∀ credential, store.credentials.insert? credentialId credential =
      some (store.credentials.put credentialId credential) := by
    intro credential
    exact (Table.insert?_eq_some _ _ _ _).mpr ⟨unused, rfl⟩
  simp only [writeCredential, resolved.vault, Bool.true_eq_false, raiseIf, if_false, inserts,
    inserted, found, orRaise, resolved.present, isReference, bind, Except.bind, pure, Except.pure]
  refine ⟨_, rfl, _, ⟨workspaceId, integrationId, document, expiresAt, now⟩,
    (Table.Written.modify _ resolved.present).self, ?_, ?_, rfl, rfl⟩
  · simp [resolved.own]
  · simp [Table.find?_erase, distinct]

/-- A due token whose provider answers is renewed in the transaction's own view. -/
theorem refreshOpened_stores
    (renews : Renews runtime deployment store around integrationId use opened refreshToken
      answer) :
    ∃ later, refreshOpened deployment store around use.workspaceId integrationId opened =
        .ok (refreshedDocument answer refreshToken, later) ∧
      StoresRenewed later integrationId around.credentialId
        (refreshedDocument answer refreshToken) answer.expiresAt := by
  obtain ⟨later, written, stores⟩ := writeCredential_stores
    (Use.opening_resolved renews.opens) renews.unused (refreshedDocument answer refreshToken)
    answer.expiresAt around.now
  refine ⟨later, ?_, stores⟩
  rw [refreshOpened, mapError_eq_ok, refreshIfNeeded, renews.due]
  simp only [client, bind_eq_ok, raiseIf_eq_ok, not_not, pure_eq_ok]
  exact ⟨⟨⟩, renews.registered, answer, renews.answered, later, written, rfl⟩

/-- Recording a test leaves the stored credential. -/
theorem StoresRenewed.recordTest {document : Dict String} {expiresAt : Option Instant}
    (stores : StoresRenewed store integrationId credentialId document
      expiresAt) (errorCode : Option String) (status : Option IntegrationStatus) (now : Instant) :
    StoresRenewed (Tenant.recordTest store workspaceId integrationId errorCode status now)
      integrationId credentialId document expiresAt := by
  obtain ⟨row, credential, present, isReference, stored⟩ := stores
  refine ⟨_, credential, (Table.Written.modify _ present).self, ?_, stored⟩
  split <;> exact isReference

/-- A call succeeds in producing an answer exactly when a request may be sent and is
replied to. -/
theorem invoke_eq_ok {library : Library} {network : Network} {definition : ConnectorManifest}
    {credential config : Dict String} :
    (∃ answer, invoke library network definition capability credential config arguments =
        .ok answer) ↔
      ∃ request, prepare library network definition capability credential config arguments =
          .ok request ∧ (network.request request).answer ≠ .error .raised := by
  simp only [invoke, bind_eq_ok]
  constructor
  · rintro ⟨answer, request, prepared, replied⟩
    exact ⟨request, prepared, by simp [replied]⟩
  · rintro ⟨request, prepared, unraised⟩
    cases reply : network.request request with
    | raised => simp [reply, Reply.answer] at unraised
    | timeout | httpError => exact ⟨_, request, prepared, by rw [reply]; rfl⟩
    | response status body =>
      by_cases success : 200 ≤ status ∧ status ≤ 299 <;>
        exact ⟨_, request, prepared, by simp [reply, Reply.answer, success]; rfl⟩

/-- A renewed token is kept by a call exactly when nothing leaves its connection block. -/
theorem call_kept_iff
    (renews : Renews runtime deployment store around integrationId
      (.call context capability arguments) opened refreshToken answer) :
    StoresRenewed (callToolForContext runtime deployment store around context integrationId
        capability arguments).2 integrationId around.credentialId
        (refreshedDocument answer refreshToken) answer.expiresAt ↔
      EndsNormally deployment.library around opened (refreshedDocument answer refreshToken)
        (.call context capability arguments) := by
  obtain ⟨later, refreshed, stores⟩ := refreshOpened_stores renews
  have opens : openForCall runtime deployment store around context integrationId capability =
      .ok opened := renews.opens
  have lost : ¬ StoresRenewed store integrationId around.credentialId
      (refreshedDocument answer refreshToken) answer.expiresAt := by
    rintro ⟨row, credential, _, _, stored, _⟩
    rw [renews.unused] at stored
    cases stored
  have block : callInConnection runtime deployment store around context integrationId capability
        arguments =
      (usedDefinition opened.definition opened.row capability opened.spec).bind fun definition =>
        ((invoke deployment.library around.network definition capability
          (refreshedDocument answer refreshToken) opened.row.config arguments).mapError
            .ofLeaving).bind fun reply => .ok (definition, reply, later) := by
    simp only [Use.workspaceId] at refreshed
    simp only [callInConnection, opens, refreshed, bind, Except.bind, pure, Except.pure]
  simp only [EndsNormally, ← invoke_eq_ok]
  unfold callToolForContext
  rw [block]
  cases used : usedDefinition opened.definition opened.row capability opened.spec with
  | error escape => simp [Except.bind, lost]
  | ok definition =>
    cases invoked : invoke deployment.library around.network definition capability
        (refreshedDocument answer refreshToken) opened.row.config arguments with
    | error leaving => simp [Except.bind, Except.mapError, invoked, lost]
    | ok reply => simp [Except.bind, Except.mapError, invoked, stores]

/-- A renewed token is kept by a test exactly when no foreign exception is raised. -/
theorem test_kept_iff
    (renews : Renews runtime deployment store around integrationId (.test principal workspaceId)
      opened refreshToken answer) :
    StoresRenewed (testConnection deployment store around principal workspaceId integrationId)
        integrationId around.credentialId (refreshedDocument answer refreshToken)
        answer.expiresAt ↔
      EndsNormally deployment.library around opened (refreshedDocument answer refreshToken)
        (.test principal workspaceId) := by
  obtain ⟨later, refreshed, stores⟩ := refreshOpened_stores renews
  have opens : openForTest deployment store around principal workspaceId integrationId =
      .ok opened := renews.opens
  have lost : ¬ StoresRenewed store integrationId around.credentialId
      (refreshedDocument answer refreshToken) answer.expiresAt := by
    rintro ⟨row, credential, _, _, stored, _⟩
    rw [renews.unused] at stored
    cases stored
  simp only [Use.workspaceId] at refreshed
  unfold testConnection testInConnection EndsNormally
  simp only [opens, refreshed, bind, Except.bind]
  cases probes : opened.definition.testCapability with
  | none => simp [pure, Except.pure, stores.recordTest]
  | some capability =>
    simp only [Option.mem_def, Option.some.injEq, forall_eq', invoke, bind, Except.bind]
    cases prepared : prepare deployment.library around.network opened.definition capability
        (refreshedDocument answer refreshToken) opened.row.config [] with
    | error leaving =>
      cases leaving with
      | refused error => simp [pure, Except.pure, stores.recordTest]
      | raised => simp [lost]
    | ok request =>
      simp only [ne_eq, reduceCtorEq, not_false_eq_true, Except.ok.injEq, forall_eq', true_and]
      cases replied : (around.network.request request).answer with
      | ok reply => simp [pure, Except.pure, stores.recordTest]
      | error leaving =>
        cases leaving with
        | refused error => simp [pure, Except.pure, stores.recordTest]
        | raised => simp [lost]

/-- Once the provider has answered with new tokens, they are the connection's stored
credential after the operation exactly when nothing leaves its connection block. -/
theorem renewed_kept_iff (runtime : Tools.Runtime) (deployment : Deployment) (store : Store)
    (around : Surroundings) (integrationId : Uuid) (use : Use) (opened : Opened)
    (refreshToken : String) (answer : TokenAnswer)
    (renews : Renews runtime deployment store around integrationId use opened refreshToken
      answer) :
    StoresRenewed (use.after runtime deployment store around integrationId) integrationId
        around.credentialId (refreshedDocument answer refreshToken) answer.expiresAt ↔
      EndsNormally deployment.library around opened (refreshedDocument answer refreshToken)
        use := by
  cases use with
  | call context capability arguments => exact call_kept_iff renews
  | test principal workspaceId => exact test_kept_iff renews

end Renewal

/-- A connection to the search console whose access token is about to expire. -/
def consoleRow : IntegrationRow where
  workspaceId := 7
  integrationDefinitionId := "google-search-console"
  displayName := "Site"
  accountIdentifier := "site"
  authType := .oauth2
  credentialReference := some 21
  status := .connected
  scopes := ["https://www.googleapis.com/auth/webmasters.readonly"]
  grantedScopes := ["https://www.googleapis.com/auth/webmasters.readonly"]
  config := ⟨[], List.nodup_nil⟩
  createdAt := 1
  updatedAt := 1
  lastTestedAt := none
  lastSuccessAt := none
  lastError := none

/-- The workspace of that connection. -/
def dueStore : Store :=
  { freshStore with
    definitions := Table.ofList [("google-search-console", Vault.searchConsole)]
    integrations := Table.ofList [(20, consoleRow)]
    credentials := Table.ofList [(21,
      { workspaceId := 7, tenantIntegrationId := 20, document := Vault.firstTokens.document
        expiresAt := some 10, createdAt := 1 })] }

/-- The provider renews the tokens and the network behaves as given. -/
def renewing (network : Network) : Surroundings where
  cached := none
  exchange := .ok Vault.laterTokens
  network := network
  credentialId := 22
  clock := 11
  now := 11

/-- A network on which no name resolves. -/
def offline : Network := ⟨fun _ _ => .gaierror, fun _ => .httpError⟩

/-- A network on which every request succeeds. -/
def reachable : Network := ⟨fun _ _ => .records [], fun _ => .response 200 none⟩

/-- A custom agent's call of the search console. -/
def readAnalytics : Use := .call ⟨7, 30, .custom⟩ "search-analytics.read" []

/-- The connection as the call opens it. -/
def openedConsole : Opened := ⟨none, Vault.searchConsole, Vault.firstTokens.document, consoleRow⟩

theorem renews_console (network : Network) :
    Renews exampleRuntime Vault.registeredDeployment dueStore (renewing network) 20 readAnalytics
      openedConsole "renew" Vault.laterTokens where
  opens := rfl
  due := rfl
  registered := List.mem_singleton_self _
  answered := rfl
  unused := rfl

/-- `renewed_kept_iff` applies to a call whose request is answered. -/
theorem renewed_kept_iff_reachable :
    StoresRenewed (readAnalytics.after exampleRuntime Vault.registeredDeployment dueStore
        (renewing reachable) 20) 20 22 (refreshedDocument Vault.laterTokens "renew") (some 20) ↔
      EndsNormally exampleLibrary (renewing reachable) openedConsole
        (refreshedDocument Vault.laterTokens "renew") readAnalytics :=
  renewed_kept_iff exampleRuntime Vault.registeredDeployment dueStore (renewing reachable) 20
    readAnalytics openedConsole "renew" Vault.laterTokens (renews_console reachable)

/-- A call whose host does not resolve loses the tokens the provider has just issued. -/
theorem unresolvable_loses_renewed :
    ¬ ∀ (runtime : Tools.Runtime) (deployment : Deployment) (store : Store)
        (around : Surroundings) (integrationId : Uuid) (use : Use) (opened : Opened)
        (refreshToken : String) (answer : TokenAnswer),
      Renews runtime deployment store around integrationId use opened refreshToken answer →
        StoresRenewed (use.after runtime deployment store around integrationId) integrationId
          around.credentialId (refreshedDocument answer refreshToken) answer.expiresAt := by
  intro kept
  obtain ⟨row, credential, present, isReference, _⟩ :=
    kept exampleRuntime Vault.registeredDeployment dueStore (renewing offline) 20 readAnalytics
      openedConsole "renew" Vault.laterTokens (renews_console offline)
  have stale : (readAnalytics.after exampleRuntime Vault.registeredDeployment dueStore
      (renewing offline) 20).integrations.find? 20 = some consoleRow := by decide +kernel
  rw [stale] at present
  cases present
  cases isReference

end Nexora.Connector
