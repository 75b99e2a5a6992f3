import Nexora.Tenant.Store

/-!
# The integration vault

`IntegrationRepository` as the source computes it: connecting, enabling and
disabling, rotating, testing, disconnecting and the OAuth flow. Each operation is one
transaction. What a provider answers, the identifiers drawn, the process's cached
definition and the clocks are arguments; `now` is the transaction's timestamp and
`clock` the process's.
-/

namespace Nexora.Tenant

open Nexora.Std Nexora.Catalog Nexora.Integration Nexora.Workspace

/-- The body of a connection's creation. -/
structure ConnectInput where
  integrationDefinitionId : String
  displayName : String
  accountIdentifier : String
  credentials : Dict String

/-- The body of a connection's update: only the enable and disable transitions are a
tenant's decision. -/
structure IntegrationUpdate where
  displayName : Option String
  enabled : Option Bool

/-- The body of an authorization's start. -/
structure OAuthStartInput where
  integrationDefinitionId : String
  displayName : String
  accountIdentifier : String
  scopes : List String

/-- What a provider's token endpoint granted. -/
structure TokenAnswer where
  accessToken : String
  refreshToken : Option String
  expiresAt : Option Instant
  grantedScopes : Option (List String)

/-- What a probe of the provider produced. -/
structure ConnectorResult where
  ok : Bool
  statusCode : Option Nat
  errorCode : Option String

/-- The provider refused the credential itself. -/
def ConnectorResult.credentialRejected (result : ConnectorResult) : Bool :=
  result.statusCode = some 401 || result.statusCode = some 403

/-- What a connection test reports. -/
structure ConnectionTest where
  status : IntegrationStatus
  ok : Bool
  grantedScopes : List String
  missingScopes : List String
  errorCode : Option String

/-- How long a started authorization may be completed, in microseconds. -/
def oauthStateTtl : Nat := 600 * 1000000

/-- The connector definition a process uses: its cached one while the published version
number is the same, else the published one. -/
def definitionFor (store : Store) (cached : Option ConnectorManifest) (definitionId : String) :
    Except Failure ConnectorManifest := do
  let published ← orRaise (store.definitions.find? definitionId)
    (.http 404 (some "Unknown integration"))
  pure ((cached.filter fun manifest => manifest.version = published.version).getD published)

/-- Publish or update a connector definition. -/
def publishDefinition (store : Store) (definitionId : String) (manifest : ConnectorManifest) :
    Except Failure Store := do
  raiseIf (manifest.id ≠ definitionId)
    (.http 422 (some "Connector id does not match the published definition"))
  pure { store with definitions := store.definitions.put definitionId manifest }

/-- A workspace's connection. -/
def integrationRow (store : Store) (workspaceId integrationId : Uuid) :
    Except Failure IntegrationRow :=
  found ((store.integrations.find? integrationId).filter fun row => row.workspaceId = workspaceId)

/-- Insert a pending connection; a workspace connects one account of a service once. -/
def insertIntegration (store : Store) (workspaceId integrationId : Uuid)
    (definition : ConnectorManifest) (displayName accountIdentifier : String)
    (scopes : List String) (config : Dict String) (now : Instant) : Except Failure Store := do
  raiseIf (store.integrations.any fun _ row => row.workspaceId = workspaceId &&
      row.integrationDefinitionId = definition.id && row.accountIdentifier = accountIdentifier)
    (.http 409 (some "This account is already connected for this integration"))
  let integrations ← inserted (store.integrations.insert? integrationId
    { workspaceId := workspaceId, integrationDefinitionId := definition.id,
      displayName := displayName, accountIdentifier := accountIdentifier,
      authType := definition.auth, credentialReference := none, status := .pending,
      scopes := scopes, grantedScopes := [], config := config, createdAt := now,
      updatedAt := now, lastTestedAt := none, lastSuccessAt := none, lastError := none })
  pure { store with integrations := integrations }

/-- Seal a document and make it the connection's credential. The superseded one is
destroyed. -/
def writeCredential (deployment : Deployment) (store : Store) (workspaceId integrationId : Uuid)
    (document : Dict String) (expiresAt : Option Instant) (credentialId : Uuid) (now : Instant) :
    Except Failure Store := do
  raiseIf (deployment.vaultAvailable = false)
    (.http 503 (some "Secret storage is not configured"))
  let credentials ← inserted (store.credentials.insert? credentialId
    { workspaceId := workspaceId, tenantIntegrationId := integrationId, document := document,
      expiresAt := expiresAt, createdAt := now })
  let row ← found (store.integrations.find? integrationId)
  let remaining := match row.credentialReference with
    | some previous => credentials.erase previous
    | none => credentials
  pure { store with
    credentials := remaining
    integrations := store.integrations.modify integrationId fun row =>
      if row.workspaceId = workspaceId then
        { row with credentialReference := some credentialId, status := .connected,
                   lastError := none, updatedAt := now }
      else row }

/-- Connect an account with the secrets a tenant fills in. -/
def connect (deployment : Deployment) (store : Store) (cached : Option ConnectorManifest)
    (principal : Principal) (workspaceId : Uuid) (body : ConnectInput)
    (integrationId credentialId : Uuid) (now : Instant) : Except Failure Store := do
  scopedMember store.memberships principal workspaceId .manageIntegrations
  let definition ← definitionFor store cached body.integrationDefinitionId
  raiseIf (definition.status = .disabled) (.http 409 (some "This integration is not available"))
  raiseIf (definition.auth = .oauth2)
    (.http 409 (some "This integration is connected through its authorization flow"))
  let fields ← splitFields deployment.library definition body.credentials
  raiseIf (fields.1.entries = []) (.http 422 (some "This integration requires a secret"))
  let pending ← insertIntegration store workspaceId integrationId definition body.displayName
    body.accountIdentifier definition.scopes fields.2 now
  writeCredential deployment pending workspaceId integrationId fields.1 none credentialId now

/-- Rename a connection, or enable or disable it. -/
def updateIntegration (store : Store) (principal : Principal) (workspaceId integrationId : Uuid)
    (body : IntegrationUpdate) (now : Instant) : Except Failure Store := do
  scopedMember store.memberships principal workspaceId .manageIntegrations
  let row ← integrationRow store workspaceId integrationId
  let status := match body.enabled with
    | some true =>
      -- Re-enabling asserts nothing about the credential; the next test does.
      if row.status = .disabled then
        if row.credentialReference.isSome then .connected else .pending
      else row.status
    | some false => .disabled
    | none => row.status
  pure { store with
    integrations := store.integrations.modify integrationId fun row =>
      { row with displayName := body.displayName.getD row.displayName, status := status,
                 updatedAt := now } }

/-- Replace a connection's secret fields and configuration. -/
def rotate (deployment : Deployment) (store : Store) (cached : Option ConnectorManifest)
    (principal : Principal) (workspaceId integrationId : Uuid) (credentials : Dict String)
    (credentialId : Uuid) (now : Instant) : Except Failure Store := do
  scopedMember store.memberships principal workspaceId .manageIntegrations
  let row ← integrationRow store workspaceId integrationId
  let definition ← definitionFor store cached row.integrationDefinitionId
  raiseIf (definition.auth = .oauth2)
    (.http 409 (some "Reconnect this integration through its provider"))
  let fields ← splitFields deployment.library definition credentials
  raiseIf (fields.1.entries = []) (.http 422 (some "This integration requires a secret"))
  let configured := { store with
    integrations := store.integrations.modify integrationId fun row =>
      { row with config := fields.2 } }
  writeCredential deployment configured workspaceId integrationId fields.1 none credentialId now

/-- Remove a connection that no agent is bound to, with its secrets. -/
def disconnect (store : Store) (principal : Principal) (workspaceId integrationId : Uuid) :
    Except Failure Store := do
  scopedMember store.memberships principal workspaceId .manageIntegrations
  let _ ← integrationRow store workspaceId integrationId
  raiseIf (store.bindings.any fun _ binding =>
      binding.tenantIntegrationId = integrationId && binding.workspaceId = workspaceId)
    (.http 409 (some "Remove this connection from its agents before disconnecting it"))
  -- A binding's composite reference keeps the row it points to from being deleted.
  raiseIf (store.bindings.any fun _ binding => binding.tenantIntegrationId = integrationId)
    .constraint
  pure { store with
    credentials := ((store.credentials.select fun _ credential =>
        credential.tenantIntegrationId = integrationId ∧
          credential.workspaceId = workspaceId).map Prod.fst).foldl Table.erase store.credentials
    oauthStates := ((store.oauthStates.select fun _ state =>
        state.tenantIntegrationId = integrationId ∧
          state.workspaceId = workspaceId).map Prod.fst).foldl Table.erase store.oauthStates
    integrations := store.integrations.erase integrationId }

/-- Open a usable credential: the definition, the sealed document and the row. -/
def resolve (deployment : Deployment) (store : Store) (cached : Option ConnectorManifest)
    (workspaceId integrationId : Uuid) :
    Except Failure (ConnectorManifest × Dict String × IntegrationRow) := do
  let row ← integrationRow store workspaceId integrationId
  raiseIf (row.status = .disabled ∨ row.status = .revoked)
    (.http 409 (some "This connection is not usable"))
  let reference ← orRaise row.credentialReference
    (.http 409 (some "This connection has no credential"))
  let definition ← definitionFor store cached row.integrationDefinitionId
  let credential ← orRaise ((store.credentials.find? reference).filter fun credential =>
      credential.workspaceId = workspaceId)
    (.http 409 (some "This connection has no credential"))
  raiseIf (deployment.vaultAvailable = false)
    (.http 503 (some "Secret storage is not configured"))
  raiseIf (credential.tenantIntegrationId ≠ integrationId)
    (.http 409 (some "Stored credential could not be read"))
  pure (definition, credential.document, row)

/-- The document a token answer is stored as. -/
def TokenAnswer.document (answer : TokenAnswer) : Dict String :=
  match answer.refreshToken with
  | some refreshToken =>
    ⟨[("access_token", answer.accessToken), ("refresh_token", refreshToken)], by simp⟩
  | none => ⟨[("access_token", answer.accessToken)], by simp⟩

/-- A registered OAuth client. -/
def client (deployment : Deployment) (definition : ConnectorManifest) : Except Failure Unit :=
  raiseIf (definition.id ∉ deployment.oauthClients)
    (.http 503 (some "This integration is not registered for this deployment"))

/-- When the newest credential of a connection expires. -/
def credentialExpiry (store : Store) (workspaceId integrationId : Uuid) : Option Instant := do
  let newest ← (store.credentials.select fun _ credential =>
    credential.tenantIntegrationId = integrationId ∧
      credential.workspaceId = workspaceId).argmax fun entry => entry.2.createdAt
  newest.2.expiresAt

/-- The refresh token of a document about to expire, if its connector renews them. -/
def refreshDue (store : Store) (workspaceId integrationId : Uuid) (definition : ConnectorManifest)
    (document : Dict String) (clock : Instant) : Option String := do
  guard (definition.auth = .oauth2)
  let oauth ← definition.oauth
  guard oauth.refreshable
  let refreshToken ← document.get? "refresh_token"
  let expiresAt ← credentialExpiry store workspaceId integrationId
  guard (expiresAt ≤ clock + oauth.refreshMarginSeconds * 1000000)
  pure refreshToken

/-- Renew an access token before it expires. -/
def refreshIfNeeded (deployment : Deployment) (store : Store) (workspaceId integrationId : Uuid)
    (definition : ConnectorManifest) (document : Dict String)
    (exchange : Except Failure TokenAnswer) (credentialId : Uuid) (clock now : Instant) :
    Except Failure (Dict String × Store) :=
  match refreshDue store workspaceId integrationId definition document clock with
  | none => pure (document, store)
  | some refreshToken => do
      client deployment definition
      let answer ← exchange
      -- Providers that do not reissue a refresh token keep the existing one working.
      let refreshed := { answer with
        refreshToken := some (answer.refreshToken.getD refreshToken) }
      let written ← writeCredential deployment store workspaceId integrationId
        refreshed.document answer.expiresAt credentialId now
      pure (refreshed.document, written)

/-- Record a test's outcome; without a status the stored one is kept. -/
def recordTest (store : Store) (workspaceId integrationId : Uuid) (errorCode : Option String)
    (status : Option IntegrationStatus) (now : Instant) : Store :=
  { store with
    integrations := store.integrations.modify integrationId fun row =>
      if row.workspaceId = workspaceId then
        { row with
          lastTestedAt := some now
          lastSuccessAt := if errorCode = none then some now else row.lastSuccessAt
          lastError := errorCode
          status := status.getD row.status
          updatedAt := now }
      else row }

/-- The status a probe's result stands for. -/
def probedStatus (result : ConnectorResult) : IntegrationStatus :=
  if result.ok then .connected else if result.credentialRejected then .expired else .error

/-- Prove the stored credential still works, and record what the provider answered. -/
def testIntegration (deployment : Deployment) (store : Store) (cached : Option ConnectorManifest)
    (principal : Principal) (workspaceId integrationId : Uuid)
    (exchange : Except Failure TokenAnswer) (probe : Except ConnectorError ConnectorResult)
    (credentialId : Uuid) (clock now : Instant) : Except Failure (ConnectionTest × Store) := do
  scopedMember store.memberships principal workspaceId .read
  let resolved ← resolve deployment store cached workspaceId integrationId
  let definition := resolved.1
  let row := resolved.2.2
  let refreshed ← refreshIfNeeded deployment store workspaceId integrationId definition
    resolved.2.1 exchange credentialId clock now
  let granted := if row.grantedScopes = [] then row.scopes else row.grantedScopes
  let missing := sortedDifference row.scopes granted
  match definition.testCapability with
  | none =>
    pure ({ status := row.status, ok := row.status = .connected, grantedScopes := granted,
            missingScopes := missing, errorCode := some "no_probe_available" },
      recordTest refreshed.2 workspaceId integrationId none none now)
  | some _ =>
    match probe with
    | .error raised =>
      pure ({ status := .error, ok := false, grantedScopes := granted,
              missingScopes := missing, errorCode := some raised.code },
        recordTest refreshed.2 workspaceId integrationId (some raised.code) none now)
    | .ok result =>
      pure ({ status := probedStatus result, ok := result.ok, grantedScopes := granted,
              missingScopes := missing, errorCode := result.errorCode },
        recordTest refreshed.2 workspaceId integrationId result.errorCode
          (some (probedStatus result)) now)

/-- An agent call's resolution and token refresh, committed when the call returns. -/
def refreshForCall (deployment : Deployment) (store : Store) (cached : Option ConnectorManifest)
    (workspaceId integrationId : Uuid) (exchange : Except Failure TokenAnswer)
    (credentialId : Uuid) (clock now : Instant) : Except Failure Store := do
  let resolved ← resolve deployment store cached workspaceId integrationId
  let refreshed ← refreshIfNeeded deployment store workspaceId integrationId resolved.1
    resolved.2.1 exchange credentialId clock now
  pure refreshed.2

/-- Start an authorization: a pending connection and a single-use state. -/
def startOAuth (deployment : Deployment) (store : Store) (cached : Option ConnectorManifest)
    (principal : Principal) (workspaceId : Uuid) (body : OAuthStartInput) (integrationId : Uuid)
    (stateDigest : Nat) (clock now : Instant) : Except Failure Store := do
  scopedMember store.memberships principal workspaceId .manageIntegrations
  let definition ← definitionFor store cached body.integrationDefinitionId
  raiseIf (definition.auth ≠ .oauth2 ∨ definition.oauth = none)
    (.http 409 (some "This integration does not use an authorization flow"))
  raiseIf (definition.status = .disabled) (.http 409 (some "This integration is not available"))
  client deployment definition
  let defaults := (definition.oauth.map OAuthConfig.defaultScopes).getD []
  let requested := if body.scopes = [] then defaults else body.scopes
  let unknown := sortedDifference requested definition.scopes
  raiseIf (unknown ≠ [])
    (.http 422 (some ("Undeclared scopes requested: " ++ listText unknown)))
  let pending ← insertIntegration store workspaceId integrationId definition body.displayName
    body.accountIdentifier requested Dict.empty now
  raiseIf (deployment.vaultAvailable = false)
    (.http 503 (some "Secret storage is not configured"))
  let states ← inserted (pending.oauthStates.insert? stateDigest
    { workspaceId := workspaceId, integrationDefinitionId := definition.id,
      tenantIntegrationId := integrationId, requestedScopes := requested,
      expiresAt := clock + oauthStateTtl })
  pure { pending with oauthStates := states }

/-- Complete an authorization. A refusal or a failed exchange leaves the transaction with
an exception, and the consumption of the state is rolled back with it. -/
def completeOAuth (deployment : Deployment) (store : Store) (cached : Option ConnectorManifest)
    (principal : Principal) (workspaceId : Uuid) (stateDigest : Nat)
    (exchange : Except Failure TokenAnswer) (credentialId : Uuid) (clock now : Instant) :
    Except Failure Store := do
  scopedMember store.memberships principal workspaceId .manageIntegrations
  let state ← orRaise ((store.oauthStates.find? stateDigest).filter fun state =>
      state.workspaceId = workspaceId)
    (.http 409 (some "This authorization request is no longer valid"))
  raiseIf (state.expiresAt ≤ clock)
    (.http 409 (some "This authorization request is no longer valid"))
  let definition ← definitionFor store cached state.integrationDefinitionId
  client deployment definition
  let answer ← exchange
  let granted := answer.grantedScopes.getD state.requestedScopes
  let consumed := { store with
    oauthStates := store.oauthStates.erase stateDigest
    integrations := store.integrations.modify state.tenantIntegrationId fun row =>
      if row.workspaceId = workspaceId then { row with grantedScopes := granted } else row }
  writeCredential deployment consumed workspaceId state.tenantIntegrationId answer.document
    answer.expiresAt credentialId now

end Nexora.Tenant
