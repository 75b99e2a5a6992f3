import Nexora.Tenant.SingleUse

/-!
# Reconnecting an account

`start_oauth` makes a new connection for every authorization, and a workspace connects one
account of a service once. The row of a connection whose authorization was abandoned, or whose
credential has expired or was revoked, is still there, so another authorization for its account
is refused as already connected. `rotate` sends such a connection to its provider, and
`disconnect` keeps one that an agent is bound to.
-/

namespace Nexora.Tenant

open Nexora.Std Nexora.Integration Nexora.Workspace

/-- A connection through a provider that does not work. -/
structure Broken (row : IntegrationRow) : Prop where
  isOAuth : row.authType = .oauth2
  status : row.status ∈ [.pending, .expired, .revoked, .error]

/-- A connection's definition and client can be used for an authorization. -/
structure Authorizable (deployment : Deployment) (store : Store)
    (cached : Option ConnectorManifest) (row : IntegrationRow) : Prop where
  definition : ∃ definition, definitionFor store cached row.integrationDefinitionId =
      .ok definition ∧ definition.id = row.integrationDefinitionId ∧ definition.auth = .oauth2 ∧
    definition.oauth ≠ none ∧ definition.status ≠ .disabled ∧
    client deployment definition = .ok ()
  vault : deployment.vaultAvailable = true

/-- An authorization of a connection's account: what the manager asks for and what is drawn. -/
structure Authorization (row : IntegrationRow) where
  body : OAuthStartInput
  integrationId : Uuid
  stateDigest : Nat
  clock : Instant
  now : Instant
  ofDefinition : body.integrationDefinitionId = row.integrationDefinitionId
  ofAccount : body.accountIdentifier = row.accountIdentifier

/-- A manager starts an authorization for a connection's account, and completing it leaves that
same connection connected and bound as it was. -/
def Reconnects (deployment : Deployment) (store : Store) (cached : Option ConnectorManifest)
    (manager : Principal) (integrationId : Uuid) (row : IntegrationRow) : Prop :=
  ∃ (authorization : Authorization row) (started : Store),
    startOAuth deployment store cached manager row.workspaceId authorization.body
        authorization.integrationId authorization.stateDigest authorization.clock
        authorization.now = .ok started ∧
      ∃ (exchange : Except Failure TokenAnswer) (credentialId : Uuid) (clock now : Instant)
        (completed : Store) (after : IntegrationRow),
        completeOAuth deployment started cached manager row.workspaceId authorization.stateDigest
            exchange credentialId clock now = .ok completed ∧
          completed.integrations.find? integrationId = some after ∧ after.status = .connected ∧
            ∀ key binding, store.bindings.find? key = some binding →
              binding.tenantIntegrationId = integrationId →
                completed.bindings.find? key = some binding

/-- A second row of an account is never inserted. -/
theorem insertIntegration_account {store next : Store} {workspaceId integrationId : Uuid}
    {definition : ConnectorManifest} {displayName accountIdentifier : String}
    {scopes : List String} {config : Dict String} {now : Instant}
    (ok : insertIntegration store workspaceId integrationId definition displayName
      accountIdentifier scopes config now = .ok next) {id : Uuid} {row : IntegrationRow}
    (present : store.integrations.find? id = some row) :
    ¬ (row.workspaceId = workspaceId ∧ row.integrationDefinitionId = definition.id ∧
      row.accountIdentifier = accountIdentifier) := by
  rintro ⟨inWorkspace, ofDefinition, ofAccount⟩
  simp only [insertIntegration, bind_eq_ok, raiseIf_eq_ok] at ok
  obtain ⟨_, free, -⟩ := ok
  apply free
  rw [Table.any_eq_true]
  exact ⟨id, row, present, by simp [inWorkspace, ofDefinition, ofAccount]⟩

/-- An authorization for the account of a connection that exists is refused. -/
theorem startOAuth_refused {deployment : Deployment} {store started : Store}
    {cached : Option ConnectorManifest} {manager : Principal} {integrationId : Uuid}
    {row : IntegrationRow} (present : store.integrations.find? integrationId = some row)
    (authorizable : Authorizable deployment store cached row) (authorization : Authorization row) :
    startOAuth deployment store cached manager row.workspaceId authorization.body
      authorization.integrationId authorization.stateDigest authorization.clock
      authorization.now ≠ .ok started := by
  intro starts
  obtain ⟨definition, isDefinition, isId, -⟩ := authorizable.definition
  simp only [startOAuth, bind_eq_ok] at starts
  obtain ⟨_, -, used, isUsed, _, -, _, -, _, -, _, -, pending, insertion, -⟩ := starts
  rw [authorization.ofDefinition, isDefinition] at isUsed
  obtain rfl := Except.ok.inj isUsed
  exact insertIntegration_account insertion present
    ⟨rfl, isId.symm, authorization.ofAccount.symm⟩

/-- No broken connection can be reconnected. -/
theorem broken_never_reconnects {deployment : Deployment} {store : Store}
    {cached : Option ConnectorManifest} {manager : Principal} {integrationId : Uuid}
    {row : IntegrationRow} (present : store.integrations.find? integrationId = some row)
    (_ : Broken row) (authorizable : Authorizable deployment store cached row)
    (_ : scopedMember store.memberships manager row.workspaceId .manageIntegrations = .ok ()) :
    ¬ Reconnects deployment store cached manager integrationId row := by
  rintro ⟨authorization, started, starts, -⟩
  exact startOAuth_refused present authorizable authorization starts

/-- The store after the manager has started an authorization and gone no further. -/
def abandoned : Store :=
  ((startOAuth Vault.registeredDeployment SingleUse.registered.store none Vault.manager 7
    { integrationDefinitionId := "google-search-console", displayName := "Site"
      accountIdentifier := "site", scopes := [] } 20 5 1 1).toOption).getD
    SingleUse.registered.store

/-- The row that authorization left. -/
def abandonedRow : IntegrationRow where
  workspaceId := 7
  integrationDefinitionId := "google-search-console"
  displayName := "Site"
  accountIdentifier := "site"
  authType := .oauth2
  credentialReference := none
  status := .pending
  scopes := ["https://www.googleapis.com/auth/webmasters.readonly"]
  grantedScopes := []
  config := Dict.empty
  createdAt := 1
  updatedAt := 1
  lastTestedAt := none
  lastSuccessAt := none
  lastError := none

/-- An authorization nobody completed leaves a broken connection that could be authorized. -/
theorem abandoned_broken :
    abandoned.integrations.find? 20 = some abandonedRow ∧ Broken abandonedRow ∧
      Authorizable Vault.registeredDeployment abandoned none abandonedRow ∧
      scopedMember abandoned.memberships Vault.manager 7 .manageIntegrations = .ok () :=
  ⟨by decide +kernel, ⟨rfl, by decide⟩, ⟨⟨Vault.searchConsole, by decide +kernel, rfl, rfl,
    by decide, by decide, by decide +kernel⟩, rfl⟩, by decide +kernel⟩

/-- `broken_never_reconnects` applies to an abandoned authorization. -/
theorem broken_never_reconnects_abandoned :
    ¬ Reconnects Vault.registeredDeployment abandoned none Vault.manager 20 abandonedRow :=
  broken_never_reconnects abandoned_broken.1 abandoned_broken.2.1 abandoned_broken.2.2.1
    abandoned_broken.2.2.2

/-- One operation leaves it. -/
theorem abandoned_reached :
    ∃ history, (machine Vault.registeredDeployment).Runs history abandoned := by
  have start : run Vault.registeredDeployment SingleUse.registered.store
      (.startOAuth none Vault.manager 7
        { integrationDefinitionId := "google-search-console", displayName := "Site"
          accountIdentifier := "site", scopes := [] } 20 5 1 1) = .ok abandoned :=
    eq_ok_getD _ _ (by decide +kernel)
  have opening : (machine Vault.registeredDeployment).Initial SingleUse.registered.store := rfl
  exact ⟨_, .step (.initial opening) start⟩

/-- A workspace cannot authorize the account of an abandoned authorization again. -/
theorem abandoned_account_blocked :
    ¬ ∀ (deployment : Deployment) (history : List (Transition Store Operation)) (store : Store),
        (machine deployment).Runs history store →
        ∀ (cached : Option ConnectorManifest) (manager : Principal) (integrationId : Uuid)
          (row : IntegrationRow), store.integrations.find? integrationId = some row →
          Broken row → Authorizable deployment store cached row →
          scopedMember store.memberships manager row.workspaceId .manageIntegrations = .ok () →
          Reconnects deployment store cached manager integrationId row := by
  intro always
  obtain ⟨history, runs⟩ := abandoned_reached
  obtain ⟨present, broken, authorizable, member⟩ := abandoned_broken
  obtain ⟨authorization, started, starts, -⟩ :=
    always Vault.registeredDeployment history abandoned runs none Vault.manager 20 abandonedRow
      present broken authorizable member
  exact startOAuth_refused present authorizable authorization starts

end Nexora.Tenant
