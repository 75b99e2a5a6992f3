import Nexora.Tenant.System

/-!
# What an operation leaves alone

An operation on one instance leaves every other instance, its bindings, every
connection and the catalog as they were: `OthersKept`. An operation of the vault leaves
every instance, every binding and the catalog as they were, and every live connection
live but at most one: `VaultKept`.
-/

namespace Nexora.Tenant

open Nexora.Std Nexora.Catalog Nexora.Integration Nexora.Workspace

/-- Nothing changed but one instance and its bindings. -/
structure OthersKept (agentId : Uuid) (before after : Store) : Prop where
  agents : ∀ other, other ≠ agentId →
    after.tenantAgents.find? other = before.tenantAgents.find? other
  bindings : ∀ other key, other ≠ agentId →
    after.bindings.find? (other, key) = before.bindings.find? (other, key)
  integrations : after.integrations = before.integrations
  catalog : after.catalog = before.catalog

/-- A connection that exists and is connected. -/
def Live (store : Store) (integrationId : Uuid) : Prop :=
  ∃ row, store.integrations.find? integrationId = some row ∧ row.status = .connected

/-- Neither an instance, a binding nor the catalog changed, and no connection but the
named one stopped being live. -/
structure VaultKept (lost : Option Uuid) (before after : Store) : Prop where
  agents : after.tenantAgents = before.tenantAgents
  bindings : after.bindings = before.bindings
  catalog : after.catalog = before.catalog
  live : ∀ integrationId, some integrationId ≠ lost →
    Live before integrationId → Live after integrationId

/-- No version event was recorded. -/
def HistoryKept (before after : Store) : Prop := after.versionEvents = before.versionEvents

namespace OthersKept

variable {agentId : Uuid} {first second third : Store}

theorem refl (agentId : Uuid) (store : Store) : OthersKept agentId store store :=
  ⟨fun _ _ => rfl, fun _ _ _ => rfl, rfl, rfl⟩

theorem trans (early : OthersKept agentId first second) (late : OthersKept agentId second third) :
    OthersKept agentId first third where
  agents other distinct := (late.agents other distinct).trans (early.agents other distinct)
  bindings other key distinct :=
    (late.bindings other key distinct).trans (early.bindings other key distinct)
  integrations := late.integrations.trans early.integrations
  catalog := late.catalog.trans early.catalog

end OthersKept

namespace VaultKept

variable {lost : Option Uuid} {first second third : Store}

/-- Operations that change neither instances, bindings, the catalog nor connections. -/
theorem of_eq (agents : second.tenantAgents = first.tenantAgents)
    (bindings : second.bindings = first.bindings) (catalog : second.catalog = first.catalog)
    (integrations : second.integrations = first.integrations) : VaultKept lost first second where
  agents := agents
  bindings := bindings
  catalog := catalog
  live _ _ live := by rwa [Live, integrations]

theorem refl (lost : Option Uuid) (store : Store) : VaultKept lost store store :=
  of_eq rfl rfl rfl rfl

theorem trans (early : VaultKept lost first second) (late : VaultKept lost second third) :
    VaultKept lost first third where
  agents := late.agents.trans early.agents
  bindings := late.bindings.trans early.bindings
  catalog := late.catalog.trans early.catalog
  live integrationId kept live :=
    late.live integrationId kept (early.live integrationId kept live)

/-- A change of one connection's row that keeps a connected one connected. -/
theorem modify (lost : Option Uuid) (store : Store) (integrationId : Uuid)
    (change : IntegrationRow → IntegrationRow)
    (connected : some integrationId ≠ lost →
      ∀ row, row.status = .connected → (change row).status = .connected) :
    VaultKept lost store
      { store with integrations := store.integrations.modify integrationId change } where
  agents := rfl
  bindings := rfl
  catalog := rfl
  live other kept := by
    rintro ⟨row, present, status⟩
    by_cases same : other = integrationId
    · subst same
      exact ⟨change row, by simp [present], connected kept row status⟩
    · exact ⟨row, by simpa [same] using present, status⟩

end VaultKept

theorem bothKept_trans {lost : Option Uuid} {first second third : Store}
    (early : VaultKept lost first second ∧ HistoryKept first second)
    (late : VaultKept lost second third ∧ HistoryKept second third) :
    VaultKept lost first third ∧ HistoryKept first third :=
  ⟨early.1.trans late.1, late.2.trans early.2⟩

section Instances

variable {deployment : Deployment} {store next : Store} {principal : Principal}
  {workspaceId agentId toVersionId : Uuid} {now : Instant} {action : VersionAction} {eventId : Uuid}
  {key : String} {fromVersionId : Option Uuid} {manifest : AgentManifest} {row : TenantAgentRow}

/-- Changing one instance's row touches nothing else. -/
theorem modify_othersKept (store : Store) (agentId : Uuid)
    (change : TenantAgentRow → TenantAgentRow) :
    OthersKept agentId store
      { store with tenantAgents := store.tenantAgents.modify agentId change } where
  agents _ distinct := Table.find?_modify_ne _ _ distinct
  bindings _ _ _ := rfl
  integrations := rfl
  catalog := rfl

/-- Storing one instance's row touches nothing else. -/
theorem put_othersKept (store : Store) (agentId : Uuid) (row : TenantAgentRow) :
    OthersKept agentId store
      { store with tenantAgents := store.tenantAgents.put agentId row } where
  agents _ distinct := Table.find?_put_ne _ _ distinct
  bindings _ _ _ := rfl
  integrations := rfl
  catalog := rfl

/-- Storing one of an instance's bindings touches nothing else. -/
theorem putBinding_othersKept (store : Store) (agentId : Uuid) (key : String)
    (row : BindingRow) :
    OthersKept agentId store
      { store with bindings := store.bindings.put (agentId, key) row } where
  agents _ _ := rfl
  bindings other otherKey distinct := by
    refine Table.find?_put_ne _ _ ?_
    intro same
    exact distinct (congrArg Prod.fst same)
  integrations := rfl
  catalog := rfl

theorem settleStatus_othersKept (store : Store) (workspaceId agentId : Uuid)
    (manifest : AgentManifest) (now : Instant) :
    OthersKept agentId store (settleStatus store workspaceId agentId manifest now) :=
  modify_othersKept store agentId _

/-- A written binding is the row stored under its agent and key. -/
theorem writeBinding_ok {integrationId : Uuid}
    (ok : writeBinding store workspaceId agentId manifest key integrationId now = .ok next) :
    next = { store with
      bindings := store.bindings.put (agentId, key)
        (bindingRow store workspaceId agentId key integrationId now) } := by
  simp only [writeBinding, bind_eq_ok, raiseIf_eq_ok, pure_eq_ok] at ok
  obtain ⟨_, _, _, _, _, _, _, _, rfl⟩ := ok
  rfl

theorem writeBinding_othersKept {integrationId : Uuid}
    (ok : writeBinding store workspaceId agentId manifest key integrationId now = .ok next) :
    OthersKept agentId store next := by
  rw [writeBinding_ok ok]
  exact putBinding_othersKept store agentId key _

/-- A removed binding leaves the instances and the other bindings alone. -/
theorem eraseBinding_othersKept (store : Store) (workspaceId agentId : Uuid) (key : String) :
    OthersKept agentId store (eraseBinding store workspaceId agentId key) := by
  unfold eraseBinding
  cases store.bindings.find? (agentId, key) with
  | none => exact .refl agentId store
  | some binding =>
    by_cases own : binding.workspaceId = workspaceId
    · simp only [if_pos own]
      refine ⟨fun _ _ => rfl, fun other otherKey distinct => ?_, rfl, rfl⟩
      rw [Table.find?_erase, if_neg]
      intro same
      exact distinct (congrArg Prod.fst same)
    · simp only [if_neg own]
      exact .refl agentId store

/-- A recorded version event changes no instance, binding or connection. -/
theorem recordVersion_ok
    (ok : recordVersion store principal workspaceId agentId fromVersionId toVersionId action eventId
      now = .ok next) :
    ∃ versionEvents, next = { store with versionEvents := versionEvents } := by
  simp only [recordVersion, bind_eq_ok, pure_eq_ok] at ok
  obtain ⟨versionEvents, _, rfl⟩ := ok
  exact ⟨versionEvents, rfl⟩

theorem recordVersion_othersKept
    (ok : recordVersion store principal workspaceId agentId fromVersionId toVersionId action eventId
      now = .ok next) : OthersKept agentId store next := by
  obtain ⟨_, rfl⟩ := recordVersion_ok ok
  exact ⟨fun _ _ => rfl, fun _ _ _ => rfl, rfl, rfl⟩

/-- A moved pin changes the version of the workspace's instance, and its time. -/
theorem repin_ok {fromVersionId : Uuid}
    (ok : repin store principal workspaceId agentId fromVersionId toVersionId action eventId now =
      .ok next) :
    ∃ versionEvents, next = { store with
      versionEvents := versionEvents
      tenantAgents := store.tenantAgents.modify agentId fun row =>
        if row.workspaceId = workspaceId then
          { row with versionId := toVersionId, updatedAt := now }
        else row } :=
  recordVersion_ok ok

theorem repin_othersKept {fromVersionId : Uuid}
    (ok : repin store principal workspaceId agentId fromVersionId toVersionId action eventId now =
      .ok next) : OthersKept agentId store next :=
  (modify_othersKept store agentId _).trans (recordVersion_othersKept ok)

/-- Installing changes nothing but the new instance and its bindings. -/
theorem install_othersKept {body : InstallInput}
    (ok : install deployment store principal workspaceId body agentId eventId now = .ok next) :
    OthersKept agentId store next := by
  simp only [install, bind_eq_ok, inserted_eq_ok, Table.insert?_eq_some, pure_eq_ok] at ok
  obtain ⟨_, _, _, _, _, _, manifest, _, _, _, _, _, _, ⟨_, rfl⟩, bound, writes, recorded, event,
    rfl⟩ := ok
  have written : OthersKept agentId store bound := by
    refine foldlM_invariant (OthersKept agentId store) ?_ (put_othersKept store agentId _) writes
    intro current entry _ later kept write
    exact kept.trans (writeBinding_othersKept write)
  exact (written.trans (recordVersion_othersKept event)).trans
    (settleStatus_othersKept recorded workspaceId agentId manifest now)

theorem setBinding_othersKept {integrationId : Uuid}
    (ok : setBinding store principal workspaceId agentId key integrationId now = .ok next) :
    OthersKept agentId store next := by
  simp only [setBinding, bind_eq_ok, pure_eq_ok] at ok
  obtain ⟨_, _, _, _, manifest, _, bound, write, rfl⟩ := ok
  exact (writeBinding_othersKept write).trans
    (settleStatus_othersKept bound workspaceId agentId manifest now)

theorem clearBinding_othersKept
    (ok : clearBinding store principal workspaceId agentId key now = .ok next) :
    OthersKept agentId store next := by
  simp only [clearBinding, bind_eq_ok, pure_eq_ok] at ok
  obtain ⟨_, _, _, _, manifest, _, rfl⟩ := ok
  exact (eraseBinding_othersKept store workspaceId agentId key).trans
    (settleStatus_othersKept _ workspaceId agentId manifest now)

theorem updateAgentInstance_othersKept {body : TenantAgentUpdate}
    (ok : updateAgentInstance store principal workspaceId agentId body now = .ok next) :
    OthersKept agentId store next := by
  simp only [updateAgentInstance, bind_eq_ok, pure_eq_ok] at ok
  obtain ⟨_, _, _, _, _, _, _, _, _, _, rfl⟩ := ok
  exact put_othersKept store agentId _

theorem uninstall_othersKept
    (ok : uninstall store principal workspaceId agentId now = .ok next) :
    OthersKept agentId store next := by
  simp only [uninstall, bind_eq_ok, pure_eq_ok] at ok
  obtain ⟨_, _, _, _, rfl⟩ := ok
  refine ⟨fun _ distinct => Table.find?_modify_ne _ _ distinct, fun other key distinct => ?_, rfl,
    rfl⟩
  rw [Table.find?_foldl_erase, if_neg]
  intro member
  obtain ⟨⟨_, _⟩, selected, rfl⟩ := List.mem_map.mp member
  simp only [Table.mem_select, decide_eq_true_eq] at selected
  exact distinct selected.2.1

/-- A version move changes nothing but its instance. -/
theorem moveVersion_othersKept {version : Option Version}
    (ok : moveVersion deployment store principal workspaceId agentId version eventId now =
      .ok next) : OthersKept agentId store next := by
  simp only [moveVersion, bind_eq_ok] at ok
  obtain ⟨_, _, row, _, target, _, ok⟩ := ok
  split at ok
  · rw [pure_eq_ok] at ok
    subst ok
    exact .refl agentId store
  · simp only [bind_eq_ok, pure_eq_ok] at ok
    obtain ⟨manifest, _, _, _, moved, move, rfl⟩ := ok
    exact (repin_othersKept move).trans
      (settleStatus_othersKept moved workspaceId agentId manifest now)

theorem rollbackVersion_othersKept
    (ok : rollbackVersion store principal workspaceId agentId eventId now = .ok next) :
    OthersKept agentId store next := by
  simp only [rollbackVersion, bind_eq_ok, pure_eq_ok] at ok
  obtain ⟨_, _, _, _, _, _, manifest, _, moved, move, rfl⟩ := ok
  exact (repin_othersKept move).trans
    (settleStatus_othersKept moved workspaceId agentId manifest now)

/-- One automatic update either leaves the store alone or moves and settles its
instance. -/
theorem automaticUpdate_ok
    (ok : automaticUpdate deployment store agentId row eventId now = .ok next) :
    next = store ∨ ∃ target number manifest action moved,
      automaticTarget deployment store row = .ok (some (target, number, manifest)) ∧
        repin store updateScheduler row.workspaceId agentId row.versionId target action eventId
          now = .ok moved ∧
        next = settleStatus moved row.workspaceId agentId manifest now := by
  simp only [automaticUpdate, bind_eq_ok] at ok
  obtain ⟨offer, offered, ok⟩ := ok
  cases offer with
  | none =>
    rw [pure_eq_ok] at ok
    exact .inl ok.symm
  | some move =>
    obtain ⟨target, number, manifest⟩ := move
    simp only [bind_eq_ok, pure_eq_ok] at ok
    obtain ⟨_, _, moved, repinned, rfl⟩ := ok
    exact .inr ⟨target, number, manifest, _, moved, offered, repinned, rfl⟩

theorem automaticUpdate_othersKept
    (ok : automaticUpdate deployment store agentId row eventId now = .ok next) :
    OthersKept agentId store next := by
  obtain rfl | ⟨_, _, manifest, _, moved, _, move, rfl⟩ := automaticUpdate_ok ok
  · exact .refl agentId _
  · exact (repin_othersKept move).trans
      (settleStatus_othersKept moved row.workspaceId agentId manifest now)

end Instances

section Vault

variable {deployment : Deployment} {store next : Store} {cached : Option ConnectorManifest}
  {principal : Principal} {workspaceId integrationId credentialId : Uuid} {clock now : Instant}
  {exchange : Except Failure TokenAnswer} {definition : ConnectorManifest} {document : Dict String}
  {stateDigest : Nat}

theorem publishDefinition_kept {definitionId : String} {manifest : ConnectorManifest}
    (ok : publishDefinition store definitionId manifest = .ok next) :
    VaultKept none store next := by
  simp only [publishDefinition, bind_eq_ok, pure_eq_ok] at ok
  obtain ⟨_, _, rfl⟩ := ok
  exact .of_eq rfl rfl rfl rfl

/-- A new connection takes a free identifier, so none stops being live. -/
theorem insertIntegration_kept (lost : Option Uuid) {displayName accountIdentifier : String}
    {scopes : List String} {config : Dict String}
    (ok : insertIntegration store workspaceId integrationId definition displayName
      accountIdentifier scopes config now = .ok next) : VaultKept lost store next ∧
        HistoryKept store next := by
  simp only [insertIntegration, bind_eq_ok, inserted_eq_ok, Table.insert?_eq_some,
    pure_eq_ok] at ok
  obtain ⟨_, _, _, ⟨free, rfl⟩, rfl⟩ := ok
  refine ⟨⟨rfl, rfl, rfl, ?_⟩, rfl⟩
  rintro other _ ⟨row, present, status⟩
  refine ⟨row, ?_, status⟩
  have distinct : other ≠ integrationId := by
    rintro rfl
    rw [free] at present
    cases present
  simpa [distinct] using present

/-- Writing a credential makes its connection connected. -/
theorem writeCredential_kept (lost : Option Uuid) {expiresAt : Option Instant}
    (ok : writeCredential deployment store workspaceId integrationId document expiresAt
      credentialId now = .ok next) : VaultKept lost store next ∧ HistoryKept store next := by
  simp only [writeCredential, bind_eq_ok, pure_eq_ok] at ok
  obtain ⟨_, _, _, _, row, _, rfl⟩ := ok
  have connected := VaultKept.modify lost store integrationId
    (fun row => if row.workspaceId = workspaceId then
        { row with credentialReference := some credentialId, status := .connected,
                   lastError := none, updatedAt := now }
      else row)
    (fun _ row status => by by_cases own : row.workspaceId = workspaceId <;> simp [own, status])
  exact ⟨connected.trans (.of_eq rfl rfl rfl rfl), rfl⟩

theorem connect_kept {body : ConnectInput}
    (ok : connect deployment store cached principal workspaceId body integrationId credentialId
      now = .ok next) : VaultKept none store next ∧ HistoryKept store next := by
  simp only [connect, bind_eq_ok] at ok
  obtain ⟨_, _, _, _, _, _, _, _, _, _, _, _, pending, insertion, write⟩ := ok
  exact bothKept_trans (insertIntegration_kept none insertion) (writeCredential_kept none write)

theorem rotate_kept {credentials : Dict String}
    (ok : rotate deployment store cached principal workspaceId integrationId credentials
      credentialId now = .ok next) : VaultKept none store next ∧ HistoryKept store next := by
  simp only [rotate, bind_eq_ok] at ok
  obtain ⟨_, _, _, _, _, _, _, _, fields, _, _, _, write⟩ := ok
  refine bothKept_trans ⟨.modify none store integrationId
    (fun row => { row with config := fields.2 }) ?_, rfl⟩ (writeCredential_kept none write)
  exact fun _ row status => status

/-- Disabling a connection is the one update that may end its being live. -/
theorem updateIntegration_kept {body : IntegrationUpdate}
    (ok : updateIntegration store principal workspaceId integrationId body now = .ok next) :
    VaultKept (if body.enabled = some false then some integrationId else none) store next ∧
      HistoryKept store next := by
  simp only [updateIntegration, bind_eq_ok, pure_eq_ok] at ok
  obtain ⟨_, _, row, present, rfl⟩ := ok
  simp only [integrationRow, found_eq_ok, Option.filter_eq_some_iff] at present
  refine ⟨⟨rfl, rfl, rfl, ?_⟩, rfl⟩
  rintro other kept ⟨current, stored, status⟩
  by_cases same : other = integrationId
  · subst same
    rw [present.1, Option.some.injEq] at stored
    subst stored
    cases enabled : body.enabled with
    | none => exact ⟨_, by simp [present.1]; rfl, by simp [status]⟩
    | some value =>
      cases value with
      | true => exact ⟨_, by simp [present.1]; rfl, by simp [status]⟩
      | false => simp [enabled] at kept
  · exact ⟨current, by simpa [same] using stored, status⟩

/-- Only a connection no binding refers to is removed. -/
theorem disconnect_kept
    (ok : disconnect store principal workspaceId integrationId = .ok next) :
    (VaultKept (some integrationId) store next ∧ HistoryKept store next) ∧
      ∀ key binding, store.bindings.find? key = some binding →
        binding.tenantIntegrationId ≠ integrationId := by
  simp only [disconnect, bind_eq_ok, raiseIf_eq_ok, Table.any_eq_true, pure_eq_ok] at ok
  obtain ⟨_, _, _, _, _, _, _, unbound, rfl⟩ := ok
  refine ⟨⟨⟨rfl, rfl, rfl, ?_⟩, rfl⟩, ?_⟩
  · rintro other kept ⟨row, present, status⟩
    have distinct : other ≠ integrationId := fun same => kept (congrArg some same)
    exact ⟨row, by simpa [Table.find?_erase, distinct] using present, status⟩
  · intro key binding present same
    exact unbound ⟨key, binding, present, by simpa using same⟩

theorem refreshIfNeeded_kept (lost : Option Uuid) {used : Dict String}
    (ok : refreshIfNeeded deployment store workspaceId integrationId definition document exchange
      credentialId clock now = .ok (used, next)) : VaultKept lost store next ∧
        HistoryKept store next := by
  unfold refreshIfNeeded at ok
  split at ok
  · simp only [pure_eq_ok, Prod.mk.injEq] at ok
    obtain ⟨_, rfl⟩ := ok
    exact ⟨.refl lost store, rfl⟩
  · simp only [bind_eq_ok, pure_eq_ok, Prod.mk.injEq] at ok
    obtain ⟨_, _, _, _, _, write, _, rfl⟩ := ok
    exact writeCredential_kept lost write

theorem refreshForCall_kept
    (ok : refreshForCall deployment store cached workspaceId integrationId exchange credentialId
      clock now = .ok next) : VaultKept none store next ∧ HistoryKept store next := by
  simp only [refreshForCall, bind_eq_ok, pure_eq_ok] at ok
  obtain ⟨_, _, ⟨_, _⟩, refresh, rfl⟩ := ok
  exact refreshIfNeeded_kept none refresh

/-- A recorded test keeps a connection live unless it records another status. -/
theorem recordTest_kept (lost : Option Uuid) (store : Store) {errorCode : Option String}
    {status : Option IntegrationStatus}
    (recorded : some integrationId ≠ lost → status = none ∨ status = some .connected) :
    VaultKept lost store (recordTest store workspaceId integrationId errorCode status now) ∧
      HistoryKept store (recordTest store workspaceId integrationId errorCode status now) := by
  refine ⟨.modify lost store integrationId _ ?_, rfl⟩
  intro kept row connected
  by_cases own : row.workspaceId = workspaceId
  · obtain rfl | rfl := recorded kept <;> simp [own, connected]
  · simp [own, connected]

/-- The definition a connection's test uses probes, and the provider's answer says the
account does not work. -/
def ProbeFails (deployment : Deployment) (store : Store) (cached : Option ConnectorManifest)
    (workspaceId integrationId : Uuid) (probe : Except ConnectorError ConnectorResult) : Prop :=
  ∃ resolved result, resolve deployment store cached workspaceId integrationId = .ok resolved ∧
    resolved.1.testCapability ≠ none ∧ probe = .ok result ∧ result.ok = false

/-- A failed probe is the one test that may end a connection's being live. -/
theorem testIntegration_kept (lost : Option Uuid)
    {probe : Except ConnectorError ConnectorResult}
    {report : ConnectionTest}
    (ok : testIntegration deployment store cached principal workspaceId integrationId exchange
      probe credentialId clock now = .ok (report, next))
    (kept : some integrationId ≠ lost →
      ¬ ProbeFails deployment store cached workspaceId integrationId probe) :
    VaultKept lost store next ∧ HistoryKept store next := by
  simp only [testIntegration, bind_eq_ok] at ok
  obtain ⟨_, _, resolved, opened, ⟨_, refreshed⟩, refresh, ok⟩ := ok
  have early := refreshIfNeeded_kept lost refresh
  split at ok
  · simp only [pure_eq_ok, Prod.mk.injEq] at ok
    obtain ⟨_, rfl⟩ := ok
    exact bothKept_trans early (recordTest_kept lost refreshed fun _ => .inl rfl)
  · rename_i capability probes
    split at ok
    · simp only [pure_eq_ok, Prod.mk.injEq] at ok
      obtain ⟨_, rfl⟩ := ok
      exact bothKept_trans early (recordTest_kept lost refreshed fun _ => .inl rfl)
    · rename_i result
      simp only [pure_eq_ok, Prod.mk.injEq] at ok
      obtain ⟨_, rfl⟩ := ok
      refine bothKept_trans early (recordTest_kept lost refreshed fun spared => .inr ?_)
      cases answer : result.ok with
      | true => simp [probedStatus, answer]
      | false => exact absurd ⟨resolved, result, opened, by simp [probes], rfl, answer⟩ (kept spared)

theorem startOAuth_kept {body : OAuthStartInput}
    (ok : startOAuth deployment store cached principal workspaceId body integrationId stateDigest
      clock now = .ok next) : VaultKept none store next ∧ HistoryKept store next := by
  simp only [startOAuth, bind_eq_ok, pure_eq_ok] at ok
  obtain ⟨_, _, _, _, _, _, _, _, _, _, _, _, pending, insertion, _, _, _, _, rfl⟩ := ok
  exact bothKept_trans (insertIntegration_kept none insertion) ⟨.of_eq rfl rfl rfl rfl, rfl⟩

theorem completeOAuth_kept
    (ok : completeOAuth deployment store cached principal workspaceId stateDigest exchange
      credentialId clock now = .ok next) :
    VaultKept none store next ∧ HistoryKept store next := by
  simp only [completeOAuth, bind_eq_ok] at ok
  obtain ⟨_, _, state, _, _, _, _, _, _, _, answer, _, write⟩ := ok
  refine bothKept_trans (bothKept_trans ⟨.modify none store state.tenantIntegrationId
    (fun row => if row.workspaceId = workspaceId then
        { row with grantedScopes := answer.grantedScopes.getD state.requestedScopes } else row)
    (fun _ row status => by by_cases own : row.workspaceId = workspaceId <;> simp [own, status]),
    rfl⟩ ?_) (writeCredential_kept none write)
  exact ⟨.of_eq rfl rfl rfl rfl, rfl⟩

/-- The operations that spare the catalog and the instances with what belongs to them. -/
def Operation.sparesInstances : Operation → Bool
  | .catalog .. | .install .. | .setBinding .. | .clearBinding .. | .updateAgentInstance ..
  | .uninstall .. | .moveVersion .. | .rollbackVersion .. | .applyAutomaticUpdates .. => false
  | _ => true

/-- Such an operation leaves them as they were; a connection may stop being live. -/
theorem run_sparesInstances {operation : Operation} (spares : operation.sparesInstances = true)
    (ok : run deployment store operation = .ok next) :
    (∃ lost, VaultKept lost store next) ∧ HistoryKept store next := by
  cases operation with
  | catalog | install | setBinding | clearBinding | updateAgentInstance | uninstall | moveVersion
  | rollbackVersion | applyAutomaticUpdates => cases spares
  | setMember principal workspaceId subject role =>
    simp only [run, bind_eq_ok, pure_eq_ok] at ok
    obtain ⟨_, _, rfl⟩ := ok
    exact ⟨⟨none, .of_eq rfl rfl rfl rfl⟩, rfl⟩
  | setPolicy principal workspaceId channel mode =>
    simp only [run, setPolicy, bind_eq_ok, pure_eq_ok] at ok
    obtain ⟨_, _, rfl⟩ := ok
    exact ⟨⟨none, .of_eq rfl rfl rfl rfl⟩, rfl⟩
  | publishDefinition =>
    simp only [run, publishDefinition, bind_eq_ok, pure_eq_ok] at ok
    obtain ⟨_, _, rfl⟩ := ok
    exact ⟨⟨none, .of_eq rfl rfl rfl rfl⟩, rfl⟩
  | connect => exact (connect_kept ok).imp_left fun kept => ⟨_, kept⟩
  | updateIntegration => exact (updateIntegration_kept ok).imp_left fun kept => ⟨_, kept⟩
  | rotate => exact (rotate_kept ok).imp_left fun kept => ⟨_, kept⟩
  | disconnect => exact (disconnect_kept ok).1.imp_left fun kept => ⟨_, kept⟩
  | testIntegration cached principal workspaceId integrationId =>
    simp only [run, bind_eq_ok, pure_eq_ok] at ok
    obtain ⟨⟨_, _⟩, test, rfl⟩ := ok
    exact (testIntegration_kept (some integrationId) test fun spared => absurd rfl spared).imp_left
      fun kept => ⟨_, kept⟩
  | refreshForCall => exact (refreshForCall_kept ok).imp_left fun kept => ⟨_, kept⟩
  | startOAuth => exact (startOAuth_kept ok).imp_left fun kept => ⟨_, kept⟩
  | completeOAuth => exact (completeOAuth_kept ok).imp_left fun kept => ⟨_, kept⟩

end Vault

end Nexora.Tenant
