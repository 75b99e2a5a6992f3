import Nexora.Catalog.Rollouts
import Nexora.Tenant.Frames

/-!
# Active instances are ready

An instance is settled whenever its own bindings or its own pin change, so the operations
of the instance repository keep every active instance ready. The vault never settles
the instances bound to a connection it takes down: readiness survives an operation of
the vault exactly as long as that operation leaves alone the connections an active
instance requires.
-/

namespace Nexora.Tenant

open Nexora.Std Nexora.Catalog Nexora.Integration Nexora.Workspace

/-- A key of an instance resolves to a live account. -/
def Connected (store : Store) (workspaceId agentId : Uuid) (key : String) : Prop :=
  ∃ binding, store.bindings.find? (agentId, key) = some binding ∧
    binding.workspaceId = workspaceId ∧ Live store binding.tenantIntegrationId

/-- Every integration a version requires resolves to a live account for an instance. -/
def ReadyAt (store : Store) (workspaceId agentId versionId : Uuid) : Prop :=
  ∃ version, store.catalog.tables.versions.find? versionId = some version ∧
    ∀ key, (key, true) ∈ version.manifest.integrations →
      Connected store workspaceId agentId key

/-- An instance that is active is ready at the version it is pinned to. -/
def AgentReady (store : Store) (agentId : Uuid) : Prop :=
  ∀ row, store.tenantAgents.find? agentId = some row → row.standing = .active →
    ReadyAt store row.workspaceId agentId row.versionId

/-- Every active instance is ready. -/
def ActiveReady (store : Store) : Prop :=
  ∀ agentId, AgentReady store agentId

theorem boundStatus_connected (store : Store) (workspaceId agentId : Uuid) (key : String) :
    boundStatus store workspaceId agentId key = some .connected ↔
      Connected store workspaceId agentId key := by
  unfold boundStatus Connected Live
  cases store.bindings.find? (agentId, key) with
  | none => simp
  | some binding =>
    by_cases own : binding.workspaceId = workspaceId
    · simp [own, Option.bind_eq_some_iff]
    · simp [own]

/-- The source's readiness test is the join it stands for. -/
theorem readiness_iff (required : AgentManifest) (store : Store) (workspaceId agentId : Uuid) :
    readiness required (boundStatus store workspaceId agentId) = true ↔
      ∀ key, (key, true) ∈ required.integrations → Connected store workspaceId agentId key := by
  simp only [readiness, missingRequired, List.isEmpty_iff, List.map_eq_nil_iff,
    List.filter_eq_nil_iff, Bool.and_eq_true, decide_eq_true_eq, not_and, not_not,
    Prod.forall, ← boundStatus_connected]
  constructor
  · intro resolved key member
    exact resolved key true member rfl
  · intro resolved key flag member asked
    exact resolved key (asked ▸ member)

@[simp]
theorem manifest_eq_ok (store : Store) (versionId : Uuid) (required : AgentManifest) :
    manifest store versionId = .ok required ↔
      ∃ version, store.catalog.tables.versions.find? versionId = some version ∧
        version.manifest = required := by
  simp [manifest]

variable {required : AgentManifest} {versionId : Uuid}

/-- With a version's manifest at hand, being ready is the source's readiness test. -/
theorem readyAt_iff {store : Store} (published : manifest store versionId = .ok required)
    (workspaceId agentId : Uuid) :
    ReadyAt store workspaceId agentId versionId ↔
      readiness required (boundStatus store workspaceId agentId) = true := by
  obtain ⟨version, present, rfl⟩ := (manifest_eq_ok store versionId required).mp published
  rw [readiness_iff, ReadyAt, present]
  simp

@[simp]
theorem settledRow_workspaceId (row : TenantAgentRow) (ready : Bool) (now : Instant) :
    (settledRow row ready now).workspaceId = row.workspaceId := by
  unfold settledRow
  split <;> rfl

@[simp]
theorem settledRow_versionId (row : TenantAgentRow) (ready : Bool) (now : Instant) :
    (settledRow row ready now).versionId = row.versionId := by
  unfold settledRow
  split <;> rfl

variable {row : TenantAgentRow}

/-- Settling leaves an instance active only when it is ready. -/
theorem settledRow_active {ready : Bool} {now : Instant}
    (active : (settledRow row ready now).standing = .active) : ready = true := by
  unfold settledRow at active
  split at active
  · rename_i unsettled
    rw [active] at unsettled
    obtain impossible | ⟨_, impossible⟩ := unsettled <;> cases impossible
  · by_contra notReady
    simp [notReady] at active

/-- The row settling leaves behind. -/
theorem settleStatus_find (store : Store) (workspaceId agentId : Uuid) (required : AgentManifest)
    (now : Instant) (present : store.tenantAgents.find? agentId = some row)
    (own : row.workspaceId = workspaceId) :
    (settleStatus store workspaceId agentId required now).tenantAgents.find? agentId =
      some (settledRow row (readiness required (boundStatus store workspaceId agentId)) now) := by
  simp [settleStatus, present, own]

/-- Settling changes neither what an instance requires nor what it is bound to. -/
theorem readyAt_settleStatus (store : Store) (workspaceId agentId : Uuid)
    (required : AgentManifest) (now : Instant) (otherWorkspace other versionId : Uuid) :
    ReadyAt (settleStatus store workspaceId agentId required now) otherWorkspace other versionId ↔
      ReadyAt store otherWorkspace other versionId := Iff.rfl

/-- A settled instance is ready when it is active. -/
theorem settleStatus_ready (row : TenantAgentRow) {store : Store} {workspaceId agentId : Uuid}
    {now : Instant} (present : store.tenantAgents.find? agentId = some row)
    (own : row.workspaceId = workspaceId)
    (published : manifest store row.versionId = .ok required) :
    AgentReady (settleStatus store workspaceId agentId required now) agentId := by
  intro settled found active
  rw [settleStatus_find store workspaceId agentId required now present own,
    Option.some.injEq] at found
  subst found
  rw [readyAt_settleStatus, settledRow_workspaceId, settledRow_versionId, own,
    readyAt_iff published]
  exact settledRow_active active

section Frames

variable {before after : Store} {agentId other : Uuid}

/-- Being ready depends on an instance's bindings, the connections and the catalog. -/
theorem ReadyAt.of_eq {workspaceId : Uuid} (ready : ReadyAt before workspaceId agentId versionId)
    (bindings : ∀ key,
      after.bindings.find? (agentId, key) = before.bindings.find? (agentId, key))
    (integrations : after.integrations = before.integrations)
    (catalog : after.catalog = before.catalog) :
    ReadyAt after workspaceId agentId versionId := by
  obtain ⟨version, present, connected⟩ := ready
  refine ⟨version, by rw [catalog]; exact present, ?_⟩
  intro key member
  obtain ⟨binding, bound, own, live⟩ := connected key member
  exact ⟨binding, by rw [bindings]; exact bound, own, by rwa [Live, integrations]⟩

theorem AgentReady.of_othersKept (ready : AgentReady before other)
    (kept : OthersKept agentId before after) (distinct : other ≠ agentId) :
    AgentReady after other := by
  intro row present active
  rw [kept.agents other distinct] at present
  exact (ready row present active).of_eq (fun key => kept.bindings other key distinct)
    kept.integrations kept.catalog

/-- An operation on one instance keeps every active instance ready once it keeps its own. -/
theorem ActiveReady.of_othersKept (ready : ActiveReady before)
    (kept : OthersKept agentId before after) (own : AgentReady after agentId) :
    ActiveReady after := by
  intro other
  by_cases same : other = agentId
  · exact same ▸ own
  · exact (ready other).of_othersKept kept same

/-- A connection that a required key of an active instance is bound to. -/
def RequiredByActive (store : Store) (integrationId : Uuid) : Prop :=
  ∃ agentId row version key binding, store.tenantAgents.find? agentId = some row ∧
    row.standing = .active ∧
    store.catalog.tables.versions.find? row.versionId = some version ∧
    (key, true) ∈ version.manifest.integrations ∧
    store.bindings.find? (agentId, key) = some binding ∧
    binding.workspaceId = row.workspaceId ∧ binding.tenantIntegrationId = integrationId

/-- The vault keeps active instances ready while it spares the connections they require. -/
theorem ActiveReady.of_vaultKept {lost : Option Uuid} (ready : ActiveReady before)
    (kept : VaultKept lost before after)
    (spared : ∀ integrationId, some integrationId = lost →
      ¬ RequiredByActive before integrationId) : ActiveReady after := by
  intro agentId row present active
  rw [kept.agents] at present
  obtain ⟨version, published, connected⟩ := ready agentId row present active
  refine ⟨version, by rw [kept.catalog]; exact published, ?_⟩
  intro key member
  obtain ⟨binding, bound, own, live⟩ := connected key member
  refine ⟨binding, by rw [kept.bindings]; exact bound, own, kept.live _ ?_ live⟩
  intro taken
  exact spared _ taken
    ⟨agentId, row, version, key, binding, present, active, published, member, bound, own, rfl⟩

/-- A catalog operation keeps every manifest, and so every active instance ready. -/
theorem ActiveReady.of_catalog {store : Store} {operation : CatalogOperation}
    {catalog : Nexora.Catalog} (ready : ActiveReady store)
    (ok : operation.run store.catalog = .ok catalog) :
    ActiveReady { store with catalog := catalog } := by
  intro agentId row present active
  obtain ⟨version, published, connected⟩ := ready agentId row present active
  obtain ⟨later, kept, same⟩ := manifest_stable ok published
  refine ⟨later, kept, ?_⟩
  intro key member
  exact connected key (same ▸ member)

end Frames

section Instances

variable {deployment : Deployment} {store next : Store} {principal : Principal}
  {workspaceId agentId target : Uuid} {now : Instant} {eventId : Uuid} {key : String}

/-- An instance an operation found is its workspace's. -/
theorem instanceRow_ok (ok : instanceRow store workspaceId agentId = .ok row) :
    store.tenantAgents.find? agentId = some row ∧ row.workspaceId = workspaceId := by
  simp only [instanceRow, found_eq_ok, Option.bind_eq_bind, Option.bind_eq_some_iff,
    Option.guard_eq_some', Option.pure_def, Option.some.injEq] at ok
  obtain ⟨_, present, _, own, _, _, _, _, rfl⟩ := ok
  exact ⟨present, own⟩

/-- Moving an instance's pin and settling it leaves it ready when it is active. -/
theorem repin_settle_ready {fromVersionId : Uuid} {action : VersionAction} {moved : Store}
    (ready : AgentReady store agentId) (published : manifest store target = .ok required)
    (move : repin store principal workspaceId agentId fromVersionId target action eventId now =
      .ok moved) :
    AgentReady (settleStatus moved workspaceId agentId required now) agentId := by
  obtain ⟨_, rfl⟩ := repin_ok move
  cases present : store.tenantAgents.find? agentId with
  | none =>
    intro row found
    simp [settleStatus, present] at found
  | some row =>
    by_cases own : row.workspaceId = workspaceId
    · exact settleStatus_ready { row with versionId := target, updatedAt := now }
        (by simp [present, own]) own published
    · -- The instance is another workspace's: neither statement touches it.
      intro later found active
      have same : row = later := by simpa [settleStatus, present, own] using found
      subst same
      exact ready row present active

theorem install_ready {body : InstallInput}
    (ok : install deployment store principal workspaceId body agentId eventId now = .ok next) :
    AgentReady next agentId := by
  simp only [install, bind_eq_ok, inserted_eq_ok, Table.insert?_eq_some, pure_eq_ok] at ok
  obtain ⟨_, _, agent, _, offered, _, required, published, _, _, _, _, inserted, ⟨_, rfl⟩, bound,
    writes, recorded, event, rfl⟩ := ok
  -- Writing bindings and recording the event leave the inserted row and the catalog alone.
  have kept : ∃ row, bound.tenantAgents.find? agentId = some row ∧
      row.workspaceId = workspaceId ∧ row.versionId = offered.1 ∧
      bound.catalog = store.catalog := by
    refine foldlM_invariant (fun current => ∃ row,
      current.tenantAgents.find? agentId = some row ∧ row.workspaceId = workspaceId ∧
        row.versionId = offered.1 ∧ current.catalog = store.catalog) ?_ ?_ writes
    · rintro current entry _ later ⟨row, present, own, pinned, catalog⟩ write
      rw [writeBinding_ok write]
      exact ⟨row, present, own, pinned, catalog⟩
    · exact ⟨_, Table.find?_put _ _ _, rfl, rfl, rfl⟩
  obtain ⟨row, present, own, pinned, catalog⟩ := kept
  obtain ⟨_, rfl⟩ := recordVersion_ok event
  refine settleStatus_ready row present own ?_
  rw [pinned]
  unfold manifest at published ⊢
  rw [catalog]
  exact published

theorem setBinding_ready {integrationId : Uuid}
    (ok : setBinding store principal workspaceId agentId key integrationId now = .ok next) :
    AgentReady next agentId := by
  simp only [setBinding, bind_eq_ok, pure_eq_ok] at ok
  obtain ⟨_, _, row, found, required, published, bound, write, rfl⟩ := ok
  obtain ⟨present, own⟩ := instanceRow_ok found
  obtain rfl := writeBinding_ok write
  exact settleStatus_ready row present own published

/-- Removing a binding changes neither instances nor the catalog. -/
theorem eraseBinding_eq (store : Store) (workspaceId agentId : Uuid) (key : String) :
    ∃ bindings, eraseBinding store workspaceId agentId key =
      { store with bindings := bindings } := by
  unfold eraseBinding
  cases store.bindings.find? (agentId, key) with
  | none => exact ⟨store.bindings, rfl⟩
  | some binding =>
    by_cases own : binding.workspaceId = workspaceId
    · exact ⟨_, if_pos own⟩
    · exact ⟨store.bindings, if_neg own⟩

theorem clearBinding_ready
    (ok : clearBinding store principal workspaceId agentId key now = .ok next) :
    AgentReady next agentId := by
  simp only [clearBinding, bind_eq_ok, pure_eq_ok] at ok
  obtain ⟨_, _, row, found, required, published, rfl⟩ := ok
  obtain ⟨present, own⟩ := instanceRow_ok found
  obtain ⟨bindings, erased⟩ := eraseBinding_eq store workspaceId agentId key
  rw [erased]
  exact settleStatus_ready row present own published

/-- An update that asks for an active instance is refused unless it is ready. -/
theorem updateAgentInstance_ready {body : TenantAgentUpdate} (ready : AgentReady store agentId)
    (ok : updateAgentInstance store principal workspaceId agentId body now = .ok next) :
    AgentReady next agentId := by
  simp only [updateAgentInstance, bind_eq_ok, raiseIf_eq_ok, pure_eq_ok] at ok
  obtain ⟨_, _, row, found, required, published, _, accepted, _, _, rfl⟩ := ok
  obtain ⟨present, own⟩ := instanceRow_ok found
  intro changed stored active
  simp only [Table.find?_put, Option.some.injEq] at stored
  subst stored
  show ReadyAt store row.workspaceId agentId row.versionId
  cases asked : body.status with
  | none =>
    rw [asked] at active
    exact ready row present active
  | some status =>
    rw [asked] at active accepted
    cases status with
    | active => simpa [readyAt_iff published, own] using accepted
    | paused => cases active
    | disabled => cases active

theorem uninstall_ready
    (ok : uninstall store principal workspaceId agentId now = .ok next) :
    AgentReady next agentId := by
  simp only [uninstall, bind_eq_ok, pure_eq_ok] at ok
  obtain ⟨_, _, row, found, rfl⟩ := ok
  intro later stored active
  simp only [Table.find?_modify_self, (instanceRow_ok found).1, Option.map_some,
    Option.some.injEq] at stored
  subst stored
  cases active

theorem moveVersion_ready {version : Option Version} (ready : AgentReady store agentId)
    (ok : moveVersion deployment store principal workspaceId agentId version eventId now =
      .ok next) : AgentReady next agentId := by
  simp only [moveVersion, bind_eq_ok] at ok
  obtain ⟨_, _, row, _, target, _, ok⟩ := ok
  split at ok
  · rw [pure_eq_ok] at ok
    exact ok ▸ ready
  · simp only [bind_eq_ok, pure_eq_ok] at ok
    obtain ⟨required, published, _, _, moved, move, rfl⟩ := ok
    exact repin_settle_ready ready published move

theorem rollbackVersion_ready (ready : AgentReady store agentId)
    (ok : rollbackVersion store principal workspaceId agentId eventId now = .ok next) :
    AgentReady next agentId := by
  simp only [rollbackVersion, bind_eq_ok, pure_eq_ok] at ok
  obtain ⟨_, _, _, _, target, _, required, published, moved, move, rfl⟩ := ok
  exact repin_settle_ready ready published move

/-- An automatic target comes with the manifest of its version. -/
theorem automaticTarget_manifest {number : Version}
    (ok : automaticTarget deployment store row = .ok (some (target, number, required))) :
    manifest store target = .ok required := by
  unfold automaticTarget at ok
  split at ok
  · cases ok
  · split at ok
    · cases ok
    · simp only [bind_eq_ok] at ok
      obtain ⟨offered, published, ok⟩ := ok
      split at ok
      · cases ok
      · simp only [pure_eq_ok, Option.some.injEq, Prod.mk.injEq] at ok
        obtain ⟨rfl, rfl, rfl⟩ := ok
        exact published

theorem automaticUpdate_ready (ready : AgentReady store agentId)
    (ok : automaticUpdate deployment store agentId row eventId now = .ok next) :
    AgentReady next agentId := by
  obtain rfl | ⟨_, _, _, _, _, offered, move, rfl⟩ := automaticUpdate_ok ok
  · exact ready
  · exact repin_settle_ready ready (automaticTarget_manifest offered) move

/-- A batch of automatic updates settles every instance it moves. -/
theorem applyAutomaticUpdates_ready {limit : Nat} {cursor : Option Uuid} {locked : List Uuid}
    {eventId : Uuid → Uuid} (ready : ActiveReady store)
    (ok : applyAutomaticUpdates deployment store limit cursor locked eventId now = .ok next) :
    ActiveReady next := by
  simp only [applyAutomaticUpdates, bind_eq_ok] at ok
  obtain ⟨_, _, updates⟩ := ok
  refine foldlM_invariant ActiveReady ?_ ready updates
  intro current entry _ later holds update
  exact holds.of_othersKept (automaticUpdate_othersKept update)
    (automaticUpdate_ready (holds entry.1) update)

end Instances

section Runs

variable {deployment : Deployment} {store next : Store}

/-- An operation spares the connections active instances require: it neither disables
one of them nor records a failed probe of one. -/
def SparesRequired (deployment : Deployment) (store : Store) : Operation → Prop
  | .updateIntegration _ _ integrationId body _ =>
    body.enabled = some false → ¬ RequiredByActive store integrationId
  | .testIntegration cached _ workspaceId integrationId _ probe _ _ _ =>
    ProbeFails deployment store cached workspaceId integrationId probe →
      ¬ RequiredByActive store integrationId
  | _ => True

/-- Every operation that spares required connections keeps active instances ready. -/
theorem run_ready (operation : Operation) (ready : ActiveReady store)
    (ok : run deployment store operation = .ok next)
    (spares : SparesRequired deployment store operation) : ActiveReady next := by
  have vault : ∀ {after : Store}, VaultKept none store after → ActiveReady after :=
    fun kept => ready.of_vaultKept kept (fun _ impossible => by cases impossible)
  cases operation with
  | setMember principal workspaceId subject role =>
    simp only [run, bind_eq_ok, pure_eq_ok] at ok
    obtain ⟨_, _, rfl⟩ := ok
    exact vault (.of_eq rfl rfl rfl rfl)
  | catalog operation =>
    simp only [run, bind_eq_ok, pure_eq_ok] at ok
    obtain ⟨catalog, write, rfl⟩ := ok
    exact ready.of_catalog write
  | publishDefinition definitionId manifest => exact vault (publishDefinition_kept ok)
  | connect cached principal workspaceId body integrationId credentialId now =>
    exact vault (connect_kept ok).1
  | updateIntegration principal workspaceId integrationId body now =>
    refine ready.of_vaultKept (updateIntegration_kept ok).1 ?_
    intro lost named
    by_cases disables : body.enabled = some false
    · rw [if_pos disables, Option.some.injEq] at named
      exact named ▸ spares disables
    · rw [if_neg disables] at named
      cases named
  | rotate cached principal workspaceId integrationId credentials credentialId now =>
    exact vault (rotate_kept ok).1
  | disconnect principal workspaceId integrationId =>
    obtain ⟨⟨kept, _⟩, unbound⟩ := disconnect_kept ok
    refine ready.of_vaultKept kept ?_
    rintro lost named ⟨agentId, _, _, key, binding, _, _, _, _, bound, _, target⟩
    rw [Option.some.injEq] at named
    exact unbound (agentId, key) binding bound (target.trans named)
  | testIntegration cached principal workspaceId integrationId exchange probe credentialId clock
      now =>
      simp only [run, bind_eq_ok, pure_eq_ok] at ok
      obtain ⟨⟨report, after⟩, test, rfl⟩ := ok
      by_cases fails : ProbeFails deployment store cached workspaceId integrationId probe
      · refine ready.of_vaultKept
          (testIntegration_kept (some integrationId) test fun spared => absurd rfl spared).1
          ?_
        intro lost named
        rw [Option.some.injEq] at named
        exact named ▸ spares fails
      · exact vault (testIntegration_kept none test fun _ => fails).1
  | refreshForCall cached workspaceId integrationId exchange credentialId clock now =>
    exact vault (refreshForCall_kept ok).1
  | startOAuth cached principal workspaceId body integrationId stateDigest clock now =>
    exact vault (startOAuth_kept ok).1
  | completeOAuth cached principal workspaceId stateDigest exchange credentialId clock now =>
    exact vault (completeOAuth_kept ok).1
  | install principal workspaceId body agentId eventId now =>
    exact ready.of_othersKept (install_othersKept ok) (install_ready ok)
  | setBinding principal workspaceId agentId key integrationId now =>
    exact ready.of_othersKept (setBinding_othersKept ok) (setBinding_ready ok)
  | clearBinding principal workspaceId agentId key now =>
    exact ready.of_othersKept (clearBinding_othersKept ok) (clearBinding_ready ok)
  | updateAgentInstance principal workspaceId agentId body now =>
    exact ready.of_othersKept (updateAgentInstance_othersKept ok)
      (updateAgentInstance_ready (ready agentId) ok)
  | uninstall principal workspaceId agentId now =>
    exact ready.of_othersKept (uninstall_othersKept ok) (uninstall_ready ok)
  | moveVersion principal workspaceId agentId version eventId now =>
    exact ready.of_othersKept (moveVersion_othersKept ok) (moveVersion_ready (ready agentId) ok)
  | rollbackVersion principal workspaceId agentId eventId now =>
    exact ready.of_othersKept (rollbackVersion_othersKept ok)
      (rollbackVersion_ready (ready agentId) ok)
  | setPolicy principal workspaceId channel mode =>
    simp only [run, setPolicy, bind_eq_ok, pure_eq_ok] at ok
    obtain ⟨_, _, rfl⟩ := ok
    exact vault (.of_eq rfl rfl rfl rfl)
  | applyAutomaticUpdates limit cursor locked eventId now =>
    exact applyAutomaticUpdates_ready ready ok

/-- In every run whose operations all spare the connections active instances require,
every active instance has each integration its pinned version requires bound to a
connected one. -/
theorem active_ready_while_spared (deployment : Deployment)
    (history : List (Transition Store Operation)) (state : Store)
    (runs : (machine deployment).Runs history state)
    (spared : ∀ transition ∈ history,
      SparesRequired deployment transition.before transition.label) : ActiveReady state := by
  refine runs.invariantWhile ActiveReady
    (fun transition => SparesRequired deployment transition.before transition.label) ?_ ?_ spared
  · intro start none agentId row present
    rw [none] at present
    simp at present
  · intro before operation after holds step spares
    exact run_ready operation holds step spares

end Runs

/-- A deployment with secret storage and without OAuth clients. -/
def exampleDeployment : Deployment where
  library := exampleLibrary
  sha256 := fun _ => 0
  vaultAvailable := true
  oauthClients := []
  runtimeVersion := ⟨1, 0, 0⟩

/-- A manifest that requires WordPress. -/
def contentManifest : AgentManifest where
  slug := "content"
  version := ⟨1, 0, 0⟩
  minRuntimeVersion := ⟨1, 0, 0⟩
  status := .stable
  channel := .stable
  changelog := ""
  requiredIntegrations := ["wordpress"]
  optionalIntegrations := []
  requiredDistinct := by simp
  optionalDistinct := List.nodup_nil
  neverBoth := by simp

/-- A catalog with one stable release of that manifest. -/
def contentCatalog : Nexora.Catalog where
  tables :=
    { workspaces := [7]
      agents := Table.ofList [(1,
        { slug := "content", name := "Content", description := "Writes", category := "marketing",
          icon := "pen", status := .stable, visibility := .publicly, createdAt := 0,
          updatedAt := 0 })]
      versions := Table.ofList [(2,
        { catalogAgentId := 1, version := ⟨1, 0, 0⟩, status := .stable, channel := .stable,
          manifest := contentManifest, minRuntimeVersion := ⟨1, 0, 0⟩, changelog := "",
          createdAt := 0 })]
      entitlements := Table.empty
      rollouts := Table.empty }
  consistent := by decide

/-- The owner of workspace 7. -/
def owner : Principal := ⟨"nexora", "owner"⟩

/-- A workspace with an owner, before anything is connected or installed. -/
def freshStore : Store where
  memberships := Table.ofList [((7, owner), .owner)]
  catalog := contentCatalog
  definitions := Table.ofList [("wordpress", wordpress)]
  integrations := Table.empty
  credentials := Table.empty
  oauthStates := Table.empty
  updatePolicies := Table.empty
  tenantAgents := Table.empty
  bindings := Table.empty
  versionEvents := Table.empty

/-- Connect WordPress as connection 20. -/
def connectWordpress : Operation :=
  .connect none owner 7
    { integrationDefinitionId := "wordpress", displayName := "Site", accountIdentifier := "site",
      credentials := wordpressSubmission } 20 21 1

/-- Install the content agent as instance 30, bound to connection 20. -/
def installContent : Operation :=
  .install owner 7
    { slug := "content", displayName := none, updateChannel := none, updateMode := none,
      bindings := ⟨[("wordpress", 20)], by decide⟩, bounded := by decide } 30 31 2

/-- Disable connection 20. -/
def disableWordpress : Operation :=
  .updateIntegration owner 7 20 { displayName := none, enabled := some false } 3

/-- `active_ready_while_spared` applies to connecting and installing, which ends with an
active instance. -/
theorem active_ready_while_spared_installed :
    ∃ history state, (machine exampleDeployment).Runs history state ∧
      history.map Transition.label = [connectWordpress, installContent] ∧
      (state.tenantAgents.find? 30).map TenantAgentRow.standing = some .active ∧
      ActiveReady state := by
  obtain ⟨history, state, runs, labels, active⟩ := exists_run exampleDeployment
    [connectWordpress, installContent] freshStore
    (fun state => (state.tenantAgents.find? 30).map TenantAgentRow.standing = some .active)
    rfl (by decide +kernel)
  refine ⟨history, state, runs, labels, of_decide_eq_true active,
    active_ready_while_spared exampleDeployment history state runs ?_⟩
  intro transition member
  have listed : transition.label ∈ [connectWordpress, installContent] :=
    labels ▸ List.mem_map_of_mem member
  simp only [List.mem_cons, List.not_mem_nil, or_false] at listed
  obtain connecting | installing := listed
  · rw [connecting]
    trivial
  · rw [installing]
    trivial

/-- Disabling the connection of an active instance leaves the instance active. -/
theorem disabled_connection_leaves_active :
    ¬ ∀ (deployment : Deployment) (history : List (Transition Store Operation)) (state : Store),
      (machine deployment).Runs history state → ActiveReady state := by
  intro always
  obtain ⟨history, state, runs, _, reached⟩ := exists_run exampleDeployment
    [connectWordpress, installContent, disableWordpress] freshStore
    (fun state =>
      (state.tenantAgents.find? 30).map TenantAgentRow.standing = some .active ∧
        (state.tenantAgents.find? 30).map TenantAgentRow.versionId = some 2 ∧
        (state.catalog.tables.versions.find? 2).map VersionRow.manifest = some contentManifest ∧
        (state.bindings.find? (30, "wordpress")).map BindingRow.tenantIntegrationId = some 20 ∧
        (state.integrations.find? 20).map IntegrationRow.status = some .disabled)
    rfl (by decide +kernel)
  simp only [decide_eq_true_eq, Option.map_eq_some_iff] at reached
  obtain ⟨⟨row, present, active⟩, ⟨_, again, pinned⟩, ⟨version, published, required⟩,
    ⟨binding, bound, target⟩, ⟨integration, stored, disabled⟩⟩ := reached
  cases present.symm.trans again
  obtain ⟨_, found, connected⟩ :=
    always exampleDeployment history state runs 30 row present active
  rw [pinned] at found
  cases published.symm.trans found
  obtain ⟨_, rebound, _, _, live, status⟩ := connected "wordpress" (by rw [required]; decide)
  cases bound.symm.trans rebound
  rw [target] at live
  cases stored.symm.trans live
  rw [disabled] at status
  cases status

end Nexora.Tenant
