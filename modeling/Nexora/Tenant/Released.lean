import Nexora.Catalog.Offer
import Nexora.Tenant.Rollback

/-!
# What pins move to

Which version each operation pins an instance to, and when that version is one a tenant may
run: neither a draft nor disabled, and served by the deployment's runtime. Every operation
that resolves a target checks the runtime, and a rollback returns to a version that was once
checked. The status is checked of a version asked for by number and of the newest released
one; it is not checked of a version a rollout includes the workspace in, nor of the one a
rollback returns to.
-/

namespace Nexora.Tenant

open Nexora.Std Nexora.Catalog Nexora.Integration Nexora.Workspace

/-- The statuses no tenant may run. -/
def withdrawnStatuses : List AgentStatus := [.draft, .disabled]

/-- A version this deployment's runtime serves. -/
def Served (deployment : Deployment) (store : Store) (versionId : Uuid) : Prop :=
  ∃ version, store.catalog.tables.versions.find? versionId = some version ∧
    deployment.runtimeVersion.satisfiesMinimum version.manifest.minRuntimeVersion = true

/-- A version that is neither a draft nor disabled. -/
def InService (store : Store) (versionId : Uuid) : Prop :=
  ∀ version, store.catalog.tables.versions.find? versionId = some version →
    version.status ∉ withdrawnStatuses

/-- An instance was pinned to a version it was not pinned to. -/
def WritesPin (before after : Store) (agentId versionId : Uuid) : Prop :=
  (after.tenantAgents.find? agentId).map TenantAgentRow.versionId = some versionId ∧
    (before.tenantAgents.find? agentId).map TenantAgentRow.versionId ≠ some versionId

/-- The version an operation pins an instance to, and what it checked of it. -/
inductive Wrote (deployment : Deployment) (store : Store) : Operation → Uuid → Uuid → Prop where
  | installed {principal workspaceId body agentId eventId now agent versionId number}
      (entitled : entitledAgent store workspaceId body.slug = .ok agent)
      (offered : offeredVersion deployment.sha256 store.catalog.tables agent.1 workspaceId
        (body.updateChannel.getD (policyChannel store workspaceId)) = some (versionId, number))
      (served : Served deployment store versionId) :
      Wrote deployment store (.install principal workspaceId body agentId eventId now) agentId
        versionId
  | moved {principal workspaceId agentId version eventId now row versionId}
      (stored : store.tenantAgents.find? agentId = some row)
      (target : moveTarget deployment store row version = .ok versionId)
      (distinct : versionId ≠ row.versionId) (served : Served deployment store versionId) :
      Wrote deployment store (.moveVersion principal workspaceId agentId version eventId now)
        agentId versionId
  | rolledBack {principal workspaceId agentId eventId now moveId move versionId}
      (latest : LatestMove store workspaceId agentId moveId move)
      (left : move.fromVersionId = some versionId) :
      Wrote deployment store (.rollbackVersion principal workspaceId agentId eventId now) agentId
        versionId
  | swept {limit cursor locked eventId now agentId row versionId number}
      (member : (agentId, row) ∈ automaticBatch store limit cursor locked)
      (offered : offeredVersion deployment.sha256 store.catalog.tables row.catalogAgentId
        row.workspaceId row.updateChannel = some (versionId, number))
      (distinct : versionId ≠ row.versionId) (served : Served deployment store versionId) :
      Wrote deployment store (.applyAutomaticUpdates limit cursor locked eventId now) agentId
        versionId

section Writes

variable {deployment : Deployment} {store next : Store}
  {agentId versionId instanceId eventId : Uuid} {operation : Operation} {principal : Principal}
  {now : Instant}

/-- A manifest the runtime check accepted is that of a served version. -/
theorem Served.of_manifest {required : AgentManifest}
    (published : manifest store versionId = .ok required)
    (served : deployment.runtimeVersion.satisfiesMinimum required.minRuntimeVersion = true) :
    Served deployment store versionId := by
  obtain ⟨version, stored, rfl⟩ := (manifest_eq_ok store versionId required).mp published
  exact ⟨version, stored, served⟩

/-- An instance that is not touched is pinned to nothing new. -/
theorem PinKept.writes_nothing (kept : PinKept agentId store next) :
    ¬ WritesPin store next agentId versionId := by
  rintro ⟨after, before⟩
  rw [kept.row] at after
  exact before after

/-- The pin a moved instance is given. -/
theorem writesPin_iff_of_stored {row later : TenantAgentRow}
    (stored : store.tenantAgents.find? agentId = some row)
    (taken : next.tenantAgents.find? agentId = some later) (distinct : later.versionId ≠ row.versionId) :
    WritesPin store next agentId versionId ↔ versionId = later.versionId := by
  unfold WritesPin
  rw [stored, taken]
  constructor
  · rintro ⟨same, _⟩
    exact (Option.some.inj same).symm
  · rintro rfl
    refine ⟨rfl, fun same => distinct (Option.some.inj same).symm⟩

theorem moveVersion_wrote {workspaceId : Uuid} {version : Option Version}
    (ok : moveVersion deployment store principal workspaceId instanceId version eventId now =
      .ok next) :
    WritesPin store next agentId versionId ↔ Wrote deployment store
      (.moveVersion principal workspaceId instanceId version eventId now) agentId versionId := by
  have moves := moveVersion_moves ok
  simp only [moveVersion, bind_eq_ok] at ok
  obtain ⟨_, _, row, known, target, reached, ok⟩ := ok
  obtain ⟨stored, own⟩ := instanceRow_ok known
  by_cases pinned : target = row.versionId
  · rw [if_pos pinned, pure_eq_ok] at ok
    subst ok
    constructor
    · intro writes
      exact absurd writes (PinKept.refl agentId store).writes_nothing
    · rintro (_ | ⟨present, chosen, distinct, _⟩)
      have same := stored.symm.trans present
      cases same
      rw [reached] at chosen
      exact absurd (Except.ok.inj chosen ▸ pinned) distinct
  · rw [if_neg pinned] at ok
    simp only [bind_eq_ok, raiseIf_eq_ok, Bool.not_eq_false, pure_eq_ok] at ok
    obtain ⟨required, published, _, served, moved, move, rfl⟩ := ok
    obtain ⟨pins, _, later, taken, _, rfl⟩ :=
      repin_settle_pinsMoved required stored own pinned move
    by_cases same : agentId = instanceId
    · subst same
      rw [writesPin_iff_of_stored stored taken pinned]
      constructor
      · rintro rfl
        exact .moved stored reached pinned (.of_manifest published served)
      · rintro (_ | ⟨present, chosen, _, _⟩)
        have same := stored.symm.trans present
        cases same
        rw [reached] at chosen
        exact (Except.ok.inj chosen).symm
    · constructor
      · intro writes
        exact absurd writes (pins.untouched agentId same).writes_nothing
      · intro wrote
        cases wrote
        exact absurd rfl same

theorem rollbackVersion_wrote {workspaceId : Uuid}
    (ok : rollbackVersion store principal workspaceId instanceId eventId now = .ok next) :
    WritesPin store next agentId versionId ↔ Wrote deployment store
      (.rollbackVersion principal workspaceId instanceId eventId now) agentId versionId := by
  obtain ⟨row, later, moveId, move, stored, _, latest, left, made⟩ := rollbackVersion_pins ok
  by_cases same : agentId = instanceId
  · subst same
    rw [writesPin_iff_of_stored stored made.taken made.distinct]
    constructor
    · rintro rfl
      exact .rolledBack latest left
    · rintro (_ | _ | ⟨otherLatest, otherLeft⟩)
      obtain ⟨rfl, rfl⟩ := latest.unique otherLatest
      rw [left] at otherLeft
      exact (Option.some.inj otherLeft).symm
  · constructor
    · intro writes
      exact absurd writes ((rollbackVersion_moves ok).1.untouched agentId same).writes_nothing
    · intro wrote
      cases wrote
      exact absurd rfl same

theorem install_wrote {workspaceId : Uuid} {body : InstallInput}
    (ok : install deployment store principal workspaceId body instanceId eventId now = .ok next) :
    WritesPin store next agentId versionId ↔ Wrote deployment store
      (.install principal workspaceId body instanceId eventId now) agentId versionId := by
  obtain ⟨agent, offered, required, entitled, isOffered, published, served, absent, pins, _⟩ :=
    install_pins ok
  unfold WritesPin
  rw [pins]
  by_cases same : agentId = instanceId
  · rw [if_pos same]
    subst same
    rw [absent]
    constructor
    · rintro ⟨pinned, _⟩
      cases pinned
      exact .installed entitled isOffered (.of_manifest published served)
    · rintro (⟨entitledAgain, offeredAgain, _⟩)
      rw [entitled] at entitledAgain
      cases entitledAgain
      rw [isOffered] at offeredAgain
      cases offeredAgain
      exact ⟨rfl, by simp⟩
  · rw [if_neg same]
    constructor
    · rintro ⟨pinned, unpinned⟩
      exact absurd pinned unpinned
    · intro wrote
      cases wrote
      exact absurd rfl same

theorem applyAutomaticUpdates_wrote {limit : Nat} {cursor : Option Uuid} {locked : List Uuid}
    {eventId : Uuid → Uuid}
    (ok : applyAutomaticUpdates deployment store limit cursor locked eventId now = .ok next) :
    WritesPin store next agentId versionId ↔ Wrote deployment store
      (.applyAutomaticUpdates limit cursor locked eventId now) agentId versionId := by
  constructor
  · intro writes
    have batched : agentId ∈ (automaticBatch store limit cursor locked).map Prod.fst := by
      by_contra spared
      exact ((applyAutomaticUpdates_moves ok).untouched agentId spared).writes_nothing writes
    obtain ⟨⟨_, row⟩, member, rfl⟩ := List.mem_map.mp batched
    have stored := mem_automaticBatch member
    cases applyAutomaticUpdates_updated ok _ member with
    | idle _ stays => exact absurd (stored ▸ stays ▸ writes.1) writes.2
    | moved reached taken _ version =>
      obtain ⟨offered, distinct, published, served⟩ := automaticTarget_eq_some reached
      have pinned := writes.1
      rw [taken, Option.map_some, version] at pinned
      cases pinned
      exact .swept member offered distinct (.of_manifest published served)
  · rintro (_ | _ | _ | @⟨_, _, _, _, _, _, row, _, number, member, offered, distinct, served⟩)
    have stored := mem_automaticBatch member
    obtain ⟨version, published, serves⟩ := served
    have target : automaticTarget deployment store row =
        .ok (some (versionId, number, version.manifest)) := by
      have required : manifest store versionId = .ok version.manifest :=
        (manifest_eq_ok _ _ _).mpr ⟨version, published, rfl⟩
      unfold automaticTarget
      rw [offered]
      simp only [if_neg distinct, required, bind_eq_ok]
      exact ⟨version.manifest, rfl, by rw [if_neg (by simp [serves])]; rfl⟩
    cases applyAutomaticUpdates_updated ok _ member with
    | idle none _ =>
      rw [target] at none
      cases none
    | moved reached taken _ pinned =>
      rw [target] at reached
      cases reached
      rw [writesPin_iff_of_stored stored taken (pinned ▸ distinct), pinned]

/-- The pins an operation writes are those it resolved. -/
theorem run_wrote (ok : run deployment store operation = .ok next) :
    WritesPin store next agentId versionId ↔
      Wrote deployment store operation agentId versionId := by
  by_cases writes : operation.writesPins = false
  · have stands := run_pinsStand writes ok
    constructor
    · rintro ⟨after, before⟩
      rw [stands.pins] at after
      exact absurd after before
    · intro wrote
      cases wrote <;> cases writes
  cases operation with
  | setMember | catalog | publishDefinition | connect | updateIntegration | rotate | disconnect
  | testIntegration | refreshForCall | startOAuth | completeOAuth | setBinding | clearBinding
  | updateAgentInstance | uninstall | setPolicy => exact absurd rfl writes
  | install => exact install_wrote ok
  | moveVersion => exact moveVersion_wrote ok
  | rollbackVersion => exact rollbackVersion_wrote ok
  | applyAutomaticUpdates => exact applyAutomaticUpdates_wrote ok

/-- Only the catalog's own operations change the catalog. -/
theorem run_catalog (spares : ∀ change, operation ≠ .catalog change)
    (ok : run deployment store operation = .ok next) : next.catalog = store.catalog := by
  by_cases instances : operation.sparesInstances = true
  · obtain ⟨⟨_, kept⟩, _⟩ := run_sparesInstances instances ok
    exact kept.catalog
  cases operation with
  | setMember | publishDefinition | connect | updateIntegration | rotate | disconnect
  | testIntegration | refreshForCall | startOAuth | completeOAuth | setPolicy =>
    exact absurd rfl instances
  | catalog change => exact absurd rfl (spares change)
  | install => exact (install_othersKept ok).catalog
  | setBinding => exact (setBinding_othersKept ok).catalog
  | clearBinding => exact (clearBinding_othersKept ok).catalog
  | updateAgentInstance => exact (updateAgentInstance_othersKept ok).catalog
  | uninstall => exact (uninstall_othersKept ok).catalog
  | moveVersion => exact (moveVersion_othersKept ok).catalog
  | rollbackVersion => exact (rollbackVersion_othersKept ok).catalog
  | applyAutomaticUpdates => exact (applyAutomaticUpdates_moves ok).catalog

/-- A version the runtime serves is served ever after: its manifest never changes. -/
theorem Served.step (served : Served deployment store versionId)
    (ok : run deployment store operation = .ok next) : Served deployment next versionId := by
  obtain ⟨version, stored, serves⟩ := served
  by_cases isCatalog : ∃ change, operation = .catalog change
  · obtain ⟨change, rfl⟩ := isCatalog
    simp only [run, bind_eq_ok, pure_eq_ok] at ok
    obtain ⟨catalog, changed, rfl⟩ := ok
    obtain ⟨later, kept, same⟩ := manifest_stable changed stored
    exact ⟨later, kept, same ▸ serves⟩
  · have same := run_catalog (fun change isChange => isCatalog ⟨change, isChange⟩) ok
    exact ⟨version, same ▸ stored, serves⟩

/-- The runtime serves every pinned version and every version a move left. -/
structure PinsServed (deployment : Deployment) (store : Store) : Prop where
  pins : ∀ agentId row, store.tenantAgents.find? agentId = some row →
    Served deployment store row.versionId
  left : ∀ eventId event versionId, store.versionEvents.find? eventId = some event →
    event.fromVersionId = some versionId → Served deployment store versionId

/-- What an operation pins an instance to is served. -/
theorem Wrote.served (holds : PinsServed deployment store)
    (wrote : Wrote deployment store operation agentId versionId) :
    Served deployment store versionId := by
  cases wrote with
  | installed _ _ served => exact served
  | moved _ _ _ served => exact served
  | rolledBack latest left => exact holds.left _ _ _ latest.stored left
  | swept _ _ _ served => exact served

theorem PinsServed.step (holds : PinsServed deployment store)
    (ok : run deployment store operation = .ok next) : PinsServed deployment next where
  pins agentId row stored := by
    by_cases writes : WritesPin store next agentId row.versionId
    · exact (((run_wrote ok).mp writes).served holds).step ok
    · -- The pin is the one the instance had.
      have pinned : (next.tenantAgents.find? agentId).map TenantAgentRow.versionId =
          some row.versionId := by rw [stored, Option.map_some]
      have before : (store.tenantAgents.find? agentId).map TenantAgentRow.versionId =
          some row.versionId := by
        by_contra unpinned
        exact writes ⟨pinned, unpinned⟩
      obtain ⟨earlier, present, same⟩ := Option.map_eq_some_iff.mp before
      rw [← same]
      exact (holds.pins agentId earlier present).step ok
  left eventId event versionId stored left := by
    cases earlier : store.versionEvents.find? eventId with
    | some before =>
      have same := (run_records ok earlier).symm.trans stored
      cases same
      exact (holds.left eventId _ versionId earlier left).step ok
    | none =>
      rcases run_appends ok ⟨earlier, stored, rfl⟩ with ⟨row, later, made⟩ | starts
      · rw [made.left] at left
        cases left
        exact (holds.pins _ row made.stored).step ok
      · rw [starts] at left
        cases left

/-- After every run the runtime serves every pinned version and every version a move left. -/
theorem pins_served {history : List (Transition Store Operation)} {state : Store}
    (runs : (pinMachine deployment).Runs history state) : PinsServed deployment state := by
  refine runs.invariant (PinsServed deployment) ?_ fun _ _ _ holds ok => holds.step ok
  rintro state ⟨agents, events⟩
  constructor
  · intro agentId row stored
    rw [agents] at stored
    cases stored
  · intro eventId event versionId stored
    rw [events] at stored
    cases stored

end Writes

/-- The newest version a rollout includes a workspace in, which no tenant may run. -/
def StagesWithdrawn (deployment : Deployment) (store : Store) (catalogAgentId workspaceId : Uuid)
    (channel : Channel) (versionId : Uuid) : Prop :=
  Newest store.catalog.tables.versions
      (Included store.catalog.tables catalogAgentId channel
        (rolloutBucket deployment.sha256 catalogAgentId workspaceId)) versionId ∧
    ¬ InService store versionId

/-- The store before an operation keeps it from pinning a version no tenant may run: no
rollout stages such a version for an instance the operation pins to its offer, and the latest
move left no such version. -/
def SparesWithdrawn (deployment : Deployment) (store : Store) : Operation → Prop
  | .install _ workspaceId body _ _ _ =>
    ∀ agent, entitledAgent store workspaceId body.slug = .ok agent →
      ∀ versionId, ¬ StagesWithdrawn deployment store agent.1 workspaceId
        (body.updateChannel.getD (policyChannel store workspaceId)) versionId
  | .moveVersion _ _ agentId none _ _ =>
    ∀ row, store.tenantAgents.find? agentId = some row →
      ∀ versionId, StagesWithdrawn deployment store row.catalogAgentId row.workspaceId
        row.updateChannel versionId → versionId = row.versionId
  | .rollbackVersion _ workspaceId agentId _ _ =>
    ∀ moveId move, LatestMove store workspaceId agentId moveId move →
      ∀ versionId, move.fromVersionId = some versionId → InService store versionId
  | .applyAutomaticUpdates limit cursor locked _ _ =>
    ∀ agentId row, (agentId, row) ∈ automaticBatch store limit cursor locked →
      ∀ versionId, StagesWithdrawn deployment store row.catalogAgentId row.workspaceId
        row.updateChannel versionId → Served deployment store versionId →
          versionId = row.versionId
  | _ => True

section Status

variable {deployment : Deployment} {store : Store} {catalogAgentId workspaceId versionId : Uuid}
  {channel : Channel}

/-- What a rollout stages for a workspace is what the workspace is offered. -/
theorem StagesWithdrawn.offered
    (stages : StagesWithdrawn deployment store catalogAgentId workspaceId channel versionId) :
    ∃ number, offeredVersion deployment.sha256 store.catalog.tables catalogAgentId workspaceId
      channel = some (versionId, number) := by
  have offers := (offeredVersion_eq_some deployment.sha256 store.catalog catalogAgentId workspaceId
    channel versionId).mpr (.inl stages.1)
  obtain ⟨⟨_, number⟩, offered, rfl⟩ := Option.map_eq_some_iff.mp offers
  exact ⟨number, offered⟩

/-- An offered version no tenant may run is one a rollout stages. -/
theorem stagesWithdrawn_of_offered {number : Version}
    (offered : offeredVersion deployment.sha256 store.catalog.tables catalogAgentId workspaceId
      channel = some (versionId, number)) (withdrawn : ¬ InService store versionId) :
    StagesWithdrawn deployment store catalogAgentId workspaceId channel versionId := by
  have offers := (offeredVersion_eq_some deployment.sha256 store.catalog catalogAgentId workspaceId
    channel versionId).mp (by rw [offered]; rfl)
  rcases offers with newest | ⟨_, ⟨⟨row, released⟩, _⟩, _⟩
  · exact ⟨newest, withdrawn⟩
  · refine absurd ?_ withdrawn
    intro version stored
    have same := released.stored.symm.trans stored
    cases same
    have offerable := released.offerable
    revert offerable
    cases row.status <;> decide

end Status

section Iff

variable {deployment : Deployment} {store next : Store}

/-- One operation pins only versions in service exactly when the store spares it others. -/
theorem inService_iff_sparesWithdrawn {operation : Operation}
    (ok : run deployment store operation = .ok next) :
    (∀ agentId versionId, Wrote deployment store operation agentId versionId →
      InService store versionId) ↔ SparesWithdrawn deployment store operation := by
  cases operation with
  | setMember | catalog | publishDefinition | connect | updateIntegration | rotate | disconnect
  | testIntegration | refreshForCall | startOAuth | completeOAuth | setBinding | clearBinding
  | updateAgentInstance | uninstall | setPolicy =>
    refine ⟨fun _ => trivial, ?_⟩
    rintro - agentId versionId (_ | _ | _ | _)
  | install principal workspaceId body instanceId eventId now =>
    constructor
    · intro holds agent entitled versionId stages
      obtain ⟨number, offered⟩ := stages.offered
      obtain ⟨known, isOffered, required, entitledAgain, offeredAgain, published, served, _⟩ :=
        install_pins ok
      rw [entitled] at entitledAgain
      cases entitledAgain
      rw [offered] at offeredAgain
      cases offeredAgain
      exact stages.2 (holds instanceId versionId
        (.installed entitled offered (.of_manifest published served)))
    · rintro spares agentId versionId (@⟨_, _, _, _, _, _, agent, _, _, entitled, offered, _⟩)
      by_contra withdrawn
      exact spares agent entitled versionId (stagesWithdrawn_of_offered offered withdrawn)
  | moveVersion principal workspaceId instanceId version eventId now =>
    cases version with
    | none =>
      constructor
      · intro holds row stored versionId stages
        obtain ⟨number, offered⟩ := stages.offered
        have reached : moveTarget deployment store row none = .ok versionId := by
          simp only [moveTarget, offered]
          rfl
        rcases moveVersion_moves ok with ⟨rfl, other, present, pinned⟩ | ⟨_, moved⟩
        · have same := stored.symm.trans present
          cases same
          rw [reached] at pinned
          exact Except.ok.inj pinned
        · obtain ⟨other, later, _, _, present, taken, _, distinct, _⟩ := moved
          have same := stored.symm.trans present
          cases same
          have writes := (writesPin_iff_of_stored present taken distinct).mpr rfl
          have wrote := (moveVersion_wrote ok).mp writes
          have inService := holds instanceId later.versionId wrote
          obtain _ | ⟨again, target, _, _⟩ := wrote
          have same := stored.symm.trans again
          cases same
          rw [reached] at target
          cases target
          exact absurd inService stages.2
      · rintro spares agentId versionId
          (_ | @⟨_, _, _, _, _, _, row, _, stored, target, distinct, _⟩)
        by_contra withdrawn
        simp only [moveTarget, bind_eq_ok, orRaise_eq_ok, pure_eq_ok] at target
        obtain ⟨⟨_, number⟩, offered, rfl⟩ := target
        exact distinct (spares row stored _ (stagesWithdrawn_of_offered offered withdrawn))
    | some number =>
      refine ⟨fun _ => trivial, ?_⟩
      rintro - agentId versionId
        (_ | @⟨_, _, _, _, _, _, row, _, stored, target, distinct, _⟩) known present
      simp only [moveTarget, bind_eq_ok, orRaise_eq_ok, raiseIf_eq_ok, pure_eq_ok] at target
      obtain ⟨⟨id, released⟩, listed, _, inService, rfl⟩ := target
      have member := List.mem_of_find?_eq_some listed
      simp only [agentVersions, Table.mem_select] at member
      have same := member.1.symm.trans present
      cases same
      exact inService
  | rollbackVersion principal workspaceId instanceId eventId now =>
    constructor
    · intro holds moveId move latest versionId left
      exact holds instanceId versionId (.rolledBack latest left)
    · rintro spares agentId versionId (_ | _ | ⟨latest, left⟩)
      exact spares _ _ latest versionId left
  | applyAutomaticUpdates limit cursor locked eventId now =>
    constructor
    · intro holds agentId row member versionId stages served
      by_contra distinct
      obtain ⟨number, offered⟩ := stages.offered
      exact stages.2 (holds agentId versionId (.swept member offered distinct served))
    · rintro spares agentId versionId
        (_ | _ | _ | @⟨_, _, _, _, _, _, row, _, number, member, offered, distinct, served⟩)
      by_contra withdrawn
      exact distinct (spares agentId row member versionId
        (stagesWithdrawn_of_offered offered withdrawn) served)

end Iff

/-- In every run an operation pins instances only to versions that the runtime serves and that
are neither drafts nor disabled, exactly when the store before it spares it others. -/
theorem pins_released_iff (deployment : Deployment)
    (history : List (Transition Store Operation)) (state : Store)
    (runs : (pinMachine deployment).Runs history state) :
    ∀ transition ∈ history,
      ((∀ agentId versionId, WritesPin transition.before transition.after agentId versionId →
          Served deployment transition.before versionId ∧
            InService transition.before versionId) ↔
        SparesWithdrawn deployment transition.before transition.label) := by
  intro transition member
  obtain ⟨earlier, later, splits⟩ := List.append_of_mem member
  obtain ⟨before, step, _⟩ := runs.split splits
  have ok : run deployment transition.before transition.label = .ok transition.after := step
  rw [← inService_iff_sparesWithdrawn ok]
  constructor
  · intro holds agentId versionId wrote
    exact (holds agentId versionId ((run_wrote ok).mpr wrote)).2
  · intro holds agentId versionId writes
    have wrote := (run_wrote ok).mp writes
    exact ⟨wrote.served (pins_served before), holds agentId versionId wrote⟩

/-- `pins_released_iff` applies to the run that moves the content agent to its newest version. -/
theorem pins_released_iff_moved : ∃ history,
    (pinMachine exampleDeployment).Runs history movedStore ∧
      ∀ transition ∈ history,
        ((∀ agentId versionId, WritesPin transition.before transition.after agentId versionId →
            Served exampleDeployment transition.before versionId ∧
              InService transition.before versionId) ↔
          SparesWithdrawn exampleDeployment transition.before transition.label) := by
  obtain ⟨history, runs⟩ := movedStore_reached
  exact ⟨history, runs, pins_released_iff exampleDeployment history movedStore runs⟩

/-- Disable version 1.0.0 of the content agent. -/
def disableFirst : Operation :=
  .catalog (.setVersionRelease "content" ⟨1, 0, 0⟩ ⟨some .disabled, none, by decide⟩)

/-- The store once the version that instance 30 moved from is disabled. -/
def withdrawnStore : Store :=
  (run exampleDeployment movedStore disableFirst).toOption.getD freshStore

/-- A rollback pins a version that was disabled in the meantime. -/
theorem rollback_pins_disabled :
    ¬ ∀ (deployment : Deployment) (history : List (Transition Store Operation)) (state : Store),
      (pinMachine deployment).Runs history state →
        ∀ transition ∈ history, ∀ agentId versionId,
          WritesPin transition.before transition.after agentId versionId →
            Served deployment transition.before versionId ∧
              InService transition.before versionId := by
  intro always
  obtain ⟨earlier, runs⟩ := movedStore_reached
  have disabling : run exampleDeployment movedStore disableFirst = .ok withdrawnStore :=
    eq_ok_getD _ freshStore (by decide +kernel)
  obtain ⟨final, rollback, pinned⟩ := exists_ok_of_check
    (run exampleDeployment withdrawnStore (.rollbackVersion owner 7 30 33 5))
    (fun final => (final.tenantAgents.find? 30).map TenantAgentRow.versionId = some 2 ∧
      (withdrawnStore.tenantAgents.find? 30).map TenantAgentRow.versionId ≠ some 2 ∧
      (withdrawnStore.catalog.tables.versions.find? 2).map VersionRow.status = some .disabled)
    (by decide +kernel)
  obtain ⟨after, before, disabled⟩ := of_decide_eq_true pinned
  obtain ⟨version, stored, status⟩ := Option.map_eq_some_iff.mp disabled
  have released := always exampleDeployment _ final (.step (.step runs disabling) rollback)
    ⟨withdrawnStore, .rollbackVersion owner 7 30 33 5, final⟩ (by simp) 30 2 ⟨after, before⟩
  have inService := released.2 version stored
  rw [status] at inService
  exact inService (by decide)

end Nexora.Tenant
