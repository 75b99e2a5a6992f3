import Nexora.Tenant.Readiness

/-!
# A person's pause

`updateAgentInstance` records a pause someone asks for in the status columns alone.
Settling spares a row paused that way while the instance is ready, and overwrites the
reason as soon as it is not; from then on nothing tells the pause from the platform's own.
-/

namespace Nexora.Tenant

open Nexora.Std Nexora.Catalog Nexora.Integration Nexora.Workspace

/-- A person paused the instance. -/
def OperatorPaused (store : Store) (agentId : Uuid) (row : TenantAgentRow) : Prop :=
  store.tenantAgents.find? agentId = some row ∧ row.standing = .paused .operator

/-- An instance a person paused is ready at its pinned version. -/
def PausedReady (store : Store) (agentId : Uuid) : Prop :=
  ∀ row, OperatorPaused store agentId row →
    ReadyAt store row.workspaceId agentId row.versionId

/-- An operation that settles an instance a person paused leaves it ready: its required
integrations are still connected with the bindings, or at the version, it moves to. -/
def KeepsReady (deployment : Deployment) (agentId : Uuid) (store : Store) : Operation → Prop
  | .setBinding _ workspaceId instanceId key integrationId now =>
    instanceId = agentId → PausedReady { store with
      bindings := store.bindings.put (agentId, key)
        (bindingRow store workspaceId agentId key integrationId now) } agentId
  | .clearBinding _ workspaceId instanceId key _ =>
    instanceId = agentId → PausedReady (eraseBinding store workspaceId agentId key) agentId
  | .moveVersion _ _ instanceId version _ _ =>
    instanceId = agentId → ∀ row target, OperatorPaused store agentId row →
      moveTarget deployment store row version = .ok target → target ≠ row.versionId →
        ReadyAt store row.workspaceId agentId target
  | .rollbackVersion _ _ instanceId _ _ =>
    instanceId = agentId → ∀ row target, OperatorPaused store agentId row →
      rollbackTarget store row.workspaceId agentId = some target →
        ReadyAt store row.workspaceId agentId target
  | .applyAutomaticUpdates limit cursor locked _ _ =>
    ∀ row target number required, OperatorPaused store agentId row →
      (agentId, row) ∈ automaticBatch store limit cursor locked →
        automaticTarget deployment store row = .ok (some (target, number, required)) →
          ReadyAt store row.workspaceId agentId target
  | _ => True

/-- An update call that sets the instance's status to active. -/
def Activates (agentId : Uuid) : Operation → Prop
  | .updateAgentInstance _ _ instanceId body _ =>
    instanceId = agentId ∧ body.status = some .active
  | _ => False

/-- A row nothing but an update call makes active. -/
def HeldRow (row : TenantAgentRow) : Prop :=
  row.standing = .paused .operator ∨ row.standing = .disabled

/-- The instance is paused by a person, or retired. -/
def Held (store : Store) (agentId : Uuid) : Prop :=
  ∃ row, store.tenantAgents.find? agentId = some row ∧ HeldRow row

/-- Settling a held row that is ready, unless it is retired, leaves it as it is. -/
theorem settledRow_held {row : TenantAgentRow} {ready : Bool} (now : Instant) (held : HeldRow row)
    (resolved : row.standing = .paused .operator → ready = true) :
    settledRow row ready now = row := by
  refine if_pos ?_
  obtain paused | retired := held
  · exact .inr ⟨resolved paused, paused⟩
  · exact .inl retired

variable {other : Uuid} {body : TenantAgentUpdate}

section Settling

variable {deployment : Deployment} {store next moved before current : Store} {principal : Principal}
  {workspaceId agentId eventId : Uuid} {now : Instant} {row : TenantAgentRow}
  {required : AgentManifest} {key : String}

/-- Settling leaves a held row as it is while the pause finds it ready. -/
theorem settleStatus_held (row : TenantAgentRow)
    (present : store.tenantAgents.find? agentId = some row)
    (own : row.workspaceId = workspaceId) (held : HeldRow row)
    (published : manifest store row.versionId = .ok required)
    (resolved : row.standing = .paused .operator →
      ReadyAt store workspaceId agentId row.versionId) :
    (settleStatus store workspaceId agentId required now).tenantAgents.find? agentId =
      some row := by
  rw [settleStatus_find store workspaceId agentId required now present own]
  refine congrArg some (settledRow_held now held fun operator => ?_)
  rw [← readyAt_iff published]
  exact resolved operator

/-- Moving the pin of a held instance and settling it changes only the pin while the
pause finds it ready at the new version. -/
theorem repin_settle_held (now : Instant) {fromVersionId target : Uuid} {action : VersionAction}
    (present : store.tenantAgents.find? agentId = some row) (own : row.workspaceId = workspaceId)
    (held : HeldRow row) (published : manifest store target = .ok required)
    (move : repin store principal workspaceId agentId fromVersionId target action eventId now =
      .ok moved)
    (resolved : row.standing = .paused .operator → ReadyAt store workspaceId agentId target) :
    (settleStatus moved workspaceId agentId required now).tenantAgents.find? agentId =
      some { row with versionId := target, updatedAt := now } := by
  obtain ⟨_, rfl⟩ := repin_ok move
  exact settleStatus_held { row with versionId := target, updatedAt := now }
    (by simp [present, own]) own held published resolved

theorem setBinding_held {integrationId : Uuid} (held : Held store agentId)
    (paused : PausedReady { store with
        bindings := store.bindings.put (agentId, key)
          (bindingRow store workspaceId agentId key integrationId now) } agentId)
    (ok : setBinding store principal workspaceId agentId key integrationId now = .ok next) :
    Held next agentId := by
  obtain ⟨row, present, held⟩ := held
  simp only [setBinding, bind_eq_ok, pure_eq_ok] at ok
  obtain ⟨_, _, current, found, required, published, bound, write, rfl⟩ := ok
  obtain ⟨stored, own⟩ := instanceRow_ok found
  cases present.symm.trans stored
  obtain rfl := writeBinding_ok write
  exact ⟨row, settleStatus_held row present own held published fun operator =>
    own ▸ paused row ⟨present, operator⟩, held⟩

theorem clearBinding_held (held : Held store agentId)
    (paused : PausedReady (eraseBinding store workspaceId agentId key) agentId)
    (ok : clearBinding store principal workspaceId agentId key now = .ok next) :
    Held next agentId := by
  obtain ⟨row, present, held⟩ := held
  simp only [clearBinding, bind_eq_ok, pure_eq_ok] at ok
  obtain ⟨_, _, current, found, required, published, rfl⟩ := ok
  obtain ⟨stored, own⟩ := instanceRow_ok found
  cases present.symm.trans stored
  obtain ⟨bindings, erased⟩ := eraseBinding_eq store workspaceId agentId key
  rw [erased] at paused ⊢
  exact ⟨row, settleStatus_held row present own held published fun operator =>
    own ▸ paused row ⟨present, operator⟩, held⟩

/-- An update call that does not ask for an active instance keeps a held one held. -/
theorem updateAgentInstance_held (held : Held store agentId) (asked : body.status ≠ some .active)
    (ok : updateAgentInstance store principal workspaceId agentId body now = .ok next) :
    Held next agentId := by
  obtain ⟨row, present, held⟩ := held
  simp only [updateAgentInstance, bind_eq_ok, pure_eq_ok] at ok
  obtain ⟨_, _, current, found, _, _, _, _, _, _, rfl⟩ := ok
  cases present.symm.trans (instanceRow_ok found).1
  refine ⟨_, Table.find?_put _ _ _, ?_⟩
  cases status : body.status with
  | none => simpa [HeldRow, status] using held
  | some value =>
    cases value with
    | active => exact absurd status asked
    | paused => exact .inl (by simp [requestedStanding])
    | disabled => exact .inr (by simp [requestedStanding])

theorem uninstall_held (held : Held store agentId)
    (ok : uninstall store principal workspaceId agentId now = .ok next) : Held next agentId := by
  obtain ⟨row, present, _⟩ := held
  simp only [uninstall, bind_eq_ok, pure_eq_ok] at ok
  obtain ⟨_, _, _, _, rfl⟩ := ok
  exact ⟨{ row with standing := .disabled, updatedAt := now }, by simp [present], .inr rfl⟩

theorem moveVersion_held {version : Option Version} (held : Held store agentId)
    (resolved : ∀ row target, OperatorPaused store agentId row →
      moveTarget deployment store row version = .ok target → target ≠ row.versionId →
        ReadyAt store row.workspaceId agentId target)
    (ok : moveVersion deployment store principal workspaceId agentId version eventId now =
      .ok next) : Held next agentId := by
  obtain ⟨row, present, held⟩ := held
  simp only [moveVersion, bind_eq_ok] at ok
  obtain ⟨_, _, current, found, target, offered, ok⟩ := ok
  obtain ⟨stored, own⟩ := instanceRow_ok found
  cases present.symm.trans stored
  split at ok
  · rw [pure_eq_ok] at ok
    exact ok ▸ ⟨row, present, held⟩
  · rename_i moves
    simp only [bind_eq_ok, pure_eq_ok] at ok
    obtain ⟨required, published, _, _, moved, move, rfl⟩ := ok
    refine ⟨_, repin_settle_held _ present own held published move fun operator => ?_, held⟩
    exact own ▸ resolved row target ⟨present, operator⟩ offered moves

theorem rollbackVersion_held (held : Held store agentId)
    (resolved : ∀ row target, OperatorPaused store agentId row →
      rollbackTarget store row.workspaceId agentId = some target →
        ReadyAt store row.workspaceId agentId target)
    (ok : rollbackVersion store principal workspaceId agentId eventId now = .ok next) :
    Held next agentId := by
  obtain ⟨row, present, held⟩ := held
  simp only [rollbackVersion, bind_eq_ok, orRaise_eq_ok, Option.filter_eq_some_iff,
    pure_eq_ok] at ok
  obtain ⟨_, _, current, found, target, ⟨recorded, _⟩, required, published, moved, move, rfl⟩ :=
    ok
  obtain ⟨stored, own⟩ := instanceRow_ok found
  cases present.symm.trans stored
  refine ⟨_, repin_settle_held _ present own held published move fun operator => ?_, held⟩
  exact own ▸ resolved row target ⟨present, operator⟩ (own ▸ recorded)

/-- What an automatic batch keeps of a held instance, whatever it did to others: its
standing and workspace, its bindings, the connections and the catalog. -/
structure BatchKept (agentId : Uuid) (row : TenantAgentRow) (before after : Store) : Prop where
  standing : ∃ later, after.tenantAgents.find? agentId = some later ∧
    later.standing = row.standing ∧ later.workspaceId = row.workspaceId
  bindings : ∀ key, after.bindings.find? (agentId, key) = before.bindings.find? (agentId, key)
  integrations : after.integrations = before.integrations
  catalog : after.catalog = before.catalog

/-- The automatic target depends on the catalog alone. -/
theorem automaticTarget_congr {after : Store} (catalog : after.catalog = before.catalog)
    (row : TenantAgentRow) :
    automaticTarget deployment after row = automaticTarget deployment before row := by
  unfold automaticTarget manifest
  rw [catalog]

/-- One automatic update of another instance keeps everything a held one depends on. -/
theorem BatchKept.of_other (kept : BatchKept agentId row before current)
    (othersKept : OthersKept other current next) (distinct : agentId ≠ other) :
    BatchKept agentId row before next where
  standing := by
    rw [othersKept.agents agentId distinct]
    exact kept.standing
  bindings key := (othersKept.bindings agentId key distinct).trans (kept.bindings key)
  integrations := othersKept.integrations.trans kept.integrations
  catalog := othersKept.catalog.trans kept.catalog

/-- An automatic update of the held instance itself keeps it held while it is ready at
the target. -/
theorem BatchKept.of_own (kept : BatchKept agentId row before current) (held : HeldRow row)
    (resolved : ∀ target number required, row.standing = .paused .operator →
      automaticTarget deployment before row = .ok (some (target, number, required)) →
        ReadyAt before row.workspaceId agentId target)
    (ok : automaticUpdate deployment current agentId row eventId now = .ok next) :
    BatchKept agentId row before next := by
  obtain rfl | ⟨target, number, required, action, moved, offered, move, rfl⟩ :=
    automaticUpdate_ok ok
  · exact kept
  · obtain ⟨later, present, standing, own⟩ := kept.standing
    have stays := repin_settle_held now present own (by rwa [HeldRow, standing])
      (automaticTarget_manifest offered) move fun operator => by
        rw [automaticTarget_congr kept.catalog] at offered
        exact (resolved target number required (standing ▸ operator) offered).of_eq kept.bindings
          kept.integrations kept.catalog
    obtain ⟨_, rfl⟩ := repin_ok move
    exact ⟨⟨_, stays, standing, own⟩, kept.bindings, kept.integrations, kept.catalog⟩

theorem applyAutomaticUpdates_held {limit : Nat} {cursor : Option Uuid} {locked : List Uuid}
    {eventId : Uuid → Uuid} (held : Held store agentId)
    (resolved : ∀ row target number required, OperatorPaused store agentId row →
      (agentId, row) ∈ automaticBatch store limit cursor locked →
        automaticTarget deployment store row = .ok (some (target, number, required)) →
          ReadyAt store row.workspaceId agentId target)
    (ok : applyAutomaticUpdates deployment store limit cursor locked eventId now = .ok next) :
    Held next agentId := by
  obtain ⟨row, present, held⟩ := held
  simp only [applyAutomaticUpdates, bind_eq_ok] at ok
  obtain ⟨_, _, updates⟩ := ok
  have kept : BatchKept agentId row store next := by
    refine foldlM_invariant (BatchKept agentId row store) ?_
      ⟨⟨row, present, rfl, rfl⟩, fun _ => rfl, rfl, rfl⟩ updates
    rintro current ⟨other, listed⟩ member later kept update
    by_cases same : agentId = other
    · subst same
      obtain rfl : row = listed := by
        have selected := List.mem_of_mem_take member
        simp only [List.mem_insertionSort, Table.mem_select, present,
          Option.some.injEq] at selected
        exact selected.1
      exact kept.of_own held (fun target number required operator =>
        resolved row target number required ⟨present, operator⟩ member) update
    · exact kept.of_other (automaticUpdate_othersKept update) same
  obtain ⟨later, stored, standing, _⟩ := kept.standing
  exact ⟨later, stored, by rwa [HeldRow, standing]⟩

end Settling

section Runs

variable {deployment : Deployment} {store next : Store} {agentId : Uuid}

theorem Held.of_othersKept (held : Held store agentId) (kept : OthersKept other store next)
    (own : other = agentId → Held next agentId) : Held next agentId := by
  by_cases same : other = agentId
  · exact own same
  · obtain ⟨row, present, held⟩ := held
    exact ⟨row, by rw [kept.agents agentId (Ne.symm same)]; exact present, held⟩

/-- An operation that activates nothing and settles a paused instance only while it is
ready keeps it held. -/
theorem run_held (operation : Operation) (held : Held store agentId)
    (ok : run deployment store operation = .ok next) (inactive : ¬ Activates agentId operation)
    (ready : KeepsReady deployment agentId store operation) : Held next agentId := by
  have unchanged : ∀ {after : Store}, after.tenantAgents = store.tenantAgents →
      Held after agentId := by
    intro after same
    obtain ⟨row, present, held⟩ := held
    exact ⟨row, by rw [same]; exact present, held⟩
  by_cases instances : operation.sparesInstances = true
  · obtain ⟨⟨_, kept⟩, _⟩ := run_sparesInstances instances ok
    exact unchanged kept.agents
  cases operation with
  | setMember | publishDefinition | connect | updateIntegration | rotate | disconnect
  | testIntegration | refreshForCall | startOAuth | completeOAuth | setPolicy =>
    exact absurd rfl instances
  | catalog operation =>
    simp only [run, bind_eq_ok, pure_eq_ok] at ok
    obtain ⟨_, _, rfl⟩ := ok
    exact unchanged rfl
  | install principal workspaceId body instanceId eventId now =>
    refine held.of_othersKept (install_othersKept ok) ?_
    rintro rfl
    -- An installation takes a free identifier, so it never replaces a held instance.
    obtain ⟨row, present, _⟩ := held
    simp only [run, install, bind_eq_ok, inserted_eq_ok, Table.insert?_eq_some] at ok
    obtain ⟨_, _, _, _, _, _, _, _, _, _, _, _, _, ⟨free, _⟩, _⟩ := ok
    cases present.symm.trans free
  | setBinding principal workspaceId instanceId key integrationId now =>
    refine held.of_othersKept (setBinding_othersKept ok) ?_
    rintro rfl
    exact setBinding_held held (ready rfl) ok
  | clearBinding principal workspaceId instanceId key now =>
    refine held.of_othersKept (clearBinding_othersKept ok) ?_
    rintro rfl
    exact clearBinding_held held (ready rfl) ok
  | updateAgentInstance principal workspaceId instanceId body now =>
    refine held.of_othersKept (updateAgentInstance_othersKept ok) ?_
    rintro rfl
    exact updateAgentInstance_held held (fun asked => inactive ⟨rfl, asked⟩) ok
  | uninstall principal workspaceId instanceId now =>
    refine held.of_othersKept (uninstall_othersKept ok) ?_
    rintro rfl
    exact uninstall_held held ok
  | moveVersion principal workspaceId instanceId version eventId now =>
    refine held.of_othersKept (moveVersion_othersKept ok) ?_
    rintro rfl
    exact moveVersion_held held (ready rfl) ok
  | rollbackVersion principal workspaceId instanceId eventId now =>
    refine held.of_othersKept (rollbackVersion_othersKept ok) ?_
    rintro rfl
    exact rollbackVersion_held held (ready rfl) ok
  | applyAutomaticUpdates limit cursor locked eventId now =>
    exact applyAutomaticUpdates_held held ready ok

/-- An update call that asks for a paused instance leaves it held. -/
theorem pause_held {principal : Principal} {workspaceId : Uuid} {now : Instant}
    (asked : body.status = some .paused)
    (ok : updateAgentInstance store principal workspaceId agentId body now = .ok next) :
    Held next agentId := by
  simp only [updateAgentInstance, bind_eq_ok, pure_eq_ok] at ok
  obtain ⟨_, _, _, _, _, _, _, _, _, _, rfl⟩ := ok
  exact ⟨_, Table.find?_put _ _ _, .inl (by simp [asked, requestedStanding])⟩

/-- After a person pauses an instance it is not active again before an update call asks
for it, as long as every operation that settles it while it is paused leaves it ready. -/
theorem operator_pause_stays (deployment : Deployment) (store paused : Store)
    (principal : Principal) (workspaceId agentId : Uuid) (body : TenantAgentUpdate) (now : Instant)
    (asked : body.status = some .paused)
    (pause : updateAgentInstance store principal workspaceId agentId body now = .ok paused)
    (history : List (Transition Store Operation)) (state : Store)
    (steps : (machine deployment).Steps paused history state)
    (inactive : ∀ transition ∈ history, ¬ Activates agentId transition.label)
    (ready : ∀ transition ∈ history,
      KeepsReady deployment agentId transition.before transition.label) :
    ∀ row, state.tenantAgents.find? agentId = some row → row.standing ≠ .active := by
  have held : Held state agentId := by
    refine steps.invariantWhile (fun store => Held store agentId)
      (fun transition => ¬ Activates agentId transition.label ∧
        KeepsReady deployment agentId transition.before transition.label) ?_
      (pause_held asked pause) fun transition member =>
        ⟨inactive transition member, ready transition member⟩
    intro before operation after holds step admitted
    exact run_held operation holds step admitted.1 admitted.2
  obtain ⟨later, stored, held⟩ := held
  intro row present active
  cases stored.symm.trans present
  obtain operator | retired := held
  · rw [active] at operator
    cases operator
  · rw [active] at retired
    cases retired

end Runs

/-- The store once the content agent is installed and active. -/
def installedStore : Store :=
  (([connectWordpress, installContent].foldlM (run exampleDeployment) freshStore).toOption).getD
    freshStore

/-- A person's pause. -/
def pauseContent : TenantAgentUpdate where
  displayName := none
  status := some .paused
  updateChannel := none
  updateMode := none
  instructionsOverride := none
  settings := none
  notEmpty := by simp

/-- The store once a person paused that agent. -/
def pausedStore : Store :=
  (updateAgentInstance installedStore owner 7 30 pauseContent 3).toOption.getD freshStore

/-- Bind the content agent to connection 20. -/
def bindContent : Operation := .setBinding owner 7 30 "wordpress" 20 5

/-- Unbind the content agent. -/
def unbindContent : Operation := .clearBinding owner 7 30 "wordpress" 4

/-- The paused agent stays ready when it is bound to its live connection again. -/
theorem rebound_ready :
    ReadyAt { pausedStore with
      bindings := pausedStore.bindings.put (30, "wordpress")
        (bindingRow pausedStore 7 30 "wordpress" 20 5) } 7 30 2 := by
  refine (readyAt_iff (show manifest _ 2 = .ok contentManifest from ?_) 7 30).mpr ?_
  · rw [manifest_eq_ok, ← Option.map_eq_some_iff]
    decide +kernel
  · decide +kernel

/-- `operator_pause_stays` applies to rebinding the paused agent to its live connection. -/
theorem operator_pause_stays_rebound :
    ∃ next, run exampleDeployment pausedStore bindContent = .ok next ∧
      ∀ row, next.tenantAgents.find? 30 = some row → row.standing ≠ .active := by
  have pause := eq_ok_getD (updateAgentInstance installedStore owner 7 30 pauseContent 3) freshStore
    (by decide +kernel)
  have rebind := eq_ok_getD (run exampleDeployment pausedStore bindContent) freshStore
    (by decide +kernel)
  refine ⟨_, rebind, operator_pause_stays exampleDeployment installedStore pausedStore owner 7 30
    pauseContent 3 rfl pause _ _ (.step .refl rebind) ?_ ?_⟩
  · intro transition member
    obtain rfl : transition = _ := by simpa using member
    exact id
  · intro transition member
    obtain rfl : transition = _ := by simpa using member
    rintro - row ⟨present, -⟩
    have pinned : (pausedStore.tenantAgents.find? 30).map
        (fun row => (row.workspaceId, row.versionId)) = some (7, 2) := by decide +kernel
    rw [show pausedStore.tenantAgents.find? 30 = some row from present] at pinned
    simp only [Option.map_some, Option.some.injEq, Prod.mk.injEq] at pinned
    rw [pinned.1, pinned.2]
    exact rebound_ready

/-- Unbinding and binding a paused agent makes it active, with no update call between. -/
theorem operator_pause_undone :
    ¬ ∀ (deployment : Deployment) (earlier : List (Transition Store Operation))
        (store paused : Store) (principal : Principal) (workspaceId agentId : Uuid)
        (body : TenantAgentUpdate) (now : Instant),
      (machine deployment).Runs earlier store → body.status = some .paused →
        updateAgentInstance store principal workspaceId agentId body now = .ok paused →
        ∀ (history : List (Transition Store Operation)) (state : Store),
          (machine deployment).Steps paused history state →
          (∀ transition ∈ history, ¬ Activates agentId transition.label) →
            ∀ row, state.tenantAgents.find? agentId = some row → row.standing ≠ .active := by
  intro stays
  have installed := eq_ok_getD
    ([connectWordpress, installContent].foldlM (run exampleDeployment) freshStore) freshStore
    (by decide +kernel)
  have pause := eq_ok_getD (updateAgentInstance installedStore owner 7 30 pauseContent 3) freshStore
    (by decide +kernel)
  obtain ⟨state, moves, active⟩ := exists_ok_of_check
    ([unbindContent, bindContent].foldlM (run exampleDeployment) pausedStore)
    (fun state => (state.tenantAgents.find? 30).map TenantAgentRow.standing = some .active)
    (by decide +kernel)
  obtain ⟨earlier, installing, _⟩ := Machine.steps_of_replay
    (fun store : Store => store.tenantAgents = .empty) installed
  obtain ⟨history, steps, labels⟩ := Machine.steps_of_replay
    (fun store : Store => store.tenantAgents = .empty) moves
  obtain ⟨row, present, standing⟩ := Option.map_eq_some_iff.mp (of_decide_eq_true active)
  refine stays exampleDeployment earlier installedStore pausedStore owner 7 30 pauseContent 3
    (.ofSteps (show (machine exampleDeployment).Initial freshStore from rfl) installing) rfl pause history state steps ?_ row present standing
  intro transition member
  have listed : transition.label ∈ [unbindContent, bindContent] :=
    labels ▸ List.mem_map_of_mem member
  simp only [List.mem_cons, List.not_mem_nil, or_false] at listed
  obtain unbinds | binds := listed
  · rw [unbinds]
    exact id
  · rw [binds]
    exact id

end Nexora.Tenant
