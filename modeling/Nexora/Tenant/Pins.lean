import Nexora.Tenant.Sealed
import Nexora.Tenant.Sweep

/-!
# Who moves pins

Of all operations only installing, the two version moves and the automatic batch change the
version an instance is pinned to, and only they append to its history. `PinsStand` says that
of every other operation, and every recorded move has the step of the run that made it.
-/

namespace Nexora.Tenant

open Nexora.Std Nexora.Catalog Nexora.Integration Nexora.Workspace

/-- Every instance keeps its pin and its history. -/
structure PinsStand (before after : Store) : Prop where
  pins : ∀ agentId, (after.tenantAgents.find? agentId).map TenantAgentRow.versionId =
    (before.tenantAgents.find? agentId).map TenantAgentRow.versionId
  history : after.versionEvents = before.versionEvents

variable {before after : Store}

theorem PinsStand.of_eq (agents : after.tenantAgents = before.tenantAgents)
    (history : after.versionEvents = before.versionEvents) : PinsStand before after :=
  ⟨fun agentId => by rw [agents], history⟩

theorem PinsStand.trans {first second third : Store} (early : PinsStand first second)
    (late : PinsStand second third) : PinsStand first third :=
  ⟨fun agentId => (late.pins agentId).trans (early.pins agentId),
    late.history.trans early.history⟩

/-- Changing an instance's row but for its pin. -/
theorem PinsStand.modify {agentId : Uuid} {change : TenantAgentRow → TenantAgentRow}
    (agents : after.tenantAgents = before.tenantAgents.modify agentId change)
    (pin : ∀ row, (change row).versionId = row.versionId)
    (history : after.versionEvents = before.versionEvents) : PinsStand before after where
  pins other := by
    rw [agents, Table.find?_modify]
    split
    · next same =>
      rw [same]
      cases before.tenantAgents.find? agentId with
      | none => rfl
      | some row => exact congrArg some (pin row)
    · rfl
  history := history

variable {operation : Operation} {event : VersionEventRow} {eventId : Uuid}

/-- The operations that write pins. -/
def Operation.writesPins : Operation → Bool
  | .install .. | .moveVersion .. | .rollbackVersion .. | .applyAutomaticUpdates .. => true
  | _ => false

section Operations

variable {deployment : Deployment} {store next : Store} {principal : Principal}
  {workspaceId agentId : Uuid} {now : Instant}

/-- Settling an instance keeps its pin. -/
theorem settleStatus_stands {current : Store} (stands : PinsStand store current)
    (workspaceId agentId : Uuid) (required : AgentManifest) (now : Instant) :
    PinsStand store (settleStatus current workspaceId agentId required now) := by
  refine stands.trans (.modify rfl (fun row => ?_) rfl)
  split
  · rw [settledRow_versionId]
  · rfl

/-- An operation that writes no pin leaves every pin and history alone. -/
theorem run_pinsStand (spares : operation.writesPins = false)
    (ok : run deployment store operation = .ok next) : PinsStand store next := by
  by_cases instances : operation.sparesInstances = true
  · obtain ⟨⟨_, kept⟩, history⟩ := run_sparesInstances instances ok
    exact .of_eq kept.agents history
  cases operation with
  | setMember | publishDefinition | connect | updateIntegration | rotate | disconnect
  | testIntegration | refreshForCall | startOAuth | completeOAuth | setPolicy =>
    exact absurd rfl instances
  | install | moveVersion | rollbackVersion | applyAutomaticUpdates => cases spares
  | catalog operation =>
    simp only [run, bind_eq_ok, pure_eq_ok] at ok
    obtain ⟨_, _, rfl⟩ := ok
    exact .of_eq rfl rfl
  | setBinding principal workspaceId agentId key integrationId now =>
    simp only [run, setBinding, bind_eq_ok, pure_eq_ok] at ok
    obtain ⟨_, _, _, _, required, _, bound, write, rfl⟩ := ok
    rw [writeBinding_ok write]
    apply settleStatus_stands
    exact .of_eq rfl rfl
  | clearBinding principal workspaceId agentId key now =>
    simp only [run, clearBinding, bind_eq_ok, pure_eq_ok] at ok
    obtain ⟨_, _, _, _, required, _, rfl⟩ := ok
    obtain ⟨bindings, erased⟩ := eraseBinding_eq store workspaceId agentId key
    rw [erased]
    apply settleStatus_stands
    exact .of_eq rfl rfl
  | updateAgentInstance principal workspaceId agentId body now =>
    simp only [run, updateAgentInstance, bind_eq_ok, pure_eq_ok] at ok
    obtain ⟨_, _, row, known, _, _, _, _, _, _, rfl⟩ := ok
    refine ⟨fun other => ?_, rfl⟩
    rw [Table.find?_put_eq]
    split
    · next same =>
      rw [same, (instanceRow_ok known).1]
      rfl
    · rfl
  | uninstall principal workspaceId agentId now =>
    simp only [run, uninstall, bind_eq_ok, pure_eq_ok] at ok
    obtain ⟨_, _, _, _, rfl⟩ := ok
    exact .modify rfl (fun _ => rfl) rfl

/-- Installing pins a new instance to what its workspace is offered, and its history starts
there. -/
theorem install_pins {body : InstallInput}
    (ok : install deployment store principal workspaceId body agentId eventId now = .ok next) :
    ∃ agent offered required, entitledAgent store workspaceId body.slug = .ok agent ∧
      offeredVersion deployment.sha256 store.catalog.tables agent.1 workspaceId
        (body.updateChannel.getD (policyChannel store workspaceId)) = some offered ∧
      manifest store offered.1 = .ok required ∧
      deployment.runtimeVersion.satisfiesMinimum required.minRuntimeVersion = true ∧
      store.tenantAgents.find? agentId = none ∧
      (∀ other, (next.tenantAgents.find? other).map TenantAgentRow.versionId =
        if other = agentId then some offered.1
        else (store.tenantAgents.find? other).map TenantAgentRow.versionId) ∧
      store.versionEvents.find? eventId = none ∧
      next.versionEvents = store.versionEvents.put eventId
        ⟨workspaceId, agentId, none, offered.1, .installed, principal, now⟩ := by
  simp only [install, bind_eq_ok, orRaise_eq_ok, raiseIf_eq_ok, Bool.not_eq_false, inserted_eq_ok,
    Table.insert?_eq_some, pure_eq_ok] at ok
  obtain ⟨_, _, agent, entitled, offered, isOffered, required, published, _, served, _, _,
    agents, ⟨absent, rfl⟩, bound, writes, recorded, record, rfl⟩ := ok
  have written : bound.tenantAgents.find? agentId ≠ none ∧
      (∀ other, (bound.tenantAgents.find? other).map TenantAgentRow.versionId =
        if other = agentId then some offered.1
        else (store.tenantAgents.find? other).map TenantAgentRow.versionId) ∧
      bound.versionEvents = store.versionEvents := by
    refine foldlM_invariant (fun current => current.tenantAgents.find? agentId ≠ none ∧
      (∀ other, (current.tenantAgents.find? other).map TenantAgentRow.versionId =
        if other = agentId then some offered.1
        else (store.tenantAgents.find? other).map TenantAgentRow.versionId) ∧
      current.versionEvents = store.versionEvents) ?_ ?_ writes
    · intro current entry _ later kept write
      rw [writeBinding_ok write]
      exact kept
    · refine ⟨by simp, fun other => ?_, rfl⟩
      rw [Table.find?_put_eq]
      split <;> rfl
  obtain ⟨event, rfl, free, rfl⟩ := recordVersion_eq record
  refine ⟨agent, offered, required, entitled, isOffered, published, served, absent, ?_, ?_, ?_⟩
  · intro other
    rw [(settleStatus_stands (.of_eq rfl rfl) workspaceId agentId required now).pins]
    exact written.2.1 other
  · rw [← written.2.2]
    exact free
  · rw [← written.2.2]
    rfl

/-- A move of an instance's pin, with the event that records it. -/
structure MadeMove (agentId : Uuid) (before after : Store) (eventId : Uuid)
    (event : VersionEventRow) (row later : TenantAgentRow) : Prop where
  appended : Appended agentId before after eventId event
  stored : before.tenantAgents.find? agentId = some row
  taken : after.tenantAgents.find? agentId = some later
  workspace : event.workspaceId = row.workspaceId
  left : event.fromVersionId = some row.versionId
  reached : event.toVersionId = later.versionId
  distinct : later.versionId ≠ row.versionId

/-- What moving pins appends to a history records a move. -/
theorem PinsMoved.made {touched : Uuid → Prop} (moves : PinsMoved touched store next)
    (appended : Appended agentId store next eventId event) :
    ∃ row later, MadeMove agentId store next eventId event row later := by
  rcases moves.instances agentId with kept | moved
  · exact absurd appended (kept.history eventId event)
  · obtain ⟨row, later, id, recorded, stored, taken, _, distinct, added, workspace, left, reached,
      unique⟩ := moved
    obtain rfl := unique eventId event appended
    have same := added.stored.symm.trans appended.stored
    cases same
    exact ⟨row, later, added, stored, taken, workspace, left, reached, distinct⟩

/-- The pins an operation moves or leaves, or the instance it installs. -/
theorem run_pins (ok : run deployment store operation = .ok next) :
    (∃ touched, PinsMoved touched store next) ∨ PinsStand store next ∨
      ∃ principal workspaceId body agentId eventId now,
        operation = .install principal workspaceId body agentId eventId now := by
  by_cases writes : operation.writesPins = false
  · exact .inr (.inl (run_pinsStand writes ok))
  cases operation with
  | setMember | catalog | publishDefinition | connect | updateIntegration | rotate | disconnect
  | testIntegration | refreshForCall | startOAuth | completeOAuth | setBinding | clearBinding
  | updateAgentInstance | uninstall | setPolicy => exact absurd rfl writes
  | install principal workspaceId body agentId eventId now =>
    exact .inr (.inr ⟨principal, workspaceId, body, agentId, eventId, now, rfl⟩)
  | moveVersion principal workspaceId agentId version eventId now =>
    rcases moveVersion_moves ok with ⟨rfl, _⟩ | ⟨moves, _⟩
    · exact .inl ⟨_, .refl (fun _ => True) next⟩
    · exact .inl ⟨_, moves⟩
  | rollbackVersion principal workspaceId agentId eventId now =>
    exact .inl ⟨_, (rollbackVersion_moves ok).1⟩
  | applyAutomaticUpdates limit cursor locked eventId now =>
    exact .inl ⟨_, applyAutomaticUpdates_moves ok⟩

/-- No operation removes or rewrites a version event. -/
theorem run_records (ok : run deployment store operation = .ok next)
    (stored : store.versionEvents.find? eventId = some event) :
    next.versionEvents.find? eventId = some event := by
  rcases run_pins ok with ⟨_, moves⟩ | stands | ⟨_, _, _, _, newId, _, rfl⟩
  · exact moves.recorded eventId event stored
  · rw [stands.history]
    exact stored
  · obtain ⟨_, _, _, _, _, _, _, _, _, fresh, history⟩ := install_pins ok
    rw [history, Table.find?_put_ne _ _ ?_, stored]
    rintro rfl
    rw [fresh] at stored
    cases stored

/-- A version event an operation appends records a move, or starts an instance's history. -/
theorem run_appends (ok : run deployment store operation = .ok next)
    (appended : Appended agentId store next eventId event) :
    (∃ row later, MadeMove agentId store next eventId event row later) ∨
      event.fromVersionId = none := by
  rcases run_pins ok with ⟨_, moves⟩ | stands | ⟨_, _, _, _, newId, _, rfl⟩
  · exact .inl (moves.made appended)
  · have present := appended.stored
    rw [stands.history, appended.fresh] at present
    cases present
  · obtain ⟨_, _, _, _, _, _, _, _, _, _, history⟩ := install_pins ok
    have written := appended.stored
    rw [history, Table.find?_put_eq] at written
    split at written
    · exact .inr (Option.some.inj written ▸ rfl)
    · rw [appended.fresh] at written
      cases written

end Operations

/-- The tenancy store under any sequence of operations, from one without instances and so
without version events. -/
def pinMachine (deployment : Deployment) : Machine Store Operation :=
  .ofFunction (fun store => store.tenantAgents = .empty ∧ store.versionEvents = .empty)
    (run deployment)

/-- Every move on record was made by a step of the run. -/
theorem moves_made {deployment : Deployment} {history : List (Transition Store Operation)}
    {state : Store} (runs : (pinMachine deployment).Runs history state)
    (stored : state.versionEvents.find? eventId = some event)
    (isMove : event.fromVersionId.isSome) :
    ∃ transition ∈ history, ∃ row later, MadeMove event.tenantAgentId transition.before
      transition.after eventId event row later := by
  induction runs with
  | initial valid =>
    rw [valid.2] at stored
    cases stored
  | @step history state label next _ transition ih =>
    cases earlier : state.versionEvents.find? eventId with
    | some before =>
      have same := (run_records transition earlier).symm.trans stored
      cases same
      obtain ⟨made, member, moved⟩ := ih earlier
      exact ⟨made, List.mem_append_left _ member, moved⟩
    | none =>
      rcases run_appends transition ⟨earlier, stored, rfl⟩ with ⟨row, later, made⟩ | starts
      · exact ⟨⟨state, label, next⟩, by simp, row, later, made⟩
      · rw [starts] at isMove
        cases isMove

end Nexora.Tenant
