import Nexora.Std.Ranking
import Nexora.Tenant.Pins

/-!
# Returning to an earlier version

A rollback returns to the version that ran before the latest recorded move of the instance,
and records a move of its own. So a rollback that follows another one undoes it: it pins the
version the first one rolled back from.
-/

namespace Nexora.Tenant

open Nexora.Std Nexora.Catalog Nexora.Integration Nexora.Workspace

/-- The latest recorded move of an instance. -/
structure LatestMove (store : Store) (workspaceId agentId eventId : Uuid)
    (event : VersionEventRow) : Prop where
  stored : store.versionEvents.find? eventId = some event
  agent : event.tenantAgentId = agentId
  workspace : event.workspaceId = workspaceId
  isMove : event.fromVersionId.isSome
  latest : ∀ other otherEvent, store.versionEvents.find? other = some otherEvent →
    otherEvent.tenantAgentId = agentId → otherEvent.workspaceId = workspaceId →
      otherEvent.fromVersionId.isSome →
        toLex (otherEvent.createdAt, other) ≤ toLex (event.createdAt, eventId)

/-- The text of a rollback's refusal. -/
def noEarlierVersion : Failure := .http 409 (some "There is no earlier version to return to")

section Target

variable {store next : Store} {principal : Principal} {workspaceId agentId eventId : Uuid}
  {now : Instant} {event : VersionEventRow}

/-- An instance has one latest move. -/
theorem LatestMove.unique {first second : Uuid} {other : VersionEventRow}
    (left : LatestMove store workspaceId agentId first event)
    (right : LatestMove store workspaceId agentId second other) :
    first = second ∧ event = other := by
  have same := le_antisymm
    (right.latest first event left.stored left.agent left.workspace left.isMove)
    (left.latest second other right.stored right.agent right.workspace right.isMove)
  obtain rfl : first = second := (Prod.mk.inj (toLex_inj.mp same)).2
  exact ⟨rfl, Option.some.inj (left.stored.symm.trans right.stored)⟩

/-- A rollback's target is the version the latest move left. -/
theorem rollbackTarget_eq_some (store : Store) (workspaceId agentId target : Uuid) :
    rollbackTarget store workspaceId agentId = some target ↔
      ∃ eventId event, LatestMove store workspaceId agentId eventId event ∧
        event.fromVersionId = some target := by
  have listed : ∀ id event, (id, event) ∈ (store.versionEvents.select fun _ event =>
      event.tenantAgentId = agentId ∧ event.workspaceId = workspaceId ∧
        event.fromVersionId.isSome) ↔
      store.versionEvents.find? id = some event ∧ event.tenantAgentId = agentId ∧
        event.workspaceId = workspaceId ∧ event.fromVersionId.isSome := by
    intro id event
    rw [Table.mem_select, decide_eq_true_eq]
  have projected : rollbackTarget store workspaceId agentId = some target ↔
      ((store.versionEvents.select fun _ event =>
        event.tenantAgentId = agentId ∧ event.workspaceId = workspaceId ∧
          event.fromVersionId.isSome).argmax
        fun entry => toLex (entry.2.createdAt, entry.1)).map (fun entry => entry.2.fromVersionId) =
          some (some target) := by
    unfold rollbackTarget
    cases (store.versionEvents.select fun _ event =>
      event.tenantAgentId = agentId ∧ event.workspaceId = workspaceId ∧
        event.fromVersionId.isSome).argmax fun entry => toLex (entry.2.createdAt, entry.1) <;> simp
  rw [projected, argmax_map_eq_some]
  · constructor
    · rintro ⟨⟨id, event⟩, member, left, highest⟩
      obtain ⟨stored, agent, workspace, isMove⟩ := (listed id event).mp member
      refine ⟨id, event, ⟨stored, agent, workspace, isMove, ?_⟩, left⟩
      intro other otherEvent present own inside moves
      exact highest (other, otherEvent) ((listed _ _).mpr ⟨present, own, inside, moves⟩)
    · rintro ⟨id, event, latest, left⟩
      refine ⟨(id, event), (listed id event).mpr ⟨latest.stored, latest.agent, latest.workspace,
        latest.isMove⟩, left, ?_⟩
      rintro ⟨other, otherEvent⟩ member
      obtain ⟨present, own, inside, moves⟩ := (listed _ _).mp member
      exact latest.latest other otherEvent present own inside moves
  · rintro ⟨left, leftEvent⟩ leftMember ⟨right, rightEvent⟩ rightMember rank
    obtain rfl : left = right := (Prod.mk.inj (toLex_inj.mp rank)).2
    have same := ((listed _ _).mp leftMember).1.symm.trans ((listed _ _).mp rightMember).1
    cases same
    rfl

/-- A rollback pins the version its instance's latest move left, and records that. -/
theorem rollbackVersion_pins
    (ok : rollbackVersion store principal workspaceId agentId eventId now = .ok next) :
    ∃ row later moveId move, store.tenantAgents.find? agentId = some row ∧
      row.workspaceId = workspaceId ∧ LatestMove store workspaceId agentId moveId move ∧
      move.fromVersionId = some later.versionId ∧
      MadeMove agentId store next eventId ⟨workspaceId, agentId, some row.versionId,
        later.versionId, .rolledBack, principal, now⟩ row later := by
  simp only [rollbackVersion, bind_eq_ok, orRaise_eq_ok, Option.filter_eq_some_iff,
    decide_eq_true_eq, pure_eq_ok] at ok
  obtain ⟨_, _, row, known, target, ⟨undone, distinct⟩, required, _, moved, move, rfl⟩ := ok
  obtain ⟨stored, own⟩ := instanceRow_ok known
  obtain ⟨free, _, history, _⟩ := repin_eq stored own move
  obtain ⟨_, _, later, taken, _, rfl⟩ := repin_settle_pinsMoved required stored own distinct move
  obtain ⟨moveId, latestMove, latest, left⟩ := (rollbackTarget_eq_some _ _ _ _).mp undone
  refine ⟨row, later, moveId, latestMove, stored, own, latest, left, ⟨free, ?_, rfl⟩, stored,
    taken, own.symm, rfl, rfl, distinct⟩
  rw [show (settleStatus moved workspaceId agentId required now).versionEvents =
    moved.versionEvents from rfl, history, Table.find?_put]

/-- A rollback is refused for want of an earlier version exactly when the instance has no
recorded move, or its latest one left the version that is pinned. -/
theorem rollbackVersion_refused_iff {row : TenantAgentRow}
    (allowed : scopedMember store.memberships principal workspaceId .manageAgents = .ok ())
    (known : instanceRow store workspaceId agentId = .ok row) :
    rollbackVersion store principal workspaceId agentId eventId now = .error noEarlierVersion ↔
      ∀ moveId move, LatestMove store workspaceId agentId moveId move →
        move.fromVersionId = some row.versionId := by
  -- With a target, whatever else fails is not refused in these words.
  obtain ⟨move, spares, computed⟩ : ∃ move : Uuid → Except Failure Store,
      (∀ target, Spares (· = noEarlierVersion) (move target)) ∧
        rollbackVersion store principal workspaceId agentId eventId now =
          orRaise ((rollbackTarget store workspaceId agentId).filter (· ≠ row.versionId))
            noEarlierVersion >>= move := by
    refine ⟨fun target => manifest store target >>= fun required =>
      repin store principal workspaceId agentId row.versionId target .rolledBack eventId now >>=
        fun moved => pure (settleStatus moved workspaceId agentId required now), ?_, ?_⟩
    · intro target
      exact .bind (.orRaise (by decide)) fun _ _ =>
        .bind (.bind (.orRaise (by decide)) fun _ _ => .pure _) fun _ _ => .pure _
    · unfold rollbackVersion
      rw [allowed, known]
      rfl
  rw [computed]
  constructor
  · intro refused moveId latestMove latest
    obtain ⟨target, left⟩ := Option.isSome_iff_exists.mp latest.isMove
    by_contra elsewhere
    have distinct : target ≠ row.versionId := by
      rintro rfl
      exact elsewhere left
    have undone := (rollbackTarget_eq_some _ _ _ _).mpr ⟨moveId, latestMove, latest, left⟩
    rw [undone, Option.filter_some, if_pos (by simpa using distinct)] at refused
    exact spares target _ refused rfl
  · intro leaves
    have nothing : (rollbackTarget store workspaceId agentId).filter (· ≠ row.versionId) =
        none := by
      rw [Option.filter_eq_none_iff]
      intro target undone
      obtain ⟨moveId, move, latest, left⟩ := (rollbackTarget_eq_some _ _ _ _).mp undone
      rw [leaves moveId move latest] at left
      simpa using (Option.some.inj left).symm
    rw [nothing]
    rfl

/-- A move that is the latest on record stays the latest while none of its instance is
recorded. -/
theorem latestMove_stays {deployment : Deployment} {between : List (Transition Store Operation)}
    {final : Store} (latest : LatestMove store workspaceId agentId eventId event)
    (steps : (pinMachine deployment).Steps store between final)
    (quiet : ∀ transition ∈ between, ∀ id recorded,
      ¬ Appended agentId transition.before transition.after id recorded) :
    LatestMove final workspaceId agentId eventId event := by
  refine steps.invariantWhile (fun current => LatestMove current workspaceId agentId eventId event)
    (fun transition => ∀ id recorded,
      ¬ Appended agentId transition.before transition.after id recorded) ?_ latest quiet
  intro before operation after latest step quiet
  refine ⟨run_records step latest.stored, latest.agent, latest.workspace, latest.isMove, ?_⟩
  intro other otherEvent present own inside moves
  cases earlier : before.versionEvents.find? other with
  | none => exact absurd ⟨earlier, present, own⟩ (quiet other otherEvent)
  | some known =>
    have same := (run_records step earlier).symm.trans present
    cases same
    exact latest.latest other otherEvent earlier own inside moves

end Target

/-- A rollback pins the version that was in use immediately before the latest recorded move
of its instance, and is recorded as a move itself: the next rollback with no other move of the
instance on record in between pins the version this one rolled back from. It is refused exactly
when no move is on record, or the latest one left the version that is pinned. -/
theorem rollback_undoes_latest_move (deployment : Deployment)
    (history : List (Transition Store Operation)) (state : Store)
    (runs : (pinMachine deployment).Runs history state) (principal : Principal)
    (workspaceId agentId eventId : Uuid) (now : Instant) :
    (∀ next, rollbackVersion state principal workspaceId agentId eventId now = .ok next →
      ∃ row later moveId move, state.tenantAgents.find? agentId = some row ∧
        next.tenantAgents.find? agentId = some later ∧
        LatestMove state workspaceId agentId moveId move ∧
        (∃ transition ∈ history, ∃ before after, MadeMove agentId transition.before
          transition.after moveId move before after ∧ later.versionId = before.versionId) ∧
        ((∀ id event, state.versionEvents.find? id = some event → event.tenantAgentId = agentId →
            toLex (event.createdAt, id) ≤ toLex (now, eventId)) →
          ∀ between final, (pinMachine deployment).Steps next between final →
            (∀ transition ∈ between, ∀ id event,
              ¬ Appended agentId transition.before transition.after id event) →
              ∀ caller secondId secondNow last,
                rollbackVersion final caller workspaceId agentId secondId secondNow = .ok last →
                  (last.tenantAgents.find? agentId).map TenantAgentRow.versionId =
                    some row.versionId)) ∧
      ∀ row, scopedMember state.memberships principal workspaceId .manageAgents = .ok () →
        instanceRow state workspaceId agentId = .ok row →
          (rollbackVersion state principal workspaceId agentId eventId now =
              .error noEarlierVersion ↔
            ∀ moveId move, LatestMove state workspaceId agentId moveId move →
              move.fromVersionId = some row.versionId) := by
  refine ⟨?_, fun row allowed known => rollbackVersion_refused_iff allowed known⟩
  intro next ok
  obtain ⟨row, later, moveId, move, stored, own, latest, left, made⟩ := rollbackVersion_pins ok
  obtain ⟨transition, member, before, after, moved⟩ := moves_made runs latest.stored latest.isMove
  rw [latest.agent] at moved
  refine ⟨row, later, moveId, move, stored, made.taken, latest, ⟨transition, member, before, after,
    moved, Option.some.inj (left.symm.trans moved.left)⟩, ?_⟩
  intro newest between final steps quiet caller secondId secondNow last again
  have step : run deployment state (.rollbackVersion principal workspaceId agentId eventId now) =
      .ok next := ok
  -- The rollback's own event is now the latest.
  have recorded : LatestMove next workspaceId agentId eventId ⟨workspaceId, agentId,
      some row.versionId, later.versionId, .rolledBack, principal, now⟩ := by
    refine ⟨made.appended.stored, rfl, rfl, rfl, ?_⟩
    intro other otherEvent present belongs _ _
    cases earlier : state.versionEvents.find? other with
    | some known =>
      have same := (run_records step earlier).symm.trans present
      cases same
      exact newest other otherEvent earlier belongs
    | none =>
      have appended : Appended agentId state next other otherEvent := ⟨earlier, present, belongs⟩
      rcases (rollbackVersion_moves ok).2 with ⟨_, _, _, _, _, _, _, _, _, _, _, _, unique⟩
      have same := (unique other otherEvent appended).trans
        (unique eventId _ made.appended).symm
      subst same
      have rows := present.symm.trans made.appended.stored
      cases rows
      exact le_refl _
  obtain ⟨_, final', _, _, _, _, latestAgain, leftAgain, madeAgain⟩ := rollbackVersion_pins again
  obtain ⟨rfl, rfl⟩ := (latestMove_stays recorded steps quiet).unique latestAgain
  rw [madeAgain.taken]
  exact leftAgain.symm

/-- Move instance 30 to the newest version it is offered. -/
def moveNewest : Operation := .moveVersion owner 7 30 none 32 4

/-- The store once that instance moved. -/
def movedStore : Store :=
  ([installFollowing, publishUpdate, moveNewest].foldlM (run exampleDeployment)
    freshStore).toOption.getD freshStore

/-- That store is reached by a run. -/
theorem movedStore_reached :
    ∃ history, (pinMachine exampleDeployment).Runs history movedStore := by
  have replay := eq_ok_getD ([installFollowing, publishUpdate, moveNewest].foldlM
    (run exampleDeployment) freshStore) freshStore (by decide +kernel)
  obtain ⟨history, steps, _⟩ := Machine.steps_of_replay
    (fun store : Store => store.tenantAgents = .empty ∧ store.versionEvents = .empty) replay
  exact ⟨history,
    .ofSteps (show (pinMachine exampleDeployment).Initial freshStore from ⟨rfl, rfl⟩) steps⟩

/-- `rollback_undoes_latest_move` applies to that store: its rollback returns to version 2. -/
theorem rollback_undoes_latest_move_moved : ∃ next,
    rollbackVersion movedStore owner 7 30 33 5 = .ok next ∧
      (∃ row later moveId move, movedStore.tenantAgents.find? 30 = some row ∧
        next.tenantAgents.find? 30 = some later ∧ LatestMove movedStore 7 30 moveId move) ∧
      (next.tenantAgents.find? 30).map TenantAgentRow.versionId = some 2 := by
  obtain ⟨history, runs⟩ := movedStore_reached
  obtain ⟨next, ok, pinned⟩ := exists_ok_of_check (rollbackVersion movedStore owner 7 30 33 5)
    (fun next => (next.tenantAgents.find? 30).map TenantAgentRow.versionId = some 2)
    (by decide +kernel)
  obtain ⟨row, later, moveId, move, stored, taken, latest, _⟩ :=
    (rollback_undoes_latest_move exampleDeployment history movedStore runs owner 7 30 33 5).1
      next ok
  exact ⟨next, ok, ⟨row, later, moveId, move, stored, taken, latest⟩, of_decide_eq_true pinned⟩

/-- The store once that instance was rolled back. -/
def returnedStore : Store :=
  (rollbackVersion movedStore owner 7 30 33 5).toOption.getD freshStore

/-- A second rollback pins the version the first one rolled back from. -/
theorem second_rollback_repins :
    ¬ ∀ (deployment : Deployment) (history : List (Transition Store Operation)) (state : Store),
      (pinMachine deployment).Runs history state →
        ∀ earlier first between second later workspaceId agentId,
          history = earlier ++ first :: (between ++ second :: later) →
          (∀ transition ∈ first :: (between ++ [second]), ∃ principal eventId now,
            transition.label = .rollbackVersion principal workspaceId agentId eventId now) →
          ∀ row, first.before.tenantAgents.find? agentId = some row →
            ∀ repinned, second.after.tenantAgents.find? agentId = some repinned →
              repinned.versionId ≠ row.versionId := by
  intro never
  obtain ⟨earlier, runs⟩ := movedStore_reached
  have first : run exampleDeployment movedStore (.rollbackVersion owner 7 30 33 5) =
      .ok returnedStore := eq_ok_getD _ freshStore (by decide +kernel)
  obtain ⟨final, second, pinned⟩ := exists_ok_of_check
    (run exampleDeployment returnedStore (.rollbackVersion owner 7 30 34 6))
    (fun final => (movedStore.tenantAgents.find? 30).isSome ∧
      (final.tenantAgents.find? 30).map TenantAgentRow.versionId =
        (movedStore.tenantAgents.find? 30).map TenantAgentRow.versionId) (by decide +kernel)
  obtain ⟨present, same⟩ := of_decide_eq_true pinned
  obtain ⟨row, stored⟩ := Option.isSome_iff_exists.mp present
  rw [stored, Option.map_some, Option.map_eq_some_iff] at same
  obtain ⟨repinned, taken, version⟩ := same
  refine never exampleDeployment _ final (.step (.step runs first) second) earlier _ [] _ [] 7 30
    (by rw [List.append_assoc]; rfl) ?_ row stored repinned taken version
  intro transition member
  simp only [List.nil_append, List.mem_cons, List.not_mem_nil, or_false] at member
  obtain rfl | rfl := member
  · exact ⟨owner, 33, 5, rfl⟩
  · exact ⟨owner, 34, 6, rfl⟩

end Nexora.Tenant
