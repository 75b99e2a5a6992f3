import Nexora.Tenant.Pause

/-!
# Moving a pin

What the three operations that move pins do to the store. `PinOnly` is what a move may
change of an instance, `PinsMoved` what it may change of the store: each instance either
stays as it is, with no new version event, or takes another version under exactly one new
event that joins the two pins. A sweep of automatic batches reaches a store that the next
sweep leaves alone.
-/

namespace Nexora.Tenant

open Nexora.Std Nexora.Catalog Nexora.Integration Nexora.Workspace

/-- Nothing changed of an instance but its version, its standing and its time. -/
def PinOnly (row later : TenantAgentRow) : Prop :=
  later = { row with
    versionId := later.versionId, standing := later.standing, updatedAt := later.updatedAt }

/-- A version event an operation appended to an instance's history. -/
structure Appended (agentId : Uuid) (before after : Store) (eventId : Uuid)
    (event : VersionEventRow) : Prop where
  fresh : before.versionEvents.find? eventId = none
  stored : after.versionEvents.find? eventId = some event
  agent : event.tenantAgentId = agentId

/-- An instance and its history are as they were. -/
structure PinKept (agentId : Uuid) (before after : Store) : Prop where
  row : after.tenantAgents.find? agentId = before.tenantAgents.find? agentId
  history : ∀ eventId event, ¬ Appended agentId before after eventId event

/-- An instance took another version, recorded by the one event appended to its history. -/
def PinMoved (agentId : Uuid) (before after : Store) : Prop :=
  ∃ row later eventId event, before.tenantAgents.find? agentId = some row ∧
    after.tenantAgents.find? agentId = some later ∧ PinOnly row later ∧
    later.versionId ≠ row.versionId ∧ Appended agentId before after eventId event ∧
    event.workspaceId = row.workspaceId ∧ event.fromVersionId = some row.versionId ∧
    event.toVersionId = later.versionId ∧
    ∀ other otherEvent, Appended agentId before after other otherEvent → other = eventId

/-- Pins of the touched instances moved, and nothing else changed. -/
structure PinsMoved (touched : Uuid → Prop) (before after : Store) : Prop where
  elsewhere : after = { before with
    tenantAgents := after.tenantAgents, versionEvents := after.versionEvents }
  recorded : ∀ eventId event, before.versionEvents.find? eventId = some event →
    after.versionEvents.find? eventId = some event
  instances : ∀ agentId, PinKept agentId before after ∨ PinMoved agentId before after
  untouched : ∀ agentId, ¬ touched agentId → PinKept agentId before after

theorem PinKept.refl (agentId : Uuid) (store : Store) : PinKept agentId store store := by
  refine ⟨rfl, ?_⟩
  rintro eventId event ⟨fresh, stored, _⟩
  rw [fresh] at stored
  cases stored

/-- What is appended over two changes is appended by one of them. -/
theorem Appended.cases {agentId eventId : Uuid} {event : VersionEventRow}
    {first second third : Store}
    (recorded : ∀ eventId event, second.versionEvents.find? eventId = some event →
      third.versionEvents.find? eventId = some event)
    (appended : Appended agentId first third eventId event) :
    Appended agentId first second eventId event ∨ Appended agentId second third eventId event := by
  cases between : second.versionEvents.find? eventId with
  | none => exact .inr ⟨between, appended.stored, appended.agent⟩
  | some earlier =>
    have same := (recorded eventId earlier between).symm.trans appended.stored
    cases same
    exact .inl ⟨appended.fresh, between, appended.agent⟩

section Compose

variable {agentId : Uuid} {first second third : Store} {early late : Uuid → Prop}

theorem PinKept.trans
    (recorded : ∀ eventId event, second.versionEvents.find? eventId = some event →
      third.versionEvents.find? eventId = some event)
    (before : PinKept agentId first second) (after : PinKept agentId second third) :
    PinKept agentId first third where
  row := after.row.trans before.row
  history eventId event appended := by
    rcases appended.cases recorded with appended | appended
    · exact before.history eventId event appended
    · exact after.history eventId event appended

/-- A move that nothing follows. -/
theorem PinMoved.kept
    (recorded : ∀ eventId event, second.versionEvents.find? eventId = some event →
      third.versionEvents.find? eventId = some event)
    (moved : PinMoved agentId first second) (kept : PinKept agentId second third) :
    PinMoved agentId first third := by
  obtain ⟨row, later, eventId, event, stored, taken, only, distinct, appended, workspace, left,
    reached, unique⟩ := moved
  refine ⟨row, later, eventId, event, stored, kept.row.trans taken, only, distinct,
    ⟨appended.fresh, recorded eventId event appended.stored, appended.agent⟩, workspace, left,
    reached, ?_⟩
  intro other otherEvent added
  rcases added.cases recorded with added | added
  · exact unique other otherEvent added
  · exact absurd added (kept.history other otherEvent)

/-- A move that nothing precedes. -/
theorem PinKept.moved
    (early : ∀ eventId event, first.versionEvents.find? eventId = some event →
      second.versionEvents.find? eventId = some event)
    (recorded : ∀ eventId event, second.versionEvents.find? eventId = some event →
      third.versionEvents.find? eventId = some event)
    (kept : PinKept agentId first second) (moved : PinMoved agentId second third) :
    PinMoved agentId first third := by
  obtain ⟨row, later, eventId, event, stored, taken, only, distinct, appended, workspace, left,
    reached, unique⟩ := moved
  have fresh : first.versionEvents.find? eventId = none := by
    cases present : first.versionEvents.find? eventId with
    | none => rfl
    | some earlier =>
      have known := early eventId earlier present
      rw [appended.fresh] at known
      cases known
  refine ⟨row, later, eventId, event, kept.row.symm.trans stored, taken, only, distinct,
    ⟨fresh, appended.stored, appended.agent⟩, workspace, left, reached, ?_⟩
  intro other otherEvent added
  rcases added.cases recorded with added | added
  · exact absurd added (kept.history other otherEvent)
  · exact unique other otherEvent added

theorem PinsMoved.refl (touched : Uuid → Prop) (store : Store) : PinsMoved touched store store :=
  ⟨rfl, fun _ _ stored => stored, fun agentId => .inl (.refl agentId store),
    fun agentId _ => .refl agentId store⟩

/-- Two changes that touch different instances. -/
theorem PinsMoved.trans (before : PinsMoved early first second)
    (after : PinsMoved late second third) (apart : ∀ agentId, early agentId → ¬ late agentId) :
    PinsMoved (fun agentId => early agentId ∨ late agentId) first third where
  elsewhere := by
    rw [after.elsewhere, before.elsewhere]
  recorded eventId event stored :=
    after.recorded eventId event (before.recorded eventId event stored)
  instances agentId := by
    by_cases touched : early agentId
    · have kept := after.untouched agentId (apart agentId touched)
      rcases before.instances agentId with stays | moved
      · exact .inl (stays.trans after.recorded kept)
      · exact .inr (moved.kept after.recorded kept)
    · have kept := before.untouched agentId touched
      rcases after.instances agentId with stays | moved
      · exact .inl (kept.trans after.recorded stays)
      · exact .inr (kept.moved before.recorded after.recorded moved)
  untouched agentId spared := by
    have kept := before.untouched agentId fun touched => spared (.inl touched)
    exact kept.trans after.recorded (after.untouched agentId fun touched => spared (.inr touched))

end Compose

section Operations

variable {deployment : Deployment} {store next moved : Store} {principal : Principal}
  {workspaceId agentId target : Uuid} {now : Instant} {row : TenantAgentRow}
  {action : VersionAction} {eventId : Uuid} {limit : Nat} {cursor : Option Uuid}
  {locked : List Uuid}

/-- A recorded version event is the one row the history gains. -/
theorem recordVersion_eq {fromVersionId : Option Uuid} {toVersionId : Uuid}
    (ok : recordVersion store principal workspaceId agentId fromVersionId toVersionId action eventId
      now = .ok next) :
    ∃ event : VersionEventRow, event = ⟨workspaceId, agentId, fromVersionId, toVersionId, action,
        principal, now⟩ ∧ store.versionEvents.find? eventId = none ∧
      next = { store with versionEvents := store.versionEvents.put eventId event } := by
  simp only [recordVersion, bind_eq_ok, inserted_eq_ok, Table.insert?_eq_some, pure_eq_ok] at ok
  obtain ⟨_, ⟨free, rfl⟩, rfl⟩ := ok
  exact ⟨_, rfl, free, rfl⟩

/-- A moved pin changes the instance's row, appends its event and does nothing else. -/
theorem repin_eq (stored : store.tenantAgents.find? agentId = some row)
    (own : row.workspaceId = workspaceId)
    (move : repin store principal workspaceId agentId row.versionId target action eventId now =
      .ok moved) :
    store.versionEvents.find? eventId = none ∧
      moved.tenantAgents.find? agentId =
        some { row with versionId := target, updatedAt := now } ∧
      moved.versionEvents = store.versionEvents.put eventId ⟨workspaceId, agentId,
        some row.versionId, target, action, principal, now⟩ ∧
      moved = { store with
        tenantAgents := moved.tenantAgents, versionEvents := moved.versionEvents } := by
  obtain ⟨event, rfl, free, rfl⟩ := recordVersion_eq move
  exact ⟨free, by simp [stored, own], rfl, rfl⟩

/-- Settling keeps what a move keeps. -/
theorem settledRow_pinOnly {moved : TenantAgentRow} (only : PinOnly row moved) (ready : Bool)
    (now : Instant) : PinOnly row (settledRow moved ready now) := by
  unfold PinOnly at only ⊢
  rw [only]
  unfold settledRow
  split <;> rfl

/-- Moving a pin to another version and settling the instance. -/
theorem repin_settle_pinsMoved (required : AgentManifest)
    (stored : store.tenantAgents.find? agentId = some row) (own : row.workspaceId = workspaceId)
    (distinct : target ≠ row.versionId)
    (move : repin store principal workspaceId agentId row.versionId target action eventId now =
      .ok moved) :
    PinsMoved (· = agentId) store (settleStatus moved workspaceId agentId required now) ∧
      PinMoved agentId store (settleStatus moved workspaceId agentId required now) ∧
      ∃ later, (settleStatus moved workspaceId agentId required now).tenantAgents.find? agentId =
        some later ∧ PinOnly row later ∧ later.versionId = target := by
  obtain ⟨free, repinned, history, elsewhere⟩ := repin_eq stored own move
  set event : VersionEventRow := ⟨workspaceId, agentId, some row.versionId, target, action,
    principal, now⟩ with recorded
  set after := settleStatus moved workspaceId agentId required now with settled
  have taken := settleStatus_find moved workspaceId agentId required now repinned own
  set later := settledRow { row with versionId := target, updatedAt := now }
    (readiness required (boundStatus moved workspaceId agentId)) now with settles
  have only : PinOnly row later := by
    apply settledRow_pinOnly
    rfl
  have version : later.versionId = target := by rw [settles, settledRow_versionId]
  have events : after.versionEvents = store.versionEvents.put eventId event := by
    rw [settled, ← history]
    rfl
  have appended (other : Uuid) (id : Uuid) (row : VersionEventRow)
      (added : Appended other store after id row) : id = eventId ∧ row = event := by
    have written := added.stored
    rw [events, Table.find?_put_eq] at written
    split at written
    · next same => exact ⟨same, (Option.some.inj written).symm⟩
    · rw [added.fresh] at written
      cases written
  have moves : PinMoved agentId store after := by
    refine ⟨row, later, eventId, event, stored, taken, only, version ▸ distinct,
      ⟨free, ?_, ?_⟩, ?_, ?_, ?_, fun other otherEvent added => (appended _ _ _ added).1⟩
    · rw [events, Table.find?_put]
    · rw [recorded]
    · rw [recorded, own]
    · rw [recorded]
    · rw [recorded, version]
  have untouched : ∀ other, ¬ other = agentId → PinKept other store after := by
    intro other apart
    refine ⟨((repin_othersKept move).trans
      (settleStatus_othersKept _ workspaceId agentId required now)).agents other apart, ?_⟩
    intro id row added
    have own := added.agent
    rw [(appended _ _ _ added).2, recorded] at own
    exact apart own.symm
  refine ⟨⟨?_, ?_, ?_, untouched⟩, moves, later, taken, only, version⟩
  · rw [settled, elsewhere]
    rfl
  · intro id row present
    rw [events, Table.find?_put_ne _ _ ?_, present]
    rintro rfl
    rw [free] at present
    cases present
  · intro other
    by_cases same : other = agentId
    · exact .inr (same ▸ moves)
    · exact .inl (untouched other same)

/-- A move to the version already pinned changes nothing; any other moves its instance's
pin alone. -/
theorem moveVersion_moves {version : Option Version}
    (ok : moveVersion deployment store principal workspaceId agentId version eventId now =
      .ok next) :
    (next = store ∧ ∃ row, store.tenantAgents.find? agentId = some row ∧
        moveTarget deployment store row version = .ok row.versionId) ∨
      PinsMoved (· = agentId) store next ∧ PinMoved agentId store next := by
  simp only [moveVersion, bind_eq_ok] at ok
  obtain ⟨_, _, row, known, target, reached, ok⟩ := ok
  obtain ⟨stored, own⟩ := instanceRow_ok known
  by_cases same : target = row.versionId
  · rw [if_pos same, pure_eq_ok] at ok
    exact .inl ⟨ok.symm, row, stored, same ▸ reached⟩
  · rw [if_neg same] at ok
    simp only [bind_eq_ok, pure_eq_ok] at ok
    obtain ⟨required, _, _, _, moved, move, rfl⟩ := ok
    have moves := repin_settle_pinsMoved required stored own same move
    exact .inr ⟨moves.1, moves.2.1⟩

/-- A rollback moves its instance's pin alone. -/
theorem rollbackVersion_moves
    (ok : rollbackVersion store principal workspaceId agentId eventId now = .ok next) :
    PinsMoved (· = agentId) store next ∧ PinMoved agentId store next := by
  simp only [rollbackVersion, bind_eq_ok, orRaise_eq_ok, Option.filter_eq_some_iff,
    decide_eq_true_eq, pure_eq_ok] at ok
  obtain ⟨_, _, row, known, target, ⟨_, distinct⟩, required, _, moved, move, rfl⟩ := ok
  obtain ⟨stored, own⟩ := instanceRow_ok known
  have moves := repin_settle_pinsMoved required stored own distinct move
  exact ⟨moves.1, moves.2.1⟩

/-- The automatic target of an instance is what it is offered: another version than its pin,
which this runtime serves. -/
theorem automaticTarget_eq_some {number : Version} {required : AgentManifest}
    (reached : automaticTarget deployment store row = .ok (some (target, number, required))) :
    offeredVersion deployment.sha256 store.catalog.tables row.catalogAgentId row.workspaceId
        row.updateChannel = some (target, number) ∧ target ≠ row.versionId ∧
      manifest store target = .ok required ∧
      deployment.runtimeVersion.satisfiesMinimum required.minRuntimeVersion = true := by
  unfold automaticTarget at reached
  split at reached
  · simp only [pure_eq_ok, reduceCtorEq] at reached
  · next offered =>
    split at reached
    · simp only [pure_eq_ok, reduceCtorEq] at reached
    · next distinct =>
      simp only [bind_eq_ok] at reached
      obtain ⟨required, published, reached⟩ := reached
      split at reached
      · simp only [pure_eq_ok, reduceCtorEq] at reached
      · next served =>
        simp only [pure_eq_ok, Option.some.injEq, Prod.mk.injEq] at reached
        obtain ⟨rfl, rfl, rfl⟩ := reached
        exact ⟨offered, distinct, published, by simpa using served⟩

/-- One automatic update moves at most its instance's pin. -/
theorem automaticUpdate_moves (stored : store.tenantAgents.find? agentId = some row)
    (ok : automaticUpdate deployment store agentId row eventId now = .ok next) :
    PinsMoved (· = agentId) store next := by
  obtain rfl | ⟨target, number, required, action, moved, offered, move, rfl⟩ :=
    automaticUpdate_ok ok
  · exact .refl _ _
  · have distinct := (automaticTarget_eq_some offered).2.1
    exact (repin_settle_pinsMoved required stored rfl distinct move).1

/-- A batch of automatic updates over distinct instances moves the pins of those alone. -/
theorem automaticUpdates_move {eventId : Uuid → Uuid} {batch : List (Uuid × TenantAgentRow)}
    (stored : ∀ entry ∈ batch, store.tenantAgents.find? entry.1 = some entry.2)
    (distinct : (batch.map Prod.fst).Nodup)
    (ok : batch.foldlM
      (fun current entry =>
        automaticUpdate deployment current entry.1 entry.2 (eventId entry.1) now) store =
        .ok next) : PinsMoved (fun agentId => agentId ∈ batch.map Prod.fst) store next := by
  induction batch generalizing store with
  | nil =>
    rw [List.foldlM_nil, pure_eq_ok] at ok
    subst ok
    exact .refl _ _
  | cons entry rest ih =>
    rw [List.foldlM_cons, bind_eq_ok] at ok
    obtain ⟨first, update, others⟩ := ok
    rw [List.map_cons, List.nodup_cons] at distinct
    have head := automaticUpdate_moves (stored entry (by simp)) update
    -- The rows still to be visited are those the batch was read with.
    have unchanged : ∀ later ∈ rest, first.tenantAgents.find? later.1 = some later.2 := by
      intro later member
      have apart : ¬ later.1 = entry.1 := by
        intro same
        exact distinct.1 (same ▸ List.mem_map_of_mem member)
      rw [(head.untouched later.1 apart).row]
      exact stored later (by simp [member])
    have tail := ih unchanged distinct.2 others
    have both := head.trans tail (by
      rintro agentId rfl
      exact distinct.1)
    refine ⟨both.elsewhere, both.recorded, both.instances, ?_⟩
    intro agentId spared
    exact both.untouched agentId (by simpa using spared)

/-- The instances of a batch are enabled automatic ones, as the store has them. -/
theorem mem_automaticBatch {entry : Uuid × TenantAgentRow}
    (member : entry ∈ automaticBatch store limit cursor locked) :
    store.tenantAgents.find? entry.1 = some entry.2 := by
  have selected := List.mem_of_mem_take member
  rw [List.mem_insertionSort, Table.mem_select] at selected
  exact selected.1

/-- No instance is in a batch twice. -/
theorem nodup_automaticBatch (store : Store) (limit : Nat) (cursor : Option Uuid)
    (locked : List Uuid) : ((automaticBatch store limit cursor locked).map Prod.fst).Nodup := by
  unfold automaticBatch
  refine ((List.take_sublist _ _).map Prod.fst).nodup ?_
  rw [((List.perm_insertionSort _ _).map Prod.fst).nodup_iff]
  exact Table.nodup_select _ _

/-- An automatic batch moves the pins of its instances alone. -/
theorem applyAutomaticUpdates_moves {eventId : Uuid → Uuid}
    (ok : applyAutomaticUpdates deployment store limit cursor locked eventId now = .ok next) :
    PinsMoved (fun agentId =>
      agentId ∈ (automaticBatch store limit cursor locked).map Prod.fst) store next := by
  simp only [applyAutomaticUpdates, bind_eq_ok] at ok
  obtain ⟨_, _, updates⟩ := ok
  exact automaticUpdates_move (fun entry member => mem_automaticBatch member)
    (nodup_automaticBatch store limit cursor locked) updates

end Operations

end Nexora.Tenant
