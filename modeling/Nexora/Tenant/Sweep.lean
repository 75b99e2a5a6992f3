import Nexora.Tenant.Moves

/-!
# Sweeping the automatic instances

The scheduler drains the automatic instances in pages of one size: each page starts after
the last instance of the one before, and a page that is not full ends the sweep. After a
sweep that skipped no locked instance every enabled automatic instance follows its offer,
so the next sweep of the same catalog finds nothing to do.
-/

namespace Nexora.Tenant

open Nexora.Std Nexora.Catalog Nexora.Integration Nexora.Workspace

/-- The cursor a batch leaves: its last instance, when the batch is full. -/
def nextCursor (batch : List (Uuid × TenantAgentRow)) (limit : Nat) : Option Uuid :=
  if batch.length = limit then batch.getLast?.map Prod.fst else none

/-- A complete sweep from a cursor on: batches that skip no locked instance, up to the first
that is not full. -/
inductive Sweep (deployment : Deployment) (limit : Nat) :
    Option Uuid → Store → Store → Prop where
  | last {cursor store next eventId now}
      (ok : applyAutomaticUpdates deployment store limit cursor [] eventId now = .ok next)
      (ends : nextCursor (automaticBatch store limit cursor []) limit = none) :
      Sweep deployment limit cursor store next
  | more {cursor store next final later eventId now}
      (ok : applyAutomaticUpdates deployment store limit cursor [] eventId now = .ok next)
      (continues : nextCursor (automaticBatch store limit cursor []) limit = some later)
      (rest : Sweep deployment limit (some later) next final) :
      Sweep deployment limit cursor store final

/-- An instance whose automatic update has nothing to do. -/
def Follows (deployment : Deployment) (store : Store) (agentId : Uuid) : Prop :=
  ∃ row, store.tenantAgents.find? agentId = some row ∧
    automaticTarget deployment store row = .ok none

/-- An instance a sweep visits. -/
def Visited (row : TenantAgentRow) : Prop :=
  row.updateMode = .automatic ∧ row.standing ≠ .disabled

/-- Every visited instance a cursor has passed follows its offer. -/
def SettledUpTo (deployment : Deployment) (passed : Uuid → Prop) (store : Store) : Prop :=
  ∀ agentId row, store.tenantAgents.find? agentId = some row → Visited row → passed agentId →
    automaticTarget deployment store row = .ok none

/-- The instances before a cursor, and the one at it. -/
def Passed (cursor : Option Uuid) (agentId : Uuid) : Prop :=
  ∃ last ∈ cursor, agentId ≤ last

section Batch

variable {deployment : Deployment} {store next : Store} {now : Instant} {agentId : Uuid}
  {cursor : Option Uuid} {eventId : Uuid → Uuid} {limit : Nat} {row : TenantAgentRow}
  {batch : List (Uuid × TenantAgentRow)}

/-- A batch keeps the catalog. -/
theorem PinsMoved.catalog {touched : Uuid → Prop} (moves : PinsMoved touched store next) :
    next.catalog = store.catalog := by
  rw [moves.elsewhere]

/-- What an automatic update makes of its instance: nothing without a target, else an instance
pinned to the target. -/
inductive Updated (deployment : Deployment) (store : Store) (agentId : Uuid)
    (row : TenantAgentRow) (next : Store) : Prop where
  | idle (none : automaticTarget deployment store row = .ok none)
      (stays : next.tenantAgents.find? agentId = some row)
  | moved {target number required later}
      (reached : automaticTarget deployment store row = .ok (some (target, number, required)))
      (taken : next.tenantAgents.find? agentId = some later) (only : PinOnly row later)
      (version : later.versionId = target)

theorem automaticUpdate_updated {eventId : Uuid}
    (stored : store.tenantAgents.find? agentId = some row)
    (ok : automaticUpdate deployment store agentId row eventId now = .ok next) :
    Updated deployment store agentId row next := by
  simp only [automaticUpdate, bind_eq_ok] at ok
  obtain ⟨offer, offered, ok⟩ := ok
  cases offer with
  | none =>
    rw [pure_eq_ok] at ok
    subst ok
    exact .idle offered stored
  | some move =>
    obtain ⟨target, number, required⟩ := move
    simp only [bind_eq_ok, pure_eq_ok] at ok
    obtain ⟨_, _, moved, repinned, rfl⟩ := ok
    obtain ⟨_, distinct, _⟩ := automaticTarget_eq_some offered
    obtain ⟨_, _, later, taken, only, version⟩ :=
      repin_settle_pinsMoved required stored rfl distinct repinned
    exact .moved offered taken only version

/-- What a batch over distinct instances makes of each of them. -/
theorem automaticUpdates_updated
    (stored : ∀ entry ∈ batch, store.tenantAgents.find? entry.1 = some entry.2)
    (distinct : (batch.map Prod.fst).Nodup)
    (ok : batch.foldlM
      (fun current entry =>
        automaticUpdate deployment current entry.1 entry.2 (eventId entry.1) now) store =
        .ok next) : ∀ entry ∈ batch, Updated deployment store entry.1 entry.2 next := by
  induction batch generalizing store with
  | nil =>
    intro entry member
    cases member
  | cons entry rest ih =>
    rw [List.foldlM_cons, bind_eq_ok] at ok
    obtain ⟨first, update, others⟩ := ok
    rw [List.map_cons, List.nodup_cons] at distinct
    have head := automaticUpdate_moves (stored entry (by simp)) update
    have unchanged : ∀ later ∈ rest, first.tenantAgents.find? later.1 = some later.2 := by
      intro later member
      have apart : ¬ later.1 = entry.1 := by
        intro same
        exact distinct.1 (same ▸ List.mem_map_of_mem member)
      rw [(head.untouched later.1 apart).row]
      exact stored later (by simp [member])
    intro visited member
    rcases List.mem_cons.mp member with rfl | later
    · -- The updates that follow leave this instance alone.
      have kept := (automaticUpdates_move unchanged distinct.2 others).untouched visited.1
        distinct.1
      cases automaticUpdate_updated (stored visited (by simp)) update with
      | idle none stays => exact .idle none (kept.row.trans stays)
      | moved reached taken only version =>
        exact .moved reached (kept.row.trans taken) only version
    · cases ih unchanged distinct.2 others visited later with
      | idle none stays =>
        rw [automaticTarget_congr head.catalog] at none
        exact .idle none stays
      | moved reached taken only version =>
        rw [automaticTarget_congr head.catalog] at reached
        exact .moved reached taken only version

/-- After its automatic update an instance follows its offer. -/
theorem Updated.follows (catalog : next.catalog = store.catalog)
    (updated : Updated deployment store agentId row next) : Follows deployment next agentId := by
  cases updated with
  | idle none stays => exact ⟨row, stays, (automaticTarget_congr catalog row).trans none⟩
  | @moved target number required later reached taken only version =>
    refine ⟨later, taken, ?_⟩
    rw [automaticTarget_congr catalog]
    unfold PinOnly at only
    -- What it is offered depends on nothing a move changes, and it is now pinned to that.
    have same : offeredVersion deployment.sha256 store.catalog.tables later.catalogAgentId
        later.workspaceId later.updateChannel = some (target, number) := by
      rw [only]
      exact (automaticTarget_eq_some reached).1
    unfold automaticTarget
    rw [same]
    simp only [version, if_true]
    rfl

/-- What an automatic batch makes of each of its instances. -/
theorem applyAutomaticUpdates_updated {locked : List Uuid}
    (ok : applyAutomaticUpdates deployment store limit cursor locked eventId now = .ok next) :
    ∀ entry ∈ automaticBatch store limit cursor locked,
      Updated deployment store entry.1 entry.2 next := by
  simp only [applyAutomaticUpdates, bind_eq_ok] at ok
  obtain ⟨_, _, updates⟩ := ok
  exact automaticUpdates_updated (fun entry member => mem_automaticBatch member)
    (nodup_automaticBatch store limit cursor locked) updates

/-- An instance ahead of the cursor is in the batch, or the batch is full and all before it. -/
theorem mem_automaticBatch_or_later (stored : store.tenantAgents.find? agentId = some row)
    (visited : Visited row) (ahead : ¬ Passed cursor agentId) :
    (agentId, row) ∈ automaticBatch store limit cursor [] ∨
      (automaticBatch store limit cursor []).length = limit ∧
        ∀ entry ∈ automaticBatch store limit cursor [], entry.1 < agentId := by
  have beyond : ∀ last, cursor = some last → last < agentId := by
    intro last same
    by_contra behind
    exact ahead ⟨last, same, Nat.le_of_not_lt behind⟩
  unfold automaticBatch
  set candidates := store.tenantAgents.select _ with chosen
  have candidate : (agentId, row) ∈ candidates := by
    rw [chosen, Table.mem_select]
    refine ⟨stored, ?_⟩
    cases cursor with
    | none => simp [visited.1, visited.2]
    | some last => simp [visited.1, visited.2, beyond last rfl]
  have distinct : (candidates.map Prod.fst).Nodup := Table.nodup_select _ _
  set sorted := candidates.insertionSort fun left right => left.1 ≤ right.1 with ordered
  change (agentId, row) ∈ sorted.take limit ∨ (sorted.take limit).length = limit ∧
    ∀ entry ∈ sorted.take limit, entry.1 < agentId
  have total : Std.Total fun left right : Uuid × TenantAgentRow => left.1 ≤ right.1 :=
    ⟨fun left right => Nat.le_total left.1 right.1⟩
  have transitive : IsTrans (Uuid × TenantAgentRow) fun left right => left.1 ≤ right.1 :=
    ⟨fun _ _ _ => Nat.le_trans⟩
  have ascending : sorted.Pairwise fun left right => left.1 ≤ right.1 :=
    List.pairwise_insertionSort _ candidates
  have unique : sorted.Pairwise fun left right => left.1 ≠ right.1 := by
    rw [← List.pairwise_map]
    exact ((List.perm_insertionSort _ candidates).map Prod.fst).nodup_iff.mpr distinct
  have member : (agentId, row) ∈ sorted.take limit ++ sorted.drop limit := by
    rw [List.take_append_drop, ordered, List.mem_insertionSort]
    exact candidate
  rcases List.mem_append.mp member with batched | later
  · exact .inl batched
  · have longer : limit < sorted.length := by
      by_contra short
      rw [List.drop_eq_nil_of_le (Nat.le_of_not_lt short)] at later
      cases later
    refine .inr ⟨by rw [List.length_take]; omega, ?_⟩
    rw [← List.take_append_drop limit sorted, List.pairwise_append] at ascending unique
    intro entry before
    exact Nat.lt_of_le_of_ne (ascending.2.2 entry before _ later) (unique.2.2 entry before _ later)

/-- One page of a sweep: what its cursor has passed follows its offer, and once the page is
the last one everything does. -/
theorem applyAutomaticUpdates_settles (settled : SettledUpTo deployment (Passed cursor) store)
    (ok : applyAutomaticUpdates deployment store limit cursor [] eventId now = .ok next) :
    match nextCursor (automaticBatch store limit cursor []) limit with
    | some later => SettledUpTo deployment (Passed (some later)) next
    | none => SettledUpTo deployment (fun _ => True) next := by
  have moves := applyAutomaticUpdates_moves ok
  have positive : 1 ≤ limit := by
    simp only [applyAutomaticUpdates, bind_eq_ok, raiseIf_eq_ok] at ok
    omega
  have followed : ∀ entry ∈ automaticBatch store limit cursor [],
      Follows deployment next entry.1 :=
    fun entry member => (applyAutomaticUpdates_updated ok entry member).follows moves.catalog
  -- An instance the batch did not visit is unchanged, and ahead of everything it visited.
  have reached : ∀ agentId row, next.tenantAgents.find? agentId = some row → Visited row →
      automaticTarget deployment next row = .ok none ∨
        (automaticBatch store limit cursor []).length = limit ∧
          ∀ entry ∈ automaticBatch store limit cursor [], entry.1 < agentId := by
    intro agentId row stored visited
    by_cases batched : agentId ∈ (automaticBatch store limit cursor []).map Prod.fst
    · obtain ⟨entry, member, rfl⟩ := List.mem_map.mp batched
      obtain ⟨later, present, idle⟩ := followed entry member
      have same := stored.symm.trans present
      cases same
      exact .inl idle
    · have kept := moves.untouched agentId batched
      rw [kept.row] at stored
      by_cases passed : Passed cursor agentId
      · rw [automaticTarget_congr moves.catalog]
        exact .inl (settled agentId row stored visited passed)
      · rcases mem_automaticBatch_or_later stored visited passed with member | later
        · exact absurd (List.mem_map_of_mem member) batched
        · exact .inr later
  unfold nextCursor
  split
  next cursor later continues =>
    split at continues
    · obtain ⟨final, isLast, rfl⟩ := Option.map_eq_some_iff.mp continues
      rintro agentId row stored visited ⟨last, same, passed⟩
      obtain rfl : final.1 = last := Option.some.inj same
      rcases reached agentId row stored visited with idle | ⟨_, ahead⟩
      · exact idle
      · have beyond := ahead final (List.mem_of_getLast? isLast)
        exact absurd passed (Nat.not_le_of_gt beyond)
    · cases continues
  next ends =>
    rintro agentId row stored visited -
    rcases reached agentId row stored visited with idle | ⟨full, _⟩
    · exact idle
    · rw [if_pos full, Option.map_eq_none_iff, List.getLast?_eq_none_iff] at ends
      rw [ends, List.length_nil] at full
      omega

/-- A complete sweep leaves every enabled automatic instance following its offer. -/
theorem Sweep.settles (sweep : Sweep deployment limit cursor store next)
    (settled : SettledUpTo deployment (Passed cursor) store) :
    SettledUpTo deployment (fun _ => True) next := by
  induction sweep with
  | last ok ends =>
    have settles := applyAutomaticUpdates_settles settled ok
    rwa [ends] at settles
  | more ok continues _ ih =>
    have settles := applyAutomaticUpdates_settles settled ok
    rw [continues] at settles
    exact ih settles

/-- A batch over instances that follow their offers does nothing. -/
theorem automaticUpdates_idle
    (idle : ∀ entry ∈ batch, automaticTarget deployment store entry.2 = .ok none)
    (ok : batch.foldlM
      (fun current entry =>
        automaticUpdate deployment current entry.1 entry.2 (eventId entry.1) now) store =
        .ok next) : next = store := by
  refine foldlM_invariant (· = store) ?_ rfl ok
  rintro current entry member later rfl update
  simp only [automaticUpdate, bind_eq_ok] at update
  obtain ⟨offer, offered, update⟩ := update
  rw [idle entry member] at offered
  cases offered
  rw [pure_eq_ok] at update
  exact update.symm

/-- A sweep of instances that all follow their offers changes nothing. -/
theorem Sweep.idle (sweep : Sweep deployment limit cursor store next)
    (settled : SettledUpTo deployment (fun _ => True) store) : next = store := by
  have page {cursor : Option Uuid} {store next : Store} {eventId : Uuid → Uuid} {now : Instant}
      (settled : SettledUpTo deployment (fun _ => True) store)
      (ok : applyAutomaticUpdates deployment store limit cursor [] eventId now = .ok next) :
      next = store := by
    simp only [applyAutomaticUpdates, bind_eq_ok] at ok
    obtain ⟨_, _, updates⟩ := ok
    apply automaticUpdates_idle ?_ updates
    intro entry member
    have selected := List.mem_of_mem_take member
    rw [List.mem_insertionSort, Table.mem_select] at selected
    simp only [Bool.and_eq_true, decide_eq_true_eq] at selected
    exact settled entry.1 entry.2 selected.1 ⟨selected.2.1.1.1, selected.2.1.1.2⟩ trivial
  induction sweep with
  | last ok ends => exact page settled ok
  | more ok continues _ ih =>
    obtain rfl := page settled ok
    exact ih settled

end Batch

/-- A version move touches only the version. A move to the version already pinned changes
nothing; any other move, a rollback and each update of an automatic batch change the version,
standing and time of their instance and append the one event that joins the two pins. A sweep
that follows a complete sweep of the same catalog and instances changes nothing. -/
theorem version_moves_pin_only (deployment : Deployment) (store next : Store) :
    (∀ principal workspaceId agentId version eventId now,
      moveVersion deployment store principal workspaceId agentId version eventId now = .ok next →
        PinsMoved (· = agentId) store next ∧
          (PinMoved agentId store next ∨
            next = store ∧ ∃ row, store.tenantAgents.find? agentId = some row ∧
              moveTarget deployment store row version = .ok row.versionId)) ∧
      (∀ principal workspaceId agentId eventId now,
        rollbackVersion store principal workspaceId agentId eventId now = .ok next →
          PinsMoved (· = agentId) store next ∧ PinMoved agentId store next) ∧
      (∀ limit cursor locked eventId now,
        applyAutomaticUpdates deployment store limit cursor locked eventId now = .ok next →
          PinsMoved (fun agentId =>
            agentId ∈ (automaticBatch store limit cursor locked).map Prod.fst) store next) ∧
      ∀ limit again later final, Sweep deployment limit none store next →
        later.catalog = next.catalog → later.tenantAgents = next.tenantAgents →
          Sweep deployment again none later final → final = later := by
  refine ⟨?_, fun _ _ _ _ _ ok => rollbackVersion_moves ok,
    fun _ _ _ _ _ ok => applyAutomaticUpdates_moves ok, ?_⟩
  · intro principal workspaceId agentId version eventId now ok
    rcases moveVersion_moves ok with ⟨rfl, pinned⟩ | ⟨moves, moved⟩
    · exact ⟨.refl _ _, .inr ⟨rfl, pinned⟩⟩
    · exact ⟨moves, .inl moved⟩
  · intro limit again later final first catalog agents second
    have settled : SettledUpTo deployment (fun _ => True) next := by
      apply first.settles
      rintro agentId row stored visited ⟨last, impossible, _⟩
      cases impossible
    apply second.idle
    intro agentId row stored visited passed
    rw [agents] at stored
    rw [automaticTarget_congr catalog]
    exact settled agentId row stored visited passed

/-- Install the content agent as instance 30, following new releases by itself. -/
def installFollowing : Operation :=
  .install owner 7
    { slug := "content", displayName := none, updateChannel := none, updateMode := some .automatic,
      bindings := ⟨[], by decide⟩, bounded := by decide } 30 31 2

/-- Publish version 1.1.0 of the content agent as version 3. -/
def publishUpdate : Operation :=
  .catalog (.publishVersion "content" { contentManifest with version := ⟨1, 1, 0⟩ } 3 3)

/-- The store with an instance on version 1.0.0 of an agent whose newest one is 1.1.0. -/
def outdatedStore : Store :=
  ([installFollowing, publishUpdate].foldlM (run exampleDeployment) freshStore).toOption.getD
    freshStore

/-- `version_moves_pin_only` applies to moving that instance to the newest version. -/
theorem version_moves_pin_only_outdated : ∃ next,
    moveVersion exampleDeployment outdatedStore owner 7 30 none 32 4 = .ok next ∧
      PinsMoved (· = 30) outdatedStore next := by
  have moved := eq_ok_getD (moveVersion exampleDeployment outdatedStore owner 7 30 none 32 4)
    freshStore (by decide +kernel)
  exact ⟨_, moved, ((version_moves_pin_only _ _ _).1 owner 7 30 none 32 4 moved).1⟩

/-- A successful move to the version already pinned appends no event. -/
theorem pinned_move_appends_nothing :
    ¬ ∀ (deployment : Deployment) (history : List (Transition Store Operation))
        (store next : Store) (principal : Principal) (workspaceId agentId : Uuid)
        (version : Option Version) (eventId : Uuid) (now : Instant),
      (machine deployment).Runs history store →
        moveVersion deployment store principal workspaceId agentId version eventId now =
          .ok next →
          ∃ id event, Appended agentId store next id event := by
  intro appends
  obtain ⟨history, store, runs, _, pinned⟩ := exists_run exampleDeployment [installFollowing]
    freshStore
    (fun store => (moveVersion exampleDeployment store owner 7 30 none 32 4).toOption.any
      fun next => store.versionEvents.entries.length = 1 ∧
        next.versionEvents.entries = store.versionEvents.entries) rfl (by decide +kernel)
  obtain ⟨next, moved, same⟩ := (Option.any_eq_true _ _).mp pinned
  have ok : moveVersion exampleDeployment store owner 7 30 none 32 4 = .ok next := by
    cases computed : moveVersion exampleDeployment store owner 7 30 none 32 4 with
    | error raised =>
      rw [computed] at moved
      cases moved
    | ok result =>
      rw [computed] at moved
      cases moved
      rfl
  obtain ⟨id, event, fresh, stored, _⟩ :=
    appends exampleDeployment history store next owner 7 30 none 32 4 runs ok
  rw [← Table.mem_entries, (of_decide_eq_true same).2, Table.mem_entries, fresh] at stored
  cases stored

end Nexora.Tenant
