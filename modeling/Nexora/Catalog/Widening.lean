import Nexora.Catalog.Release

/-!
# Widening and narrowing a rollout

A rollout's percentage enters an offer twice: through the versions a bucket is included in
and through those withheld from it. A change of the percentage alone moves both only for
the buckets between the old and the new value; every other workspace is offered what it
was offered.
-/

namespace Nexora.Catalog

open Nexora.Std

/-- A bucket an interval's change of width moves over. -/
def Between (first second bucket : Nat) : Prop :=
  min first second ≤ bucket ∧ bucket < max first second

/-- A bucket that is not between two widths is inside both or outside both. -/
theorem inside_iff_of_not_between {first second bucket : Nat}
    (elsewhere : ¬ Between first second bucket) : bucket < second ↔ bucket < first := by
  unfold Between at elsewhere
  omega

section Restaged

variable {catalog next : Nexora.Catalog} {catalogAgentId rolloutId : Uuid} {channel : Channel}
  {bucket : Nat} {row : RolloutRow} {body : RolloutUpdate} {now : Instant}

/-- The row an update leaves, when it asks for no other state. -/
def restaged (body : RolloutUpdate) (now : Instant) (row : RolloutRow) : RolloutRow :=
  { row with percentage := body.percentage.getD row.percentage, updatedAt := now }

/-- The rollouts that serve a subscriber are those that did, one of them restaged. -/
theorem serves_of_restaged
    (rollouts : ∀ other, next.tables.rollouts.find? other =
      (catalog.tables.rollouts.modify rolloutId (restaged body now)).find? other) (other : Uuid)
    (otherRow : RolloutRow) :
    Serves next.tables catalogAgentId channel other otherRow ↔
      ∃ before, Serves catalog.tables catalogAgentId channel other before ∧
        otherRow = if other = rolloutId then restaged body now before else before := by
  constructor
  · rintro ⟨stored, agent, active, inScope⟩
    rw [rollouts, Table.find?_modify] at stored
    by_cases same : other = rolloutId
    · rw [if_pos same, ← same, Option.map_eq_some_iff] at stored
      obtain ⟨before, found, rfl⟩ := stored
      exact ⟨before, ⟨found, agent, active, inScope⟩, (if_pos same).symm⟩
    · rw [if_neg same] at stored
      exact ⟨otherRow, ⟨stored, agent, active, inScope⟩, (if_neg same).symm⟩
  · rintro ⟨before, ⟨stored, agent, active, inScope⟩, rfl⟩
    by_cases same : other = rolloutId
    · rw [if_pos same]
      refine ⟨?_, agent, active, inScope⟩
      rw [rollouts, Table.find?_modify, if_pos same, ← same, stored]
      rfl
    · rw [if_neg same]
      refine ⟨?_, agent, active, inScope⟩
      rw [rollouts, Table.find?_modify, if_neg same, stored]

/-- Restaging a rollout changes no version of a rollout, and moves a bucket over no
rollout's edge but that of the restaged one. -/
theorem restaged_inside_iff (stored : catalog.tables.rollouts.find? rolloutId = some row)
    (elsewhere : row.catalogAgentId = catalogAgentId →
      ¬ Between row.percentage (body.percentage.getD row.percentage) bucket)
    {other : Uuid} {before : RolloutRow}
    (serves : Serves catalog.tables catalogAgentId channel other before) :
    bucket < (if other = rolloutId then restaged body now before else before).percentage ↔
      bucket < before.percentage := by
  by_cases same : other = rolloutId
  · rw [if_pos same]
    subst same
    have unique := stored.symm.trans serves.stored
    cases unique
    exact inside_iff_of_not_between (elsewhere serves.agent)
  · rw [if_neg same]

/-- Restaging a rollout keeps what every bucket outside the change is included in and what
is withheld from it. -/
theorem restaged_keeps (channel : Channel)
    (stored : catalog.tables.rollouts.find? rolloutId = some row)
    (rollouts : ∀ other, next.tables.rollouts.find? other =
      (catalog.tables.rollouts.modify rolloutId (restaged body now)).find? other)
    (elsewhere : row.catalogAgentId = catalogAgentId →
      ¬ Between row.percentage (body.percentage.getD row.percentage) bucket) (versionId : Uuid) :
    (Included next.tables catalogAgentId channel bucket versionId ↔
        Included catalog.tables catalogAgentId channel bucket versionId) ∧
      (Withheld next.tables catalogAgentId channel bucket versionId ↔
        Withheld catalog.tables catalogAgentId channel bucket versionId) := by
  have serving : ∀ other before, (if other = rolloutId then restaged body now before
      else before).versionId = before.versionId := by
    intro other before
    split <;> rfl
  have side : ∀ edge : Prop → Prop,
      (∃ other otherRow, Serves next.tables catalogAgentId channel other otherRow ∧
          edge (bucket < otherRow.percentage) ∧ otherRow.versionId = versionId) ↔
        ∃ other otherRow, Serves catalog.tables catalogAgentId channel other otherRow ∧
          edge (bucket < otherRow.percentage) ∧ otherRow.versionId = versionId := by
    intro edge
    constructor
    · rintro ⟨other, otherRow, served, here, version⟩
      obtain ⟨before, serves, rfl⟩ := (serves_of_restaged rollouts other otherRow).mp served
      rw [restaged_inside_iff stored elsewhere serves] at here
      rw [serving] at version
      exact ⟨other, before, serves, here, version⟩
    · rintro ⟨other, before, serves, here, version⟩
      have served := (serves_of_restaged rollouts other _).mpr ⟨before, serves, rfl⟩
      refine ⟨other, _, served, ?_, (serving other before).trans version⟩
      rw [restaged_inside_iff stored elsewhere serves]
      exact here
  exact ⟨side id, side Not⟩

end Restaged

/-- The number an offer carries is that of the version it names. -/
theorem offeredVersion_number (sha256 : String → Nat) (catalog : Nexora.Catalog)
    {catalogAgentId workspaceId versionId : Uuid} {channel : Channel} {number : Version}
    (offered : offeredVersion sha256 catalog.tables catalogAgentId workspaceId channel =
      some (versionId, number)) :
    (catalog.tables.versions.find? versionId).map VersionRow.version = some number := by
  simp only [offeredVersion] at offered
  split at offered
  next chosen highest =>
    have member := List.argmax_mem highest
    obtain ⟨_, version, _, found, same⟩ :=
      (mem_activeRollouts catalog _ _ _ _).mp (List.mem_filter.mp member).1
    simp only [Option.some.injEq, Prod.mk.injEq] at offered
    rw [← offered.1, ← offered.2, found, ← same]
    rfl
  next =>
    obtain ⟨⟨id, row⟩, newest, same⟩ := Option.map_eq_some_iff.mp offered
    have member := List.argmax_mem newest
    simp only [fallbackVersions, Table.mem_select, decide_eq_true_eq] at member
    simp only [Prod.mk.injEq] at same
    rw [← same.1, ← same.2, member.1]
    rfl

/-- Catalogs with the same versions that offer the same versions give the same answer. -/
theorem offeredVersion_congr (sha256 : String → Nat) {catalog next : Nexora.Catalog}
    {catalogAgentId workspaceId : Uuid} {channel : Channel}
    (versions : next.tables.versions = catalog.tables.versions)
    (offers : ∀ versionId,
      Offers next.tables catalogAgentId channel (rolloutBucket sha256 catalogAgentId workspaceId)
          versionId ↔
        Offers catalog.tables catalogAgentId channel
          (rolloutBucket sha256 catalogAgentId workspaceId) versionId) :
    offeredVersion sha256 next.tables catalogAgentId workspaceId channel =
      offeredVersion sha256 catalog.tables catalogAgentId workspaceId channel := by
  have identifiers : (offeredVersion sha256 next.tables catalogAgentId workspaceId channel).map
      Prod.fst = (offeredVersion sha256 catalog.tables catalogAgentId workspaceId channel).map
        Prod.fst := by
    ext versionId
    rw [offeredVersion_eq_some, offeredVersion_eq_some]
    exact offers versionId
  cases later : offeredVersion sha256 next.tables catalogAgentId workspaceId channel with
  | none =>
    rw [later, Option.map_none] at identifiers
    exact (Option.map_eq_none_iff.mp identifiers.symm).symm
  | some offered =>
    obtain ⟨versionId, number⟩ := offered
    rw [later, Option.map_some] at identifiers
    obtain ⟨⟨earlierId, earlierNumber⟩, earlier, same⟩ :=
      Option.map_eq_some_iff.mp identifiers.symm
    obtain rfl : earlierId = versionId := same
    have numbered := offeredVersion_number sha256 next later
    rw [versions, offeredVersion_number sha256 catalog earlier] at numbered
    cases numbered
    exact earlier.symm

/-- A change of a rollout's percentage, its state unchanged, changes no answer on any channel
for a workspace whose bucket is not between the two widths; in particular widening the
rollout moves no workspace that it already included. -/
theorem restaging_keeps_offers (sha256 : String → Nat) (catalog next : Nexora.Catalog)
    (slug : String) (rolloutId : Uuid) (row : RolloutRow) (body : RolloutUpdate) (now : Instant)
    (rollout : Rollout) (stored : catalog.tables.rollouts.find? rolloutId = some row)
    (ok : updateRollout catalog slug rolloutId body now = .ok (rollout, next))
    (sameState : body.state.getD row.state = row.state) :
    (∀ catalogAgentId workspaceId channel,
      (row.catalogAgentId = catalogAgentId →
        ¬ Between row.percentage (body.percentage.getD row.percentage)
          (rolloutBucket sha256 catalogAgentId workspaceId)) →
        offeredVersion sha256 next.tables catalogAgentId workspaceId channel =
          offeredVersion sha256 catalog.tables catalogAgentId workspaceId channel) ∧
      (row.percentage ≤ body.percentage.getD row.percentage → ∀ workspaceId channel,
        rolloutBucket sha256 row.catalogAgentId workspaceId < row.percentage →
          offeredVersion sha256 next.tables row.catalogAgentId workspaceId channel =
            offeredVersion sha256 catalog.tables row.catalogAgentId workspaceId channel) := by
  have tables := updateRollout_ok ok
  have versions : next.tables.versions = catalog.tables.versions := by rw [tables]
  have rollouts : ∀ other, next.tables.rollouts.find? other =
      (catalog.tables.rollouts.modify rolloutId (restaged body now)).find? other := by
    intro other
    rw [tables, Table.find?_modify, Table.find?_modify]
    by_cases same : other = rolloutId
    · rw [if_pos same, if_pos same, stored, Option.map_some, Option.map_some, sameState]
      rfl
    · rw [if_neg same, if_neg same]
  have outside : ∀ catalogAgentId workspaceId channel,
      (row.catalogAgentId = catalogAgentId →
        ¬ Between row.percentage (body.percentage.getD row.percentage)
          (rolloutBucket sha256 catalogAgentId workspaceId)) →
        offeredVersion sha256 next.tables catalogAgentId workspaceId channel =
          offeredVersion sha256 catalog.tables catalogAgentId workspaceId channel := by
    intro catalogAgentId workspaceId channel elsewhere
    apply offeredVersion_congr sha256 versions
    intro versionId
    have kept := restaged_keeps channel stored rollouts elsewhere
    have included := funext fun id => propext (kept id).1
    simp only [Offers, included, (kept _).2, versions]
  refine ⟨outside, fun widens workspaceId channel inside => ?_⟩
  apply outside
  intro _ between
  unfold Between at between
  omega

/-- A change of the staged rollout's width to a half. -/
def widenBody : RolloutUpdate :=
  { percentage := some 50, state := none, percentageRange := by simp, notEmpty := by simp,
    notRolledBack := by decide }

/-- `restaging_keeps_offers` applies to a workspace in the bucket 60 of the staged catalog. -/
theorem restaging_keeps_offers_staged : ∃ rollout next,
    updateRollout stagedCatalog "seo" 4 widenBody 9 = .ok (rollout, next) ∧
      offeredVersion (fun _ => 60 * 2 ^ 192) next.tables 1 7 .stable =
        offeredVersion (fun _ => 60 * 2 ^ 192) stagedTables 1 7 .stable := by
  obtain ⟨⟨rollout, next⟩, ok, _⟩ := exists_ok_of_check
    (updateRollout stagedCatalog "seo" 4 widenBody 9) (fun _ => true) (by decide)
  refine ⟨rollout, next, ok, ?_⟩
  have kept := restaging_keeps_offers (fun _ => 60 * 2 ^ 192) stagedCatalog next "seo" 4
    stagedRollout widenBody 9 rollout (by decide) ok (by decide)
  exact kept.1 1 7 .stable fun _ => by unfold Between; decide

end Nexora.Catalog
