import Nexora.Std.Table
import Nexora.Catalog.Manifest

/-!
# The agent catalog store

The tables behind the standard agent catalog, with the constraints the database
declares on them. `Catalog` carries a proof of those constraints, so a catalog with
two active rollouts on one channel, or with two versions of one number, cannot be
built: every statement goes through `Catalog.write`, which refuses what the
database refuses.
-/

namespace Nexora.Catalog

open Nexora.Std

/-- Who may see a catalog entry. -/
inductive Visibility where
  | restricted
  | publicly
  deriving DecidableEq, Repr

/-- Where a rollout stands. -/
inductive RolloutState where
  | active
  | paused
  | completed
  | rolledBack
  deriving DecidableEq, Repr

/-- A row of `catalog_agents`. -/
structure AgentRow where
  slug : String
  name : String
  description : String
  category : String
  icon : String
  status : AgentStatus
  visibility : Visibility
  createdAt : Instant
  updatedAt : Instant
  deriving DecidableEq

/-- A row of `catalog_agent_versions`. -/
structure VersionRow where
  catalogAgentId : Uuid
  version : Version
  status : AgentStatus
  channel : Channel
  manifest : AgentManifest
  minRuntimeVersion : Version
  changelog : String
  createdAt : Instant
  deriving DecidableEq

/-- A row of `agent_rollouts`. -/
structure RolloutRow where
  catalogAgentId : Uuid
  versionId : Uuid
  channel : Channel
  percentage : Nat
  state : RolloutState
  createdAt : Instant
  updatedAt : Instant
  deriving DecidableEq

/-- The catalog's tables. An entitlement row carries only its creation time, and of
`workspaces` only the identifiers matter here. -/
structure Tables where
  workspaces : List Uuid
  agents : Table Uuid AgentRow
  versions : Table Uuid VersionRow
  entitlements : Table (Uuid × Uuid) Instant
  rollouts : Table Uuid RolloutRow

/-- The largest value of an `integer` column. -/
def maxInteger : Nat := 2147483647

/-- The constraints the database declares on the catalog's tables. -/
structure Tables.Consistent (tables : Tables) : Prop where
  slugUnique : ∀ left ∈ tables.agents.entries, ∀ right ∈ tables.agents.entries,
    left.2.slug = right.2.slug → left.1 = right.1
  versionAgent : ∀ entry ∈ tables.versions.entries,
    tables.agents.find? entry.2.catalogAgentId ≠ none
  versionRange : ∀ entry ∈ tables.versions.entries, entry.2.version.major ≤ maxInteger ∧
    entry.2.version.minor ≤ maxInteger ∧ entry.2.version.patch ≤ maxInteger
  versionUnique : ∀ left ∈ tables.versions.entries, ∀ right ∈ tables.versions.entries,
    left.2.catalogAgentId = right.2.catalogAgentId → left.2.version = right.2.version →
      left.1 = right.1
  entitlementKnown : ∀ entry ∈ tables.entitlements.entries,
    tables.agents.find? entry.1.1 ≠ none ∧ entry.1.2 ∈ tables.workspaces
  rolloutVersion : ∀ entry ∈ tables.rollouts.entries,
    (tables.versions.find? entry.2.versionId).map VersionRow.catalogAgentId =
      some entry.2.catalogAgentId
  percentageRange : ∀ entry ∈ tables.rollouts.entries, entry.2.percentage ≤ 100
  oneActive : ∀ left ∈ tables.rollouts.entries, ∀ right ∈ tables.rollouts.entries,
    left.2.state = .active → right.2.state = .active →
      left.2.catalogAgentId = right.2.catalogAgentId → left.2.channel = right.2.channel →
        left.1 = right.1

instance (tables : Tables) : Decidable tables.Consistent :=
  decidable_of_iff
    ((∀ left ∈ tables.agents.entries, ∀ right ∈ tables.agents.entries,
        left.2.slug = right.2.slug → left.1 = right.1) ∧
      (∀ entry ∈ tables.versions.entries, tables.agents.find? entry.2.catalogAgentId ≠ none) ∧
      (∀ entry ∈ tables.versions.entries, entry.2.version.major ≤ maxInteger ∧
        entry.2.version.minor ≤ maxInteger ∧ entry.2.version.patch ≤ maxInteger) ∧
      (∀ left ∈ tables.versions.entries, ∀ right ∈ tables.versions.entries,
        left.2.catalogAgentId = right.2.catalogAgentId →
          left.2.version = right.2.version → left.1 = right.1) ∧
      (∀ entry ∈ tables.entitlements.entries,
        tables.agents.find? entry.1.1 ≠ none ∧ entry.1.2 ∈ tables.workspaces) ∧
      (∀ entry ∈ tables.rollouts.entries,
        (tables.versions.find? entry.2.versionId).map VersionRow.catalogAgentId =
          some entry.2.catalogAgentId) ∧
      (∀ entry ∈ tables.rollouts.entries, entry.2.percentage ≤ 100) ∧
      (∀ left ∈ tables.rollouts.entries, ∀ right ∈ tables.rollouts.entries,
        left.2.state = .active → right.2.state = .active →
          left.2.catalogAgentId = right.2.catalogAgentId →
            left.2.channel = right.2.channel → left.1 = right.1))
    ⟨fun ⟨slug, agent, range, number, entitled, version, percentage, active⟩ =>
        ⟨slug, agent, range, number, entitled, version, percentage, active⟩,
      fun ⟨slug, agent, range, number, entitled, version, percentage, active⟩ =>
        ⟨slug, agent, range, number, entitled, version, percentage, active⟩⟩

end Nexora.Catalog

namespace Nexora

open Nexora.Catalog

/-- A catalog state the database can hold. -/
structure Catalog where
  tables : Tables
  consistent : tables.Consistent

namespace Catalog

/-- Commit a statement's result, or refuse it as the database does. -/
def write (tables : Tables) : Except Failure Catalog :=
  if consistent : tables.Consistent then .ok ⟨tables, consistent⟩ else .error .constraint

@[simp]
theorem write_eq_ok (tables : Tables) (catalog : Catalog) :
    write tables = .ok catalog ↔ catalog.tables = tables := by
  unfold write
  by_cases consistent : tables.Consistent
  · rw [dif_pos consistent]
    constructor
    · intro same
      cases same
      rfl
    · intro same
      cases catalog
      cases same
      rfl
  · rw [dif_neg consistent]
    constructor
    · intro impossible
      cases impossible
    · intro same
      exact absurd (same ▸ catalog.consistent) consistent

/-- The version number of an agent determines the version row. -/
theorem versionUnique (catalog : Catalog) {left right : Uuid} {leftRow rightRow : VersionRow}
    (leftFound : catalog.tables.versions.find? left = some leftRow)
    (rightFound : catalog.tables.versions.find? right = some rightRow)
    (agent : leftRow.catalogAgentId = rightRow.catalogAgentId)
    (number : leftRow.version = rightRow.version) : left = right :=
  catalog.consistent.versionUnique (left, leftRow) (by simpa using leftFound)
    (right, rightRow) (by simpa using rightFound) agent number

/-- A rollout serves a stored version of its own agent. -/
theorem rolloutVersion (catalog : Catalog) {rolloutId : Uuid} {row : RolloutRow}
    (found : catalog.tables.rollouts.find? rolloutId = some row) :
    ∃ version, catalog.tables.versions.find? row.versionId = some version ∧
      version.catalogAgentId = row.catalogAgentId := by
  have reference := catalog.consistent.rolloutVersion (rolloutId, row) (by simpa using found)
  simpa using reference

end Catalog

end Nexora
