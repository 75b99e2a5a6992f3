import Nexora.Std.History
import Nexora.Catalog.Release
import Nexora.Catalog.Operations

/-!
# Rollouts over time

The catalog under any sequence of operations. `CatalogEffect` says once what an operation
can do to the versions and the rollouts; what holds of the version a workspace is offered,
or of the rollout a channel is served by, along every run is derived from it.
-/

namespace Nexora.Catalog

open Nexora.Std

/-- The catalog under any sequence of operations, from one without versions or rollouts. -/
def catalogMachine : Machine Nexora.Catalog CatalogOperation :=
  .ofFunction (fun catalog => catalog.tables.versions = .empty ∧ catalog.tables.rollouts = .empty)
    fun catalog operation => operation.run catalog

/-- The rollouts once the channel's active one is superseded. -/
def superseded (tables : Tables) (catalogAgentId : Uuid) (channel : Channel) (now : Instant) :
    Table Uuid RolloutRow :=
  tables.rollouts.mapRows fun _ row =>
    if row.catalogAgentId = catalogAgentId ∧ row.channel = channel ∧ row.state = .active then
      { row with state := .completed, updatedAt := now }
    else row

/-- The rollouts once one of them is retired. -/
def retired (tables : Tables) (rolloutId : Uuid) (now : Instant) : Table Uuid RolloutRow :=
  tables.rollouts.modify rolloutId fun row => { row with state := .rolledBack, updatedAt := now }

/-- Everything an operation can do to the versions and the rollouts. -/
inductive CatalogEffect (catalog : Nexora.Catalog) : CatalogOperation → Tables → Prop where
  | elsewhere {operation : CatalogOperation} {tables : Tables}
      (versions : tables.versions = catalog.tables.versions)
      (rollouts : tables.rollouts = catalog.tables.rollouts) : CatalogEffect catalog operation tables
  | published {slug : String} {manifest : AgentManifest} {versionId : Uuid} {now : Instant}
      {row : VersionRow} (free : catalog.tables.versions.find? versionId = none) :
      CatalogEffect catalog (.publishVersion slug manifest versionId now)
        { catalog.tables with versions := catalog.tables.versions.put versionId row }
  | released {slug : String} {version : Version} {body : VersionReleaseInput}
      {target : Uuid × VersionRow} (known : versionRow catalog.tables slug version = .ok target) :
      CatalogEffect catalog (.setVersionRelease slug version body)
        { catalog.tables with
          versions := catalog.tables.versions.modify target.1 fun row =>
            { row with
              status := body.status.getD row.status, channel := body.channel.getD row.channel } }
  | started {slug : String} {body : RolloutInput} {rolloutId : Uuid} {now : Instant}
      {agent : Uuid × AgentRow} {version : Uuid × VersionRow}
      (ofAgent : agentRow catalog.tables slug = .ok agent)
      (known : versionRow catalog.tables slug body.version = .ok version)
      (offerable : version.2.status ∈ offerableStatuses)
      (free : catalog.tables.rollouts.find? rolloutId = none) :
      CatalogEffect catalog (.createRollout slug body rolloutId now)
        { catalog.tables with
          rollouts := (superseded catalog.tables agent.1 body.channel now).put rolloutId
            { catalogAgentId := agent.1, versionId := version.1, channel := body.channel,
              percentage := body.percentage, state := .active, createdAt := now,
              updatedAt := now } }
  | updated {slug : String} {rolloutId : Uuid} {body : RolloutUpdate} {now : Instant}
      {row : RolloutRow} (stored : catalog.tables.rollouts.find? rolloutId = some row)
      (unfinished : row.state ≠ .rolledBack ∧ row.state ≠ .completed) :
      CatalogEffect catalog (.updateRollout slug rolloutId body now)
        { catalog.tables with
          rollouts := catalog.tables.rollouts.modify rolloutId fun row =>
            { row with
              percentage := body.percentage.getD row.percentage
              state := body.state.getD row.state
              updatedAt := now } }
  | withdrawn {slug : String} {rolloutId replacement : Uuid} {now : Instant} {row : RolloutRow}
      (stored : catalog.tables.rollouts.find? rolloutId = some row)
      (unretired : row.state ≠ .rolledBack)
      (first : precedingRollout catalog.tables row.catalogAgentId row = none) :
      CatalogEffect catalog (.rollbackRollout slug rolloutId replacement now)
        { catalog.tables with rollouts := retired catalog.tables rolloutId now }
  | restored {slug : String} {rolloutId replacement : Uuid} {now : Instant} {row : RolloutRow}
      {previous : Uuid × RolloutRow}
      (stored : catalog.tables.rollouts.find? rolloutId = some row)
      (unretired : row.state ≠ .rolledBack)
      (preceding : precedingRollout catalog.tables row.catalogAgentId row = some previous)
      (free : catalog.tables.rollouts.find? replacement = none) :
      CatalogEffect catalog (.rollbackRollout slug rolloutId replacement now)
        { catalog.tables with
          rollouts := (retired catalog.tables rolloutId now).put replacement
            { catalogAgentId := row.catalogAgentId, versionId := previous.2.versionId,
              channel := row.channel, percentage := 100, state := .active, createdAt := now,
              updatedAt := now } }

/-- A rewritten table has the keys it had. -/
theorem find?_superseded_eq_none {tables : Tables} {catalogAgentId rolloutId : Uuid}
    {channel : Channel} {now : Instant} :
    (superseded tables catalogAgentId channel now).find? rolloutId = none ↔
      tables.rollouts.find? rolloutId = none := by
  rw [superseded, Table.find?_mapRows, Option.map_eq_none_iff]

theorem find?_retired_eq_none {tables : Tables} {rolloutId other : Uuid} {now : Instant} :
    (retired tables rolloutId now).find? other = none ↔ tables.rollouts.find? other = none := by
  rw [retired, Table.find?_modify]
  split
  · next same => rw [Option.map_eq_none_iff, same]
  · rfl

section Effect

variable {catalog next : Nexora.Catalog} {slug : String} {rolloutId : Uuid} {now : Instant}

/-- A started rollout supersedes the channel's active one. -/
theorem createRollout_ok {body : RolloutInput} {rollout : Rollout}
    (ok : createRollout catalog slug body rolloutId now = .ok (rollout, next)) :
    ∃ agent version, agentRow catalog.tables slug = .ok agent ∧
      versionRow catalog.tables slug body.version = .ok version ∧
      version.2.status ∈ offerableStatuses ∧ catalog.tables.rollouts.find? rolloutId = none ∧
      rollout.row = {
        catalogAgentId := agent.1, versionId := version.1, channel := body.channel,
        percentage := body.percentage, state := .active, createdAt := now, updatedAt := now } ∧
      next.tables = { catalog.tables with
        rollouts := (superseded catalog.tables agent.1 body.channel now).put rolloutId
          rollout.row } := by
  simp only [createRollout, bind_eq_ok, raiseIf_eq_ok, inserted_eq_ok, Table.insert?_eq_some,
    Catalog.write_eq_ok, pure_eq_ok, Prod.mk.injEq] at ok
  obtain ⟨agent, ofAgent, version, known, _, offerable, _, ⟨free, rfl⟩, _, tables, _, byId, rfl,
    rfl⟩ := ok
  have stored := (rolloutById_ok byId).1
  rw [tables, Table.find?_put, Option.some.injEq] at stored
  refine ⟨agent, version, ofAgent, known, not_not.mp offerable, find?_superseded_eq_none.mp free,
    stored.symm, ?_⟩
  rw [← stored]
  exact tables

theorem createRollout_effect {body : RolloutInput}
    (ok : (CatalogOperation.createRollout slug body rolloutId now).run catalog = .ok next) :
    CatalogEffect catalog (.createRollout slug body rolloutId now) next.tables := by
  simp only [CatalogOperation.run, bind_eq_ok, pure_eq_ok, Prod.exists] at ok
  obtain ⟨rollout, _, done, rfl⟩ := ok
  obtain ⟨agent, version, ofAgent, known, offerable, free, row, tables⟩ := createRollout_ok done
  rw [tables, row]
  exact .started ofAgent known offerable free

theorem updateRollout_effect {body : RolloutUpdate}
    (ok : (CatalogOperation.updateRollout slug rolloutId body now).run catalog = .ok next) :
    CatalogEffect catalog (.updateRollout slug rolloutId body now) next.tables := by
  simp only [CatalogOperation.run, updateRollout, bind_eq_ok, raiseIf_eq_ok, Catalog.write_eq_ok,
    pure_eq_ok] at ok
  obtain ⟨_, ⟨agent, _, current, byId, _, unfinished, _, tables, _, _, rfl⟩, rfl⟩ := ok
  rw [tables]
  exact .updated (rolloutById_ok byId).1 (not_or.mp unfinished)

theorem rollbackRollout_effect {replacement : Uuid}
    (ok : (CatalogOperation.rollbackRollout slug rolloutId replacement now).run catalog =
      .ok next) :
    CatalogEffect catalog (.rollbackRollout slug rolloutId replacement now) next.tables := by
  simp only [CatalogOperation.run, rollbackRollout, bind_eq_ok, raiseIf_eq_ok,
    Catalog.write_eq_ok, pure_eq_ok] at ok
  obtain ⟨result, ⟨agent, _, current, byId, _, unretired, withdrawn, tables, ok⟩, rfl⟩ := ok
  obtain ⟨stored, agentId⟩ := rolloutById_ok byId
  rw [← agentId] at ok
  cases preceding : precedingRollout catalog.tables current.row.catalogAgentId current.row with
  | none =>
    rw [preceding] at ok
    simp only [bind_eq_ok, pure_eq_ok] at ok
    obtain ⟨_, _, rfl⟩ := ok
    rw [tables]
    exact .withdrawn stored unretired preceding
  | some previous =>
    rw [preceding] at ok
    simp only [bind_eq_ok, pure_eq_ok, inserted_eq_ok, Table.insert?_eq_some,
      Catalog.write_eq_ok] at ok
    obtain ⟨_, ⟨free, rfl⟩, _, written, _, _, rfl⟩ := ok
    rw [written, tables]
    rw [tables] at free
    exact .restored stored unretired preceding (find?_retired_eq_none.mp free)

/-- An operation does nothing else. -/
theorem operation_effect {operation : CatalogOperation}
    (ok : operation.run catalog = .ok next) : CatalogEffect catalog operation next.tables := by
  cases operation with
  | createAgent body agentId now =>
    simp only [CatalogOperation.run, createAgent, bind_eq_ok, Catalog.write_eq_ok] at ok
    obtain ⟨_, _, _, _, tables⟩ := ok
    exact .elsewhere (by rw [tables]) (by rw [tables])
  | updateAgent slug body now =>
    simp only [CatalogOperation.run, updateAgent, bind_eq_ok, Catalog.write_eq_ok] at ok
    obtain ⟨_, _, tables⟩ := ok
    exact .elsewhere (by rw [tables]) (by rw [tables])
  | publishVersion slug manifest versionId now =>
    simp only [CatalogOperation.run, publishVersion, bind_eq_ok, inserted_eq_ok,
      Table.insert?_eq_some, Catalog.write_eq_ok] at ok
    obtain ⟨_, _, _, _, _, _, _, ⟨free, rfl⟩, tables⟩ := ok
    rw [tables]
    exact .published free
  | setVersionRelease slug version body =>
    simp only [CatalogOperation.run, setVersionRelease, bind_eq_ok, Catalog.write_eq_ok] at ok
    obtain ⟨target, known, tables⟩ := ok
    rw [tables]
    exact .released known
  | createRollout slug body rolloutId now => exact createRollout_effect ok
  | updateRollout slug rolloutId body now => exact updateRollout_effect ok
  | rollbackRollout slug rolloutId replacement now => exact rollbackRollout_effect ok
  | grantEntitlement slug workspaceId now =>
    simp only [CatalogOperation.run, grantEntitlement, bind_eq_ok, Catalog.write_eq_ok] at ok
    obtain ⟨_, _, _, _, tables⟩ := ok
    exact .elsewhere (by rw [tables]) (by rw [tables])
  | revokeEntitlement slug workspaceId =>
    simp only [CatalogOperation.run, revokeEntitlement, bind_eq_ok, Catalog.write_eq_ok] at ok
    obtain ⟨_, _, tables⟩ := ok
    exact .elsewhere (by rw [tables]) (by rw [tables])

/-- A published version is never removed, and keeps its manifest. -/
theorem manifest_stable {operation : CatalogOperation} (ok : operation.run catalog = .ok next)
    {versionId : Uuid} {row : VersionRow}
    (published : catalog.tables.versions.find? versionId = some row) :
    ∃ later, next.tables.versions.find? versionId = some later ∧
      later.manifest = row.manifest := by
  have effect := operation_effect ok
  generalize next.tables = tables at effect ⊢
  cases effect with
  | elsewhere versions => exact ⟨row, by rw [versions, published], rfl⟩
  | @published _ _ number _ _ free =>
    have distinct : versionId ≠ number := by
      rintro rfl
      rw [free] at published
      cases published
    exact ⟨row, by rw [Table.find?_put_ne _ _ distinct, published], rfl⟩
  | @released _ _ _ target =>
    rw [Table.find?_modify]
    by_cases same : versionId = target.1
    · rw [if_pos same, ← same, published]
      exact ⟨_, rfl, rfl⟩
    · rw [if_neg same]
      exact ⟨row, published, rfl⟩
  | _ => exact ⟨row, published, rfl⟩

end Effect

end Nexora.Catalog
