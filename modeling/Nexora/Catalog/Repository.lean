import Mathlib
import Nexora.Std.Fallible
import Nexora.Catalog.Store

/-!
# The agent catalog repository

`AgentCatalogRepository` as the source computes it: publishing, moving a release
between statuses and channels, staged rollouts, entitlements and the version a
workspace is offered. Every operation is one transaction; the identifiers it draws
and the transaction's timestamp are arguments.
-/

namespace Nexora.Catalog

open Nexora.Std

/-- A subscriber to a wider channel also receives everything the narrower channels
serve. -/
def channelScope : Channel → List Channel
  | .stable => [.stable]
  | .beta => [.stable, .beta]
  | .canary => [.stable, .beta, .canary]

/-- Statuses that are handed out as an install or update target. -/
def offerableStatuses : List AgentStatus := [.stable, .beta]

/-- Number of buckets a staged rollout divides the workspaces into. -/
def rolloutBuckets : Nat := 100

/-- A stable bucket for staged rollouts. `sha256` gives the digest of a text as one
big-endian number of 256 bits, so its first eight bytes are the quotient by `2 ^ 192`. -/
def rolloutBucket (sha256 : String → Nat) (catalogAgentId workspaceId : Uuid) : Nat :=
  sha256 (Uuid.text catalogAgentId ++ ":" ++ Uuid.text workspaceId) / 2 ^ 192 % rolloutBuckets

theorem rolloutBucket_lt (sha256 : String → Nat) (catalogAgentId workspaceId : Uuid) :
    rolloutBucket sha256 catalogAgentId workspaceId < rolloutBuckets :=
  Nat.mod_lt _ (by decide)

/-- The body of a catalog entry's creation. -/
structure CatalogAgentInput where
  slug : String
  name : String
  description : String
  category : String
  icon : String
  status : AgentStatus
  visibility : Visibility

/-- The body of a catalog entry's update; at least one field is supplied. -/
structure CatalogAgentUpdate where
  name : Option String
  description : Option String
  category : Option String
  icon : Option String
  status : Option AgentStatus
  visibility : Option Visibility
  notEmpty : name.isSome ∨ description.isSome ∨ category.isSome ∨ icon.isSome ∨
    status.isSome ∨ visibility.isSome

/-- The body of a release change; at least one field is supplied. -/
structure VersionReleaseInput where
  status : Option AgentStatus
  channel : Option Channel
  notEmpty : status.isSome ∨ channel.isSome

/-- The body of a rollout's creation. -/
structure RolloutInput where
  version : Version
  channel : Channel
  percentage : Nat
  percentageRange : percentage ≤ 100

/-- The body of a rollout's update; retiring one goes through the rollback endpoint. -/
structure RolloutUpdate where
  percentage : Option Nat
  state : Option RolloutState
  percentageRange : ∀ value ∈ percentage, value ≤ 100
  notEmpty : percentage.isSome ∨ state.isSome
  notRolledBack : state ≠ some .rolledBack

/-- A rollout as the API returns it, with the number of its version. -/
structure Rollout where
  id : Uuid
  row : RolloutRow
  version : Version
  deriving DecidableEq

/-- The catalog entry with a slug. -/
def agentRow (tables : Tables) (slug : String) : Except Failure (Uuid × AgentRow) :=
  found (tables.agents.entries.find? fun entry => entry.2.slug = slug)

/-- The versions of one agent, with their identifiers. -/
def agentVersions (tables : Tables) (catalogAgentId : Uuid) : List (Uuid × VersionRow) :=
  tables.versions.select fun _ row => row.catalogAgentId = catalogAgentId

/-- The agent's version with a number. -/
def versionRow (tables : Tables) (slug : String) (version : Version) :
    Except Failure (Uuid × VersionRow) := do
  let agent ← agentRow tables slug
  found ((agentVersions tables agent.1).find? fun entry => entry.2.version = version)

/-- The agent's highest version in semantic order. -/
def latestVersion (tables : Tables) (catalogAgentId : Uuid) : Option (Uuid × VersionRow) :=
  (agentVersions tables catalogAgentId).argmax fun entry => entry.2.version.parts

/-- The agent's rollout with an identifier, joined with its version. -/
def rolloutById (tables : Tables) (catalogAgentId rolloutId : Uuid) : Except Failure Rollout :=
  found do
    let row ← tables.rollouts.find? rolloutId
    guard (row.catalogAgentId = catalogAgentId)
    let version ← tables.versions.find? row.versionId
    pure { id := rolloutId, row := row, version := version.version }

/-- Create a catalog entry. -/
def createAgent (catalog : Catalog) (body : CatalogAgentInput) (agentId : Uuid)
    (now : Instant) : Except Failure Catalog := do
  let tables := catalog.tables
  raiseIf (tables.agents.any (fun _ row => row.slug = body.slug))
    (.http 409 (some "A catalog agent with this slug already exists"))
  let agents ← inserted (tables.agents.insert? agentId
    { slug := body.slug, name := body.name, description := body.description,
      category := body.category, icon := body.icon, status := body.status,
      visibility := body.visibility, createdAt := now, updatedAt := now })
  Catalog.write { tables with agents := agents }

/-- Change the supplied fields of a catalog entry. -/
def updateAgent (catalog : Catalog) (slug : String) (body : CatalogAgentUpdate)
    (now : Instant) : Except Failure Catalog := do
  let agent ← agentRow catalog.tables slug
  Catalog.write { catalog.tables with
    agents := catalog.tables.agents.modify agent.1 fun row =>
      { row with
        name := body.name.getD row.name
        description := body.description.getD row.description
        category := body.category.getD row.category
        icon := body.icon.getD row.icon
        status := body.status.getD row.status
        visibility := body.visibility.getD row.visibility
        updatedAt := now } }

/-- Publish a manifest as a new version above every existing one. -/
def publishVersion (catalog : Catalog) (slug : String) (manifest : AgentManifest)
    (versionId : Uuid) (now : Instant) : Except Failure Catalog := do
  raiseIf (manifest.slug ≠ slug)
    (.http 422 (some "Manifest slug does not match the catalog entry"))
  let tables := catalog.tables
  let agent ← agentRow tables slug
  raiseIf (∃ previous ∈ latestVersion tables agent.1,
      manifest.version.parts ≤ previous.2.version.parts)
    (.http 409 (some "A published version never changes; publish a higher semantic version"))
  let versions ← inserted (tables.versions.insert? versionId
    { catalogAgentId := agent.1, version := manifest.version, status := manifest.status,
      channel := manifest.channel, manifest := manifest,
      minRuntimeVersion := manifest.minRuntimeVersion, changelog := manifest.changelog,
      createdAt := now })
  Catalog.write { tables with versions := versions }

/-- Move a published version between statuses and channels. The manifest is untouched. -/
def setVersionRelease (catalog : Catalog) (slug : String) (version : Version)
    (body : VersionReleaseInput) : Except Failure Catalog := do
  let target ← versionRow catalog.tables slug version
  Catalog.write { catalog.tables with
    versions := catalog.tables.versions.modify target.1 fun row =>
      { row with status := body.status.getD row.status, channel := body.channel.getD row.channel } }

/-- Start a rollout of a version on a channel. -/
def createRollout (catalog : Catalog) (slug : String) (body : RolloutInput) (rolloutId : Uuid)
    (now : Instant) : Except Failure (Rollout × Catalog) := do
  let agent ← agentRow catalog.tables slug
  let version ← versionRow catalog.tables slug body.version
  raiseIf (version.2.status ∉ offerableStatuses)
    (.http 409 (some "Only a stable or beta version can be rolled out"))
  -- Superseding, not deleting: the previous rollout stays in history as completed.
  let superseded := catalog.tables.rollouts.mapRows fun _ row =>
    if row.catalogAgentId = agent.1 ∧ row.channel = body.channel ∧ row.state = .active then
      { row with state := .completed, updatedAt := now }
    else row
  let rollouts ← inserted (superseded.insert? rolloutId
    { catalogAgentId := agent.1, versionId := version.1, channel := body.channel,
      percentage := body.percentage, state := .active, createdAt := now, updatedAt := now })
  let next ← Catalog.write { catalog.tables with rollouts := rollouts }
  let rollout ← rolloutById next.tables agent.1 rolloutId
  pure (rollout, next)

/-- Change a rollout's percentage or state. -/
def updateRollout (catalog : Catalog) (slug : String) (rolloutId : Uuid) (body : RolloutUpdate)
    (now : Instant) : Except Failure (Rollout × Catalog) := do
  let agent ← agentRow catalog.tables slug
  let current ← rolloutById catalog.tables agent.1 rolloutId
  raiseIf (current.row.state = .rolledBack ∨ current.row.state = .completed)
    (.http 409 (some "This rollout has already finished"))
  let next ← Catalog.write { catalog.tables with
    rollouts := catalog.tables.rollouts.modify rolloutId fun row =>
      { row with
        percentage := body.percentage.getD row.percentage
        state := body.state.getD row.state
        updatedAt := now } }
  let rollout ← rolloutById next.tables agent.1 rolloutId
  pure (rollout, next)

/-- The rollout that served a channel before another one: the latest one started
earlier on it that was not rolled back. -/
def precedingRollout (tables : Tables) (catalogAgentId : Uuid) (current : RolloutRow) :
    Option (Uuid × RolloutRow) :=
  (tables.rollouts.select fun _ row =>
    row.catalogAgentId = catalogAgentId ∧ row.channel = current.channel ∧
      row.createdAt < current.createdAt ∧ row.state ≠ .rolledBack).argmax
    fun entry => toLex (entry.2.createdAt, entry.1)

/-- Retire a rollout and reinstate the version that was serving the channel before it. -/
def rollbackRollout (catalog : Catalog) (slug : String) (rolloutId replacement : Uuid)
    (now : Instant) : Except Failure (Rollout × Catalog) := do
  let agent ← agentRow catalog.tables slug
  let current ← rolloutById catalog.tables agent.1 rolloutId
  raiseIf (current.row.state = .rolledBack)
    (.http 409 (some "This rollout was already rolled back"))
  let restored := precedingRollout catalog.tables agent.1 current.row
  let retired ← Catalog.write { catalog.tables with
    rollouts := catalog.tables.rollouts.modify rolloutId fun row =>
      { row with state := .rolledBack, updatedAt := now } }
  match restored with
  | none =>
    -- Nothing preceded it, so the channel simply has no rollout again.
    let rollout ← rolloutById retired.tables agent.1 rolloutId
    pure (rollout, retired)
  | some previous =>
    let rollouts ← inserted (retired.tables.rollouts.insert? replacement
      { catalogAgentId := agent.1, versionId := previous.2.versionId,
        channel := current.row.channel, percentage := 100, state := .active,
        createdAt := now, updatedAt := now })
    let next ← Catalog.write { retired.tables with rollouts := rollouts }
    let rollout ← rolloutById next.tables agent.1 replacement
    pure (rollout, next)

variable {rolloutId : Uuid} {rollout : Rollout} {catalog next : Catalog} {slug : String}
  {now : Instant}

/-- A rollout is found by its identifier among those of its agent. -/
theorem rolloutById_ok {tables : Tables} {catalogAgentId : Uuid}
    (ok : rolloutById tables catalogAgentId rolloutId = .ok rollout) :
    tables.rollouts.find? rolloutId = some rollout.row ∧
      rollout.row.catalogAgentId = catalogAgentId := by
  simp only [rolloutById, found_eq_ok, Option.bind_eq_bind, Option.bind_eq_some_iff,
    Option.pure_def, Option.some.injEq, Option.guard_eq_some'] at ok
  obtain ⟨row, stored, _, agent, _, _, rfl⟩ := ok
  exact ⟨stored, agent⟩

/-- A successful update applies the supplied fields to an unfinished rollout of the
agent and changes nothing else. -/
theorem updateRollout_ok {body : RolloutUpdate}
    (ok : updateRollout catalog slug rolloutId body now = .ok (rollout, next)) :
    next.tables = { catalog.tables with
      rollouts := catalog.tables.rollouts.modify rolloutId fun row =>
        { row with
          percentage := body.percentage.getD row.percentage
          state := body.state.getD row.state
          updatedAt := now } } := by
  simp only [updateRollout, bind_eq_ok, raiseIf_eq_ok, Catalog.write_eq_ok, pure_eq_ok,
    Prod.mk.injEq] at ok
  obtain ⟨_, _, _, _, _, _, _, same, _, _, _, rfl⟩ := ok
  exact same

/-- A successful rollback retires the rollout and starts the preceding version, if
there is one, at full width under a fresh identifier. -/
theorem rollbackRollout_ok {replacement : Uuid}
    (ok : rollbackRollout catalog slug rolloutId replacement now = .ok (rollout, next)) :
    ∃ row, catalog.tables.rollouts.find? rolloutId = some row ∧
      let retired := catalog.tables.rollouts.modify rolloutId fun row =>
        { row with state := .rolledBack, updatedAt := now }
      match precedingRollout catalog.tables row.catalogAgentId row with
      | none => next.tables = { catalog.tables with rollouts := retired }
      | some previous => retired.find? replacement = none ∧
          next.tables = { catalog.tables with
            rollouts := retired.put replacement
              { catalogAgentId := row.catalogAgentId, versionId := previous.2.versionId,
                channel := row.channel, percentage := 100, state := .active,
                createdAt := now, updatedAt := now } } := by
  simp only [rollbackRollout, bind_eq_ok, raiseIf_eq_ok, Catalog.write_eq_ok] at ok
  obtain ⟨agent, _, current, byId, _, _, retired, retiredTables, ok⟩ := ok
  obtain ⟨stored, agentId⟩ := rolloutById_ok byId
  rw [← agentId] at ok
  refine ⟨current.row, stored, ?_⟩
  cases preceding : precedingRollout catalog.tables current.row.catalogAgentId current.row with
  | none =>
    rw [preceding] at ok
    simp only [bind_eq_ok, pure_eq_ok, Prod.mk.injEq] at ok
    obtain ⟨_, _, _, rfl⟩ := ok
    exact retiredTables
  | some previous =>
    rw [preceding] at ok
    simp only [bind_eq_ok, pure_eq_ok, Prod.mk.injEq, inserted_eq_ok,
      Table.insert?_eq_some, Catalog.write_eq_ok] at ok
    obtain ⟨_, ⟨free, rfl⟩, _, written, _, _, _, rfl⟩ := ok
    simp only [retiredTables] at free written
    exact ⟨free, written⟩

/-- Entitle a workspace to a restricted agent. -/
def grantEntitlement (catalog : Catalog) (slug : String) (workspaceId : Uuid) (now : Instant) :
    Except Failure Catalog := do
  let agent ← agentRow catalog.tables slug
  raiseIf (workspaceId ∉ catalog.tables.workspaces)
    (.http 404 (some "Unknown workspace"))
  let granted := catalog.tables.entitlements.find? (agent.1, workspaceId)
  Catalog.write { catalog.tables with
    entitlements := catalog.tables.entitlements.put (agent.1, workspaceId) (granted.getD now) }

/-- Withdraw a workspace's entitlement. -/
def revokeEntitlement (catalog : Catalog) (slug : String) (workspaceId : Uuid) :
    Except Failure Catalog := do
  let agent ← agentRow catalog.tables slug
  Catalog.write { catalog.tables with
    entitlements := catalog.tables.entitlements.erase (agent.1, workspaceId) }

/-- The active rollouts of an agent on the channels a subscriber receives, joined
with the number of the version each one serves. -/
def activeRollouts (tables : Tables) (catalogAgentId : Uuid) (channel : Channel) :
    List (RolloutRow × Version) :=
  (tables.rollouts.select fun _ row =>
    row.catalogAgentId = catalogAgentId ∧ row.state = .active ∧
      row.channel ∈ channelScope channel).filterMap
    fun entry => (tables.versions.find? entry.2.versionId).map fun version =>
      (entry.2, version.version)

/-- The versions a channel may fall back to: released, in scope and not withheld. -/
def fallbackVersions (tables : Tables) (catalogAgentId : Uuid) (channel : Channel)
    (withheld : List Uuid) : List (Uuid × VersionRow) :=
  tables.versions.select fun id row =>
    row.catalogAgentId = catalogAgentId ∧ row.channel ∈ channelScope channel ∧
      row.status ∈ offerableStatuses ∧ id ∉ withheld

/-- The version this workspace is currently entitled to run on its channel. -/
def offeredVersion (sha256 : String → Nat) (tables : Tables) (catalogAgentId workspaceId : Uuid)
    (channel : Channel) : Option (Uuid × Version) :=
  let active := activeRollouts tables catalogAgentId channel
  let bucket := rolloutBucket sha256 catalogAgentId workspaceId
  let included := active.filter fun entry => bucket < entry.1.percentage
  let withheld := (active.filter fun entry => ¬ bucket < entry.1.percentage).map
    fun entry => entry.1.versionId
  match included.argmax fun entry => entry.2.parts with
  | some chosen => some (chosen.1.versionId, chosen.2)
  | none =>
    ((fallbackVersions tables catalogAgentId channel withheld).argmax
      fun entry => entry.2.version.parts).map fun entry => (entry.1, entry.2.version)

end Nexora.Catalog
