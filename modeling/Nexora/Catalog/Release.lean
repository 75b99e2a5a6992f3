import Nexora.Catalog.Offer

/-!
# Leaving the active state

What a rollout's withdrawal does to the workspaces its stage withheld it from. The
source states that an excluded tenant keeps the version that served its channel
before. A withdrawal keeps that promise only on the catalogs described by
`PauseWithholds` and `RollbackWithholds`: elsewhere the newest-offerable fallback,
whose withheld list forgets the rollout, hands its version to everyone.
-/

namespace Nexora.Catalog

open Nexora.Std

/-- The rollout served a channel before another one of its channel and agent. -/
structure Preceding (tables : Tables) (catalogAgentId : Uuid) (current : RolloutRow)
    (previousId : Uuid) (previous : RolloutRow) : Prop where
  stored : tables.rollouts.find? previousId = some previous
  agent : previous.catalogAgentId = catalogAgentId
  channel : previous.channel = current.channel
  earlier : previous.createdAt < current.createdAt
  kept : previous.state ≠ .rolledBack
  latest : ∀ otherId other, tables.rollouts.find? otherId = some other →
    other.catalogAgentId = catalogAgentId → other.channel = current.channel →
      other.createdAt < current.createdAt → other.state ≠ .rolledBack →
        toLex (other.createdAt, otherId) ≤ toLex (previous.createdAt, previousId)

/-- The catalogs on which withdrawing a rollout, with nothing in its place, leaves
its version withheld from a bucket outside its stage: the rollout's channel is out of
scope, another rollout in scope includes the bucket or withholds the same version,
the version is not released to the subscriber, or a newer released one is. -/
def PauseWithholds (tables : Tables) (catalogAgentId : Uuid) (channel : Channel) (bucket : Nat)
    (rolloutId : Uuid) (row : RolloutRow) : Prop :=
  row.channel ∉ channelScope channel ∨
    (∃ other otherRow, Serves tables catalogAgentId channel other otherRow ∧
      bucket < otherRow.percentage) ∨
    (∃ other otherRow, other ≠ rolloutId ∧ Serves tables catalogAgentId channel other otherRow ∧
      otherRow.versionId = row.versionId) ∨
    (∀ version, ¬ Released tables.versions catalogAgentId channel row.versionId version) ∨
    ∃ version newer newerRow, tables.versions.find? row.versionId = some version ∧
      Released tables.versions catalogAgentId channel newer newerRow ∧
      version.version.parts < newerRow.version.parts ∧
      ∀ other otherRow, other ≠ rolloutId → Serves tables catalogAgentId channel other otherRow →
        otherRow.versionId ≠ newer

/-- The catalogs on which rolling a rollout back leaves its version withheld: with
nothing to restore those of `PauseWithholds`; otherwise the channel is out of scope,
the restored version is another one, or a newer version includes the bucket. -/
def RollbackWithholds (tables : Tables) (catalogAgentId : Uuid) (channel : Channel)
    (bucket : Nat) (rolloutId : Uuid) (row : RolloutRow) : Prop :=
  ((∀ previousId previous, ¬ Preceding tables catalogAgentId row previousId previous) →
      PauseWithholds tables catalogAgentId channel bucket rolloutId row) ∧
    ∀ previousId previous, Preceding tables catalogAgentId row previousId previous →
      row.channel ∉ channelScope channel ∨ previous.versionId ≠ row.versionId ∨
        ∃ newer newerRow version, Included tables catalogAgentId channel bucket newer ∧
          tables.versions.find? newer = some newerRow ∧
          tables.versions.find? row.versionId = some version ∧
          version.version.parts < newerRow.version.parts

section

variable {catalogAgentId : Uuid} {channel : Channel} {bucket : Nat} {catalog next : Catalog}
  {rolloutId : Uuid} {row : RolloutRow}

/-- Offers depend only on the versions and on the rollouts that serve the subscriber. -/
theorem offers_congr (bucket : Nat) (versions : next.tables.versions = catalog.tables.versions)
    (serves : ∀ other otherRow, Serves next.tables catalogAgentId channel other otherRow ↔
      Serves catalog.tables catalogAgentId channel other otherRow) (versionId : Uuid) :
    Offers next.tables catalogAgentId channel bucket versionId ↔
      Offers catalog.tables catalogAgentId channel bucket versionId := by
  have included : Included next.tables catalogAgentId channel bucket =
      Included catalog.tables catalogAgentId channel bucket := by
    funext id
    simp only [Included, serves]
  simp only [Offers, included, Withheld, serves, versions]

/-- Withdrawing a rollout keeps its version from a bucket outside its stage exactly
when `PauseWithholds`. -/
theorem withdrawn_withholds_iff (stored : catalog.tables.rollouts.find? rolloutId = some row)
    (outside : ¬ bucket < row.percentage)
    (notOffered : ¬ Offers catalog.tables catalogAgentId channel bucket row.versionId)
    (versions : next.tables.versions = catalog.tables.versions)
    (serves : ∀ other otherRow, Serves next.tables catalogAgentId channel other otherRow ↔
      other ≠ rolloutId ∧ Serves catalog.tables catalogAgentId channel other otherRow) :
    ¬ Offers next.tables catalogAgentId channel bucket row.versionId ↔
      PauseWithholds catalog.tables catalogAgentId channel bucket rolloutId row := by
  by_cases inScope : row.channel ∈ channelScope channel
  swap
  · -- The subscriber never saw the rollout, so nothing changes for it.
    have unchanged := offers_congr bucket versions (fun other otherRow => by
      rw [serves]
      constructor
      · exact fun both => both.2
      · intro served
        refine ⟨?_, served⟩
        rintro rfl
        have same := stored.symm.trans served.stored
        cases same
        exact inScope served.inScope) row.versionId
    constructor
    · exact fun _ => .inl inScope
    · exact fun _ offered => notOffered (unchanged.mp offered)
  -- The rollout excluded the bucket, so its withdrawal includes nobody and drops nobody.
  have included : Included next.tables catalogAgentId channel bucket =
      Included catalog.tables catalogAgentId channel bucket := by
    funext id
    refine propext ⟨?_, ?_⟩
    · rintro ⟨other, otherRow, served, inside, same⟩
      exact ⟨other, otherRow, ((serves _ _).mp served).2, inside, same⟩
    · rintro ⟨other, otherRow, served, inside, same⟩
      refine ⟨other, otherRow, (serves _ _).mpr ⟨?_, served⟩, inside, same⟩
      rintro rfl
      have rows := stored.symm.trans served.stored
      cases rows
      exact outside inside
  by_cases someone : ∃ other otherRow, Serves catalog.tables catalogAgentId channel other otherRow ∧
      bucket < otherRow.percentage
  · obtain ⟨other, otherRow, served, inside⟩ := someone
    constructor
    · exact fun _ => .inr (.inl ⟨other, otherRow, served, inside⟩)
    · rintro _ (offered | ⟨nobody, _⟩)
      · refine notOffered (.inl ?_)
        simpa only [Newest, included, versions] using offered
      · refine nobody otherRow.versionId ?_
        rw [included]
        exact ⟨other, otherRow, served, inside, rfl⟩
  have nobody : ∀ id, ¬ Included catalog.tables catalogAgentId channel bucket id := by
    rintro id ⟨other, otherRow, served, inside, _⟩
    exact someone ⟨other, otherRow, served, inside⟩
  have withheld : ∀ id, Withheld next.tables catalogAgentId channel bucket id ↔
      ∃ other otherRow, other ≠ rolloutId ∧
        Serves catalog.tables catalogAgentId channel other otherRow ∧ otherRow.versionId = id := by
    intro id
    constructor
    · rintro ⟨other, otherRow, served, _, same⟩
      exact ⟨other, otherRow, ((serves _ _).mp served).1, ((serves _ _).mp served).2, same⟩
    · rintro ⟨other, otherRow, distinct, served, same⟩
      exact ⟨other, otherRow, (serves _ _).mpr ⟨distinct, served⟩,
        fun inside => someone ⟨other, otherRow, served, inside⟩, same⟩
  have offered : Offers next.tables catalogAgentId channel bucket row.versionId ↔
      Newest catalog.tables.versions
        (fun id => (∃ version, Released catalog.tables.versions catalogAgentId channel id version) ∧
          ¬ Withheld next.tables catalogAgentId channel bucket id) row.versionId := by
    simp only [Offers, included, versions]
    constructor
    · rintro (⟨someIncluded, _⟩ | ⟨_, newest⟩)
      · exact absurd someIncluded (nobody row.versionId)
      · exact newest
    · exact fun newest => .inr ⟨nobody, newest⟩
  rw [offered]
  constructor
  · intro notNewest
    by_contra escapes
    simp only [PauseWithholds, not_or] at escapes
    obtain ⟨_, _, notShared, released, noNewer⟩ := escapes
    obtain ⟨version, isReleased⟩ := not_forall_not.mp released
    refine notNewest ⟨⟨⟨version, isReleased⟩, ?_⟩, version, isReleased.stored, ?_⟩
    · intro shared
      exact notShared ((withheld _).mp shared)
    · rintro other otherRow ⟨⟨_, otherReleased⟩, otherKept⟩ otherFound
      have same := otherReleased.stored.symm.trans otherFound
      cases same
      by_contra newer
      refine noNewer ⟨version, other, otherRow, isReleased.stored, otherReleased,
        not_le.mp newer, ?_⟩
      intro rollout rolloutRow distinct served same
      exact otherKept ((withheld _).mpr ⟨rollout, rolloutRow, distinct, served, same⟩)
  · rintro keeps ⟨⟨⟨version, released⟩, kept⟩, found, foundRow, highest⟩
    have same := released.stored.symm.trans foundRow
    cases same
    rcases keeps with outOfScope | someIncluded | shared | unreleased | newer
    · exact outOfScope inScope
    · exact someone someIncluded
    · exact kept ((withheld _).mpr shared)
    · exact unreleased version released
    · obtain ⟨_, newer, newerRow, versionFound, newerReleased, above, free⟩ := newer
      have rows := released.stored.symm.trans versionFound
      cases rows
      refine absurd (highest newer newerRow ⟨⟨newerRow, newerReleased⟩, ?_⟩
        newerReleased.stored) (not_le.mpr above)
      intro shared
      obtain ⟨other, otherRow, distinct, served, rows⟩ := (withheld _).mp shared
      exact free other otherRow distinct served rows

/-- Rolling back to an earlier rollout keeps the version from a bucket outside its
stage exactly when that rollout's version is another one, or a newer version includes
the bucket, or the channel is out of scope. -/
theorem restored_withholds_iff (previous : Uuid) {version : VersionRow}
    (found : catalog.tables.versions.find? row.versionId = some version)
    (notOffered : ¬ Offers catalog.tables catalogAgentId channel bucket row.versionId)
    (versions : next.tables.versions = catalog.tables.versions)
    (included : ∀ id, Included next.tables catalogAgentId channel bucket id ↔
      Included catalog.tables catalogAgentId channel bucket id ∨
        row.channel ∈ channelScope channel ∧ previous = id)
    (outOfScope : row.channel ∉ channelScope channel →
      ∀ other otherRow, Serves next.tables catalogAgentId channel other otherRow ↔
        Serves catalog.tables catalogAgentId channel other otherRow) :
    ¬ Offers next.tables catalogAgentId channel bucket row.versionId ↔
      row.channel ∉ channelScope channel ∨ previous ≠ row.versionId ∨
        ∃ newer newerRow version, Included catalog.tables catalogAgentId channel bucket newer ∧
          catalog.tables.versions.find? newer = some newerRow ∧
          catalog.tables.versions.find? row.versionId = some version ∧
          version.version.parts < newerRow.version.parts := by
  by_cases inScope : row.channel ∈ channelScope channel
  swap
  · have unchanged := offers_congr bucket versions (outOfScope inScope) row.versionId
    constructor
    · exact fun _ => .inl inScope
    · exact fun _ offered => notOffered (unchanged.mp offered)
  -- The replacement includes every bucket, so the fallback is never consulted.
  have offered : Offers next.tables catalogAgentId channel bucket row.versionId ↔
      Newest catalog.tables.versions (Included next.tables catalogAgentId channel bucket)
        row.versionId := by
    rw [Offers, versions]
    constructor
    · rintro (newest | ⟨nobody, _⟩)
      · exact newest
      · exact absurd ((included previous).mpr (.inr ⟨inScope, rfl⟩)) (nobody previous)
    · exact .inl
  rw [offered]
  constructor
  · intro notNewest
    by_cases same : previous = row.versionId
    swap
    · exact .inr (.inl same)
    refine .inr (.inr ?_)
    by_contra noNewer
    refine notNewest ⟨(included _).mpr (.inr ⟨inScope, same⟩), version, found, ?_⟩
    intro other otherRow candidate otherFound
    rcases (included other).mp candidate with before | ⟨_, rfl⟩
    · by_contra newer
      exact noNewer ⟨other, otherRow, version, before, otherFound, found, not_le.mp newer⟩
    · rw [same, found] at otherFound
      cases otherFound
      exact le_rfl
  · rintro keeps ⟨candidate, _, foundRow, highest⟩
    have rows := found.symm.trans foundRow
    cases rows
    rcases keeps with outOfScope | another | ⟨newer, newerRow, _, before, newerFound, row, above⟩
    · exact outOfScope inScope
    · rcases (included _).mp candidate with before | ⟨_, same⟩
      · refine notOffered (.inl ⟨before, version, found, ?_⟩)
        intro other otherRow earlier otherFound
        exact highest other otherRow ((included _).mpr (.inl earlier)) otherFound
      · exact another same
    · have rows := found.symm.trans row
      cases rows
      exact absurd (highest newer newerRow ((included _).mpr (.inl before)) newerFound)
        (not_le.mpr above)

end

/-- The rollback's query finds the rollout that preceded the current one. -/
theorem precedingRollout_eq_some (tables : Tables) (catalogAgentId : Uuid) (current : RolloutRow)
    (previousId : Uuid) (previous : RolloutRow) :
    precedingRollout tables catalogAgentId current = some (previousId, previous) ↔
      Preceding tables catalogAgentId current previousId previous := by
  have query := argmax_map_eq_some
    (fun entry : Uuid × RolloutRow => toLex (entry.2.createdAt, entry.1)) id
    (tables.rollouts.select fun _ row =>
      row.catalogAgentId = catalogAgentId ∧ row.channel = current.channel ∧
        row.createdAt < current.createdAt ∧ row.state ≠ .rolledBack) ?_ (previousId, previous)
  · rw [Option.map_id] at query
    refine query.trans ?_
    simp only [Prod.exists, Table.mem_select, decide_eq_true_eq, id_eq, Prod.mk.injEq]
    constructor
    · rintro ⟨_, _, ⟨stored, agent, channel, earlier, kept⟩, ⟨rfl, rfl⟩, latest⟩
      refine ⟨stored, agent, channel, earlier, kept, ?_⟩
      intro otherId other otherStored otherAgent otherChannel otherEarlier otherKept
      refine latest (otherId, other) ?_
      simpa using ⟨otherStored, otherAgent, otherChannel, otherEarlier, otherKept⟩
    · intro preceding
      refine ⟨previousId, previous, ⟨preceding.stored, preceding.agent, preceding.channel,
        preceding.earlier, preceding.kept⟩, ⟨rfl, rfl⟩, ?_⟩
      rintro ⟨otherId, other⟩ member
      obtain ⟨otherStored, otherAgent, otherChannel, otherEarlier, otherKept⟩ := by
        simpa using member
      exact preceding.latest otherId other otherStored otherAgent otherChannel otherEarlier
        otherKept
  · rintro ⟨left, leftRow⟩ leftMember ⟨right, rightRow⟩ rightMember rank
    simp only [Table.mem_select] at leftMember rightMember
    have keys : left = right := by simpa using congrArg (fun key => (ofLex key).2) rank
    subst keys
    have rows := leftMember.1.symm.trans rightMember.1
    cases rows
    rfl

section

variable {catalogAgentId : Uuid} {channel : Channel} {catalog next : Catalog} {rolloutId : Uuid}
  {change : RolloutRow → RolloutRow}

/-- Once a rollout left the active state, the others alone serve the subscriber. -/
theorem serves_of_modify
    (rollouts : next.tables.rollouts = catalog.tables.rollouts.modify rolloutId change)
    (inactive : ∀ row, (change row).state ≠ .active) (other : Uuid) (otherRow : RolloutRow) :
    Serves next.tables catalogAgentId channel other otherRow ↔
      other ≠ rolloutId ∧ Serves catalog.tables catalogAgentId channel other otherRow := by
  constructor
  · rintro ⟨stored, agent, active, inScope⟩
    rw [rollouts, Table.find?_modify] at stored
    split at stored
    · obtain ⟨row, _, rfl⟩ := Option.map_eq_some_iff.mp stored
      exact absurd active (inactive row)
    next distinct => exact ⟨distinct, stored, agent, active, inScope⟩
  · rintro ⟨distinct, stored, agent, active, inScope⟩
    refine ⟨?_, agent, active, inScope⟩
    rw [rollouts, Table.find?_modify_ne _ _ distinct]
    exact stored

/-- After a replacement started, it serves the subscriber beside the others. -/
theorem serves_of_put (channel : Channel) {replacement : Uuid} {started : RolloutRow}
    (free : (catalog.tables.rollouts.modify rolloutId change).find? replacement = none)
    (rollouts : next.tables.rollouts =
      (catalog.tables.rollouts.modify rolloutId change).put replacement started)
    (inactive : ∀ row, (change row).state ≠ .active) (active : started.state = .active)
    (agent : started.catalogAgentId = catalogAgentId) (other : Uuid) (otherRow : RolloutRow) :
    Serves next.tables catalogAgentId channel other otherRow ↔
      (other ≠ rolloutId ∧ Serves catalog.tables catalogAgentId channel other otherRow) ∨
        (other = replacement ∧ otherRow = started ∧ started.channel ∈ channelScope channel) := by
  constructor
  · rintro ⟨stored, otherAgent, otherActive, inScope⟩
    rw [rollouts, Table.find?_put_eq, Table.find?_modify] at stored
    split at stored
    next same =>
      cases stored
      exact .inr ⟨same, rfl, inScope⟩
    · split at stored
      · obtain ⟨row, _, rfl⟩ := Option.map_eq_some_iff.mp stored
        exact absurd otherActive (inactive row)
      next distinct => exact .inl ⟨distinct, stored, otherAgent, otherActive, inScope⟩
  · rintro (⟨distinct, stored, otherAgent, otherActive, inScope⟩ | ⟨rfl, rfl, inScope⟩)
    · refine ⟨?_, otherAgent, otherActive, inScope⟩
      rw [rollouts, Table.find?_put_eq, Table.find?_modify_ne _ _ distinct, if_neg]
      · exact stored
      · rintro rfl
        rw [Table.find?_modify_ne _ _ distinct, stored] at free
        cases free
    · refine ⟨?_, agent, active, inScope⟩
      rw [rollouts, Table.find?_put]

end

/-- A pause, or any other update that leaves the active state, keeps the version from
every workspace its stage withheld it from exactly on the catalogs of
`PauseWithholds`, and a rollback exactly on those of `RollbackWithholds`. -/
theorem leaving_active_withholds_iff (sha256 : String → Nat) (catalog : Catalog) (slug : String)
    (rolloutId workspaceId : Uuid) (row : RolloutRow) (channel : Channel)
    (stored : catalog.tables.rollouts.find? rolloutId = some row)
    (outside : ¬ rolloutBucket sha256 row.catalogAgentId workspaceId < row.percentage)
    (notOffered : (offeredVersion sha256 catalog.tables row.catalogAgentId workspaceId
      channel).map Prod.fst ≠ some row.versionId) :
    (∀ body now rollout next, updateRollout catalog slug rolloutId body now = .ok (rollout, next) →
      (∃ state ∈ body.state, state ≠ .active) →
        ((offeredVersion sha256 next.tables row.catalogAgentId workspaceId channel).map Prod.fst ≠
            some row.versionId ↔
          PauseWithholds catalog.tables row.catalogAgentId channel
            (rolloutBucket sha256 row.catalogAgentId workspaceId) rolloutId row)) ∧
    ∀ replacement now rollout next,
      rollbackRollout catalog slug rolloutId replacement now = .ok (rollout, next) →
        ((offeredVersion sha256 next.tables row.catalogAgentId workspaceId channel).map Prod.fst ≠
            some row.versionId ↔
          RollbackWithholds catalog.tables row.catalogAgentId channel
            (rolloutBucket sha256 row.catalogAgentId workspaceId) rolloutId row) := by
  rw [Ne, offeredVersion_eq_some] at notOffered
  constructor
  · rintro body now rollout next ok ⟨state, requested, inactive⟩
    have tables := updateRollout_ok ok
    rw [Ne, offeredVersion_eq_some]
    refine withdrawn_withholds_iff stored outside notOffered (by rw [tables]) ?_
    refine serves_of_modify (by rw [tables]) fun other => ?_
    simpa [Option.mem_def.mp requested] using inactive
  · intro replacement now rollout next ok
    obtain ⟨_, storedRow, tables⟩ := rollbackRollout_ok ok
    cases storedRow.symm.trans stored
    rw [Ne, offeredVersion_eq_some]
    have inactive : ∀ other : RolloutRow,
        { other with state := RolloutState.rolledBack, updatedAt := now }.state ≠ .active := by
      simp
    cases preceding : precedingRollout catalog.tables row.catalogAgentId row with
    | none =>
      rw [preceding] at tables
      have none : ∀ previousId previous,
          ¬ Preceding catalog.tables row.catalogAgentId row previousId previous := by
        intro previousId previous holds
        rw [(precedingRollout_eq_some _ _ _ _ _).mpr holds] at preceding
        cases preceding
      rw [withdrawn_withholds_iff stored outside notOffered (by rw [tables])
        (serves_of_modify (by rw [tables]) inactive)]
      constructor
      · exact fun keeps => ⟨fun _ => keeps, fun _ _ holds => absurd holds (none _ _)⟩
      · exact fun keeps => keeps.1 none
    | some previous =>
      rw [preceding] at tables
      obtain ⟨free, tables⟩ := tables
      have holds := (precedingRollout_eq_some _ _ _ previous.1 previous.2).mp preceding
      obtain ⟨version, found, _⟩ := catalog.rolloutVersion stored
      have serves := serves_of_put channel free
        (congrArg Tables.rollouts tables) inactive rfl rfl
      have excluded : ∀ other otherRow,
          Serves catalog.tables row.catalogAgentId channel other otherRow →
            rolloutBucket sha256 row.catalogAgentId workspaceId < otherRow.percentage →
              other ≠ rolloutId := by
        rintro other otherRow served inside rfl
        cases stored.symm.trans served.stored
        exact outside inside
      rw [restored_withholds_iff previous.2.versionId found notOffered
        (by rw [tables])]
      · constructor
        · intro keeps
          refine ⟨fun none => absurd holds (none _ _), ?_⟩
          intro otherId other otherHolds
          have same := (precedingRollout_eq_some _ _ _ _ _).mpr otherHolds
          cases preceding.symm.trans same
          exact keeps
        · exact fun keeps => keeps.2 _ _ holds
      · intro id
        constructor
        · rintro ⟨other, otherRow, served, inside, same⟩
          rcases (serves other otherRow).mp served with ⟨_, before⟩ | ⟨_, rfl, inScope⟩
          · exact .inl ⟨other, otherRow, before, inside, same⟩
          · exact .inr ⟨inScope, same⟩
        · rintro (⟨other, otherRow, before, inside, same⟩ | ⟨inScope, same⟩)
          · exact ⟨other, otherRow, (serves _ _).mpr
              (.inl ⟨excluded _ _ before inside, before⟩), inside, same⟩
          · exact ⟨replacement, _, (serves _ _).mpr (.inr ⟨rfl, rfl, inScope⟩),
              rolloutBucket_lt _ _ _, same⟩
      · intro outOfScope other otherRow
        rw [serves]
        constructor
        · rintro (⟨_, before⟩ | ⟨_, _, inScope⟩)
          · exact before
          · exact absurd inScope outOfScope
        · intro before
          refine .inl ⟨?_, before⟩
          rintro rfl
          cases stored.symm.trans before.stored
          exact outOfScope before.inScope

/-- A rollout of version 3 that no bucket is inside of. -/
def stagedRollout : RolloutRow :=
  { catalogAgentId := 1, versionId := 3, channel := .stable, percentage := 0,
    state := .active, createdAt := 1, updatedAt := 1 }

/-- A manifest without integrations. -/
def plainManifest (version : Version) : AgentManifest where
  slug := "seo"
  version := version
  minRuntimeVersion := ⟨1, 0, 0⟩
  status := .stable
  channel := .stable
  changelog := ""
  requiredIntegrations := []
  optionalIntegrations := []
  requiredDistinct := by simp
  optionalDistinct := by simp
  neverBoth := by simp

/-- A stable release of that manifest on the stable channel. -/
def plainVersion (version : Version) : VersionRow where
  catalogAgentId := 1
  version := version
  status := .stable
  channel := .stable
  manifest := plainManifest version
  minRuntimeVersion := ⟨1, 0, 0⟩
  changelog := ""
  createdAt := 0

/-- Two stable versions, the newer one staged at 0% on the stable channel. -/
def stagedTables : Tables where
  workspaces := [7]
  agents := Table.ofList [(1,
    { slug := "seo", name := "SEO", description := "Search", category := "marketing",
      icon := "search", status := .stable, visibility := .publicly, createdAt := 0,
      updatedAt := 0 })]
  versions := Table.ofList [(2, plainVersion ⟨1, 0, 0⟩), (3, plainVersion ⟨1, 1, 0⟩)]
  entitlements := Table.empty
  rollouts := Table.ofList [(4, stagedRollout)]

/-- The staged tables satisfy every constraint of the database. -/
def stagedCatalog : Catalog := ⟨stagedTables, by decide⟩

/-- A pause of the staged rollout. -/
def pauseBody : RolloutUpdate :=
  { percentage := none, state := some .paused, percentageRange := by simp, notEmpty := by simp,
    notRolledBack := by decide }

/-- `leaving_active_withholds_iff` applies to the staged catalog's workspace. -/
theorem leaving_active_withholds_iff_staged :
    (offeredVersion (fun _ => 0) stagedTables 1 7 .stable).map Prod.fst ≠ some 3 ∧
      ∀ now rollout next, updateRollout stagedCatalog "seo" 4 pauseBody now = .ok (rollout, next) →
        ((offeredVersion (fun _ => 0) next.tables 1 7 .stable).map Prod.fst ≠ some 3 ↔
          PauseWithholds stagedTables 1 .stable 0 4 stagedRollout) :=
  ⟨by decide, fun now rollout next ok =>
    (leaving_active_withholds_iff (fun _ => 0) stagedCatalog "seo" 4 7 stagedRollout
      .stable (by decide) (by decide) (by decide)).1 pauseBody now rollout next ok
        ⟨.paused, rfl, by decide⟩⟩

/-- Pausing the staged rollout hands its version to the workspace it excluded. -/
theorem pause_widens_release :
    ¬ ∀ (sha256 : String → Nat) (catalog : Catalog) (slug : String) (rolloutId workspaceId : Uuid)
        (row : RolloutRow) (channel : Channel),
      catalog.tables.rollouts.find? rolloutId = some row → row.state = .active →
        ¬ rolloutBucket sha256 row.catalogAgentId workspaceId < row.percentage →
        (offeredVersion sha256 catalog.tables row.catalogAgentId workspaceId channel).map
          Prod.fst ≠ some row.versionId →
        ∀ body now rollout next,
          updateRollout catalog slug rolloutId body now = .ok (rollout, next) →
            body.state = some .paused →
              (offeredVersion sha256 next.tables row.catalogAgentId workspaceId channel).map
                Prod.fst ≠ some row.versionId := by
  intro withheld
  have accepted : (updateRollout stagedCatalog "seo" 4 pauseBody 9).isOk = true := by decide
  cases ok : updateRollout stagedCatalog "seo" 4 pauseBody 9 with
  | error raised =>
    rw [ok] at accepted
    cases accepted
  | ok result =>
    refine withheld (fun _ => 0) stagedCatalog "seo" 4 7 stagedRollout .stable
      (by decide) (by decide) (by decide) (by decide) pauseBody 9 result.1 result.2 ok rfl ?_
    rw [updateRollout_ok ok]
    decide

end Nexora.Catalog
