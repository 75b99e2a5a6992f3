import Nexora.Std.Ranking
import Nexora.Catalog.Repository

/-!
# What a workspace is offered

`Offers` says which version a catalog offers a workspace in terms of the rollouts
that serve its channels and of the released versions, without queries or row order.
`offeredVersion_eq_some` connects it to the repository's computation; the release
results reason about `Offers` alone.
-/

namespace Nexora.Catalog

open Nexora.Std

/-- A rollout serves a subscriber when it is active on a channel in its scope. -/
structure Serves (tables : Tables) (catalogAgentId : Uuid) (channel : Channel)
    (rolloutId : Uuid) (row : RolloutRow) : Prop where
  stored : tables.rollouts.find? rolloutId = some row
  agent : row.catalogAgentId = catalogAgentId
  active : row.state = .active
  inScope : row.channel ∈ channelScope channel

/-- A version is released on a channel in the subscriber's scope. -/
structure Released (versions : Table Uuid VersionRow) (catalogAgentId : Uuid)
    (channel : Channel) (versionId : Uuid) (row : VersionRow) : Prop where
  stored : versions.find? versionId = some row
  agent : row.catalogAgentId = catalogAgentId
  inScope : row.channel ∈ channelScope channel
  offerable : row.status ∈ offerableStatuses

/-- Some active rollout in scope includes the bucket and serves this version. -/
def Included (tables : Tables) (catalogAgentId : Uuid) (channel : Channel) (bucket : Nat)
    (versionId : Uuid) : Prop :=
  ∃ rolloutId row, Serves tables catalogAgentId channel rolloutId row ∧
    bucket < row.percentage ∧ row.versionId = versionId

/-- Some active rollout in scope keeps this version from the bucket. -/
def Withheld (tables : Tables) (catalogAgentId : Uuid) (channel : Channel) (bucket : Nat)
    (versionId : Uuid) : Prop :=
  ∃ rolloutId row, Serves tables catalogAgentId channel rolloutId row ∧
    ¬ bucket < row.percentage ∧ row.versionId = versionId

/-- The newest version of a set of version identifiers. -/
def Newest (versions : Table Uuid VersionRow) (candidate : Uuid → Prop) (versionId : Uuid) :
    Prop :=
  candidate versionId ∧ ∃ row, versions.find? versionId = some row ∧
    ∀ other otherRow, candidate other → versions.find? other = some otherRow →
      otherRow.version.parts ≤ row.version.parts

/-- The newest included version, or else the newest released one not withheld. -/
def Offers (tables : Tables) (catalogAgentId : Uuid) (channel : Channel) (bucket : Nat)
    (versionId : Uuid) : Prop :=
  Newest tables.versions (Included tables catalogAgentId channel bucket) versionId ∨
    (∀ other, ¬ Included tables catalogAgentId channel bucket other) ∧
      Newest tables.versions
        (fun id => (∃ row, Released tables.versions catalogAgentId channel id row) ∧
          ¬ Withheld tables catalogAgentId channel bucket id) versionId

/-- The joined rows of `activeRollouts` are the rollouts that serve the subscriber. -/
theorem mem_activeRollouts (catalog : Catalog) (catalogAgentId : Uuid) (channel : Channel)
    (row : RolloutRow) (number : Version) :
    (row, number) ∈ activeRollouts catalog.tables catalogAgentId channel ↔
      ∃ rolloutId version, Serves catalog.tables catalogAgentId channel rolloutId row ∧
        catalog.tables.versions.find? row.versionId = some version ∧
          version.version = number := by
  unfold activeRollouts
  simp only [List.mem_filterMap, Prod.exists, Table.mem_select, decide_eq_true_eq,
    Option.map_eq_some_iff, Prod.mk.injEq]
  constructor
  · rintro ⟨rolloutId, _, ⟨stored, agent, active, inScope⟩, version, found, rfl, same⟩
    exact ⟨rolloutId, version, ⟨stored, agent, active, inScope⟩, found, same⟩
  · rintro ⟨rolloutId, version, serves, found, same⟩
    exact ⟨rolloutId, row, ⟨serves.stored, serves.agent, serves.active, serves.inScope⟩,
      version, found, rfl, same⟩

/-- Rollouts that serve one version number serve one version. -/
theorem activeRollouts_agree (catalog : Catalog) {catalogAgentId : Uuid} {channel : Channel}
    {left right : RolloutRow × Version}
    (leftMember : left ∈ activeRollouts catalog.tables catalogAgentId channel)
    (rightMember : right ∈ activeRollouts catalog.tables catalogAgentId channel)
    (rank : left.2.parts = right.2.parts) : left.1.versionId = right.1.versionId := by
  obtain ⟨_, leftVersion, leftServes, leftFound, leftNumber⟩ :=
    (mem_activeRollouts catalog _ _ _ _).mp leftMember
  obtain ⟨_, rightVersion, rightServes, rightFound, rightNumber⟩ :=
    (mem_activeRollouts catalog _ _ _ _).mp rightMember
  have leftAgent := catalog.rolloutVersion leftServes.stored
  have rightAgent := catalog.rolloutVersion rightServes.stored
  rw [leftFound, leftServes.agent] at leftAgent
  rw [rightFound, rightServes.agent] at rightAgent
  simp only [Option.some.injEq, exists_eq_left'] at leftAgent rightAgent
  refine catalog.versionUnique leftFound rightFound (leftAgent.trans rightAgent.symm) ?_
  rw [leftNumber, rightNumber]
  exact Version.parts_injective rank

/-- The highest included rollout serves the newest included version. -/
theorem newest_included (catalog : Catalog) (catalogAgentId : Uuid) (channel : Channel)
    (bucket : Nat) (versionId : Uuid) :
    (((activeRollouts catalog.tables catalogAgentId channel).filter
        fun entry => bucket < entry.1.percentage).argmax fun entry => entry.2.parts).map
        (fun entry => entry.1.versionId) = some versionId ↔
      Newest catalog.tables.versions (Included catalog.tables catalogAgentId channel bucket)
        versionId := by
  rw [argmax_map_eq_some]
  · constructor
    · rintro ⟨⟨row, number⟩, member, rfl, highest⟩
      obtain ⟨active, inside⟩ := List.mem_filter.mp member
      obtain ⟨rolloutId, version, serves, found, rfl⟩ :=
        (mem_activeRollouts catalog _ _ _ _).mp active
      refine ⟨⟨rolloutId, row, serves, by simpa using inside, rfl⟩, version, found, ?_⟩
      rintro _ otherVersion ⟨otherId, otherRow, otherServes, otherInside, rfl⟩ otherFound
      refine highest (otherRow, otherVersion.version) (List.mem_filter.mpr ⟨?_, by simpa⟩)
      exact (mem_activeRollouts catalog _ _ _ _).mpr
        ⟨otherId, otherVersion, otherServes, otherFound, rfl⟩
    · rintro ⟨⟨rolloutId, row, serves, inside, rfl⟩, version, found, highest⟩
      refine ⟨(row, version.version), List.mem_filter.mpr ⟨?_, by simpa⟩, rfl, ?_⟩
      · exact (mem_activeRollouts catalog _ _ _ _).mpr ⟨rolloutId, version, serves, found, rfl⟩
      · rintro ⟨otherRow, number⟩ member
        obtain ⟨active, otherInside⟩ := List.mem_filter.mp member
        obtain ⟨otherId, otherVersion, otherServes, otherFound, rfl⟩ :=
          (mem_activeRollouts catalog _ _ _ _).mp active
        exact highest otherRow.versionId otherVersion
          ⟨otherId, otherRow, otherServes, by simpa using otherInside, rfl⟩ otherFound
  · intro left leftMember right rightMember rank
    exact activeRollouts_agree catalog (List.mem_filter.mp leftMember).1
      (List.mem_filter.mp rightMember).1 rank

/-- The versions withheld from a bucket are those of the rollouts that exclude it. -/
theorem mem_withheld (catalog : Catalog) (catalogAgentId : Uuid) (channel : Channel)
    (bucket : Nat) (versionId : Uuid) :
    versionId ∈ ((activeRollouts catalog.tables catalogAgentId channel).filter
        fun entry => ¬ bucket < entry.1.percentage).map (fun entry => entry.1.versionId) ↔
      Withheld catalog.tables catalogAgentId channel bucket versionId := by
  simp only [List.mem_map, List.mem_filter, Prod.exists, decide_eq_true_eq]
  constructor
  · rintro ⟨row, number, ⟨active, outside⟩, same⟩
    obtain ⟨rolloutId, _, serves, _, _⟩ := (mem_activeRollouts catalog _ _ _ _).mp active
    exact ⟨rolloutId, row, serves, outside, same⟩
  · rintro ⟨rolloutId, row, serves, outside, same⟩
    obtain ⟨version, found, _⟩ := catalog.rolloutVersion serves.stored
    exact ⟨row, version.version, ⟨(mem_activeRollouts catalog _ _ _ _).mpr
      ⟨rolloutId, version, serves, found, rfl⟩, outside⟩, same⟩

/-- The first row of the fallback query is the newest released version not withheld. -/
theorem newest_fallback (catalog : Catalog) (catalogAgentId : Uuid) (channel : Channel)
    (withheld : List Uuid) (versionId : Uuid) :
    ((fallbackVersions catalog.tables catalogAgentId channel withheld).argmax
        fun entry => entry.2.version.parts).map Prod.fst = some versionId ↔
      Newest catalog.tables.versions
        (fun id => (∃ row, Released catalog.tables.versions catalogAgentId channel id row) ∧
          id ∉ withheld) versionId := by
  have listed : ∀ id row,
      (id, row) ∈ fallbackVersions catalog.tables catalogAgentId channel withheld ↔
        Released catalog.tables.versions catalogAgentId channel id row ∧ id ∉ withheld := by
    intro id row
    simp only [fallbackVersions, Table.mem_select, decide_eq_true_eq]
    constructor
    · rintro ⟨stored, agent, inScope, offerable, kept⟩
      exact ⟨⟨stored, agent, inScope, offerable⟩, kept⟩
    · rintro ⟨released, kept⟩
      exact ⟨released.stored, released.agent, released.inScope, released.offerable, kept⟩
  rw [argmax_map_eq_some]
  · constructor
    · rintro ⟨⟨id, row⟩, member, rfl, highest⟩
      obtain ⟨released, kept⟩ := (listed _ _).mp member
      refine ⟨⟨⟨row, released⟩, kept⟩, row, released.stored, ?_⟩
      rintro other otherRow ⟨⟨_, otherReleased⟩, otherKept⟩ otherFound
      have same := otherReleased.stored.symm.trans otherFound
      cases same
      exact highest (other, otherRow) ((listed _ _).mpr ⟨otherReleased, otherKept⟩)
    · rintro ⟨⟨⟨row, released⟩, kept⟩, stored, found, highest⟩
      have same := released.stored.symm.trans found
      cases same
      refine ⟨(versionId, row), (listed _ _).mpr ⟨released, kept⟩, rfl, ?_⟩
      rintro ⟨other, otherRow⟩ member
      obtain ⟨otherReleased, otherKept⟩ := (listed _ _).mp member
      exact highest other otherRow ⟨⟨otherRow, otherReleased⟩, otherKept⟩ otherReleased.stored
  · rintro ⟨left, leftRow⟩ leftMember ⟨right, rightRow⟩ rightMember rank
    have leftReleased := ((listed _ _).mp leftMember).1
    have rightReleased := ((listed _ _).mp rightMember).1
    exact catalog.versionUnique leftReleased.stored rightReleased.stored
      (leftReleased.agent.trans rightReleased.agent.symm) (Version.parts_injective rank)

/-- The offer names a version exactly when the catalog offers that version. -/
theorem offeredVersion_eq_some (sha256 : String → Nat) (catalog : Catalog)
    (catalogAgentId workspaceId : Uuid) (channel : Channel) (versionId : Uuid) :
    (offeredVersion sha256 catalog.tables catalogAgentId workspaceId channel).map Prod.fst =
        some versionId ↔
      Offers catalog.tables catalogAgentId channel
        (rolloutBucket sha256 catalogAgentId workspaceId) versionId := by
  have included := newest_included catalog catalogAgentId channel
    (rolloutBucket sha256 catalogAgentId workspaceId)
  simp only [offeredVersion]
  split
  next chosen highest =>
    rw [highest] at included
    have newest := (included chosen.1.versionId).mp rfl
    constructor
    · intro same
      exact .inl ((included versionId).mp (by simpa using same))
    · rintro (offered | ⟨nothing, _⟩)
      · simpa using (included versionId).mpr offered
      · exact absurd newest.1 (nothing _)
  next nothing =>
    rw [nothing] at included
    have empty := List.argmax_eq_none.mp nothing
    have fallback := newest_fallback catalog catalogAgentId channel
      (((activeRollouts catalog.tables catalogAgentId channel).filter fun entry =>
        ¬ rolloutBucket sha256 catalogAgentId workspaceId < entry.1.percentage).map
          fun entry => entry.1.versionId) versionId
    simp only [mem_withheld] at fallback
    rw [Option.map_map]
    constructor
    · intro same
      refine .inr ⟨?_, fallback.mp same⟩
      rintro other ⟨rolloutId, row, serves, inside, _⟩
      obtain ⟨version, found, _⟩ := catalog.rolloutVersion serves.stored
      have member : (row, version.version) ∈ ([] : List (RolloutRow × Version)) := by
        rw [← empty]
        exact List.mem_filter.mpr ⟨(mem_activeRollouts catalog _ _ _ _).mpr
          ⟨rolloutId, version, serves, found, rfl⟩, by simpa using inside⟩
      simp at member
    · rintro (offered | ⟨_, newest⟩)
      · have impossible := (included versionId).mpr offered
        simp at impossible
      · exact fallback.mpr newest

end Nexora.Catalog
