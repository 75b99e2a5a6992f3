import Nexora.Catalog.Served

/-!
# The rollout state machine

One rollout of an agent is active on a channel at a time, which the database enforces: an
update or a rollback that would make a second one active is aborted. A rollback reinstates
the newest unretired rollout started before the one it retires. That is the one which served
the channel before it as long as only the newest unretired rollout is resumed and only the
active one rolled back, and the one rolled back did not itself reinstate another.
-/

namespace Nexora.Catalog

open Nexora.Std

/-- A rollout of an agent on a channel. -/
structure OnChannel (tables : Tables) (catalogAgentId : Uuid) (channel : Channel)
    (rolloutId : Uuid) (row : RolloutRow) : Prop where
  stored : tables.rollouts.find? rolloutId = some row
  agent : row.catalogAgentId = catalogAgentId
  channel : row.channel = channel

/-- Another rollout is active on the rollout's channel. -/
def Occupied (tables : Tables) (rolloutId : Uuid) (row : RolloutRow) : Prop :=
  ∃ other otherRow, other ≠ rolloutId ∧
    OnChannel tables row.catalogAgentId row.channel other otherRow ∧ otherRow.state = .active

/-- A rollout that was not rolled back was started on the rollout's channel before it. -/
def Succeeds (tables : Tables) (row : RolloutRow) : Prop :=
  ∃ other otherRow, OnChannel tables row.catalogAgentId row.channel other otherRow ∧
    otherRow.createdAt < row.createdAt ∧ otherRow.state ≠ .rolledBack

variable {row : RolloutRow} {tables : Tables} {channel : Channel} {replacement : Uuid}

section Commits

variable {catalog : Nexora.Catalog} {slug : String} {rolloutId : Uuid} {now : Instant}
  {agent : Uuid × AgentRow} {catalogAgentId other : Uuid} {current : Rollout}

/-- One active rollout for each agent and channel. -/
def OneActive (rollouts : Table Uuid RolloutRow) : Prop :=
  ∀ left leftRow right rightRow, rollouts.find? left = some leftRow →
    rollouts.find? right = some rightRow → leftRow.state = .active → rightRow.state = .active →
      leftRow.catalogAgentId = rightRow.catalogAgentId → leftRow.channel = rightRow.channel →
        left = right

theorem oneActive (catalog : Nexora.Catalog) : OneActive catalog.tables.rollouts := by
  intro left leftRow right rightRow leftStored rightStored leftActive rightActive agent channel
  exact catalog.consistent.oneActive (left, leftRow) (by simpa using leftStored)
    (right, rightRow) (by simpa using rightStored) leftActive rightActive agent channel

/-- Rollouts of stored versions, at a valid width, are refused by the index on active ones
alone. -/
theorem consistent_iff_oneActive {rollouts : Table Uuid RolloutRow}
    (valid : ∀ other row, rollouts.find? other = some row →
      (catalog.tables.versions.find? row.versionId).map VersionRow.catalogAgentId =
        some row.catalogAgentId ∧ row.percentage ≤ 100) :
    ({ catalog.tables with rollouts := rollouts } : Tables).Consistent ↔ OneActive rollouts := by
  constructor
  · intro consistent left leftRow right rightRow leftStored rightStored
    exact consistent.oneActive (left, leftRow) (by simpa using leftStored) (right, rightRow)
      (by simpa using rightStored)
  · intro one
    obtain ⟨slugs, versionAgent, range, unique, entitled, _, _, _⟩ := catalog.consistent
    refine ⟨slugs, versionAgent, range, unique, entitled, ?_, ?_, ?_⟩
    · rintro ⟨other, row⟩ member
      exact (valid other row (by simpa using member)).1
    · rintro ⟨other, row⟩ member
      exact (valid other row (by simpa using member)).2
    · rintro ⟨left, leftRow⟩ leftMember ⟨right, rightRow⟩ rightMember
      exact one left leftRow right rightRow (by simpa using leftMember)
        (by simpa using rightMember)

/-- The stored rollouts are of stored versions, at a valid width. -/
theorem rollout_valid (catalog : Nexora.Catalog)
    (stored : catalog.tables.rollouts.find? rolloutId = some row) :
    (catalog.tables.versions.find? row.versionId).map VersionRow.catalogAgentId =
      some row.catalogAgentId ∧ row.percentage ≤ 100 :=
  ⟨catalog.consistent.rolloutVersion (rolloutId, row) (by simpa using stored),
    catalog.consistent.percentageRange (rolloutId, row) (by simpa using stored)⟩

/-- A stored rollout of the agent is found by its identifier. -/
theorem rolloutById_of_stored (catalog : Nexora.Catalog) (rolloutId : Uuid) (row : RolloutRow)
    (stored : catalog.tables.rollouts.find? rolloutId = some row) :
    ∃ rollout, rolloutById catalog.tables row.catalogAgentId rolloutId = .ok rollout ∧
      rollout.row = row := by
  obtain ⟨version, found, _⟩ := catalog.rolloutVersion stored
  refine ⟨⟨rolloutId, row, version.version⟩, ?_, rfl⟩
  rw [rolloutById, found_eq_ok]
  simp [stored, found]

/-- A rollout superseded by another is active no more. -/
theorem superseded_inactive
    (stored : (superseded tables catalogAgentId channel now).find? other = some row)
    (active : row.state = .active) :
    tables.rollouts.find? other = some row ∧
      ¬ (row.catalogAgentId = catalogAgentId ∧ row.channel = channel) := by
  rw [superseded, Table.find?_mapRows, Option.map_eq_some_iff] at stored
  obtain ⟨earlier, found, rfl⟩ := stored
  split at active
  · cases active
  · rename_i kept
    rw [if_neg kept]
    exact ⟨found, fun ofChannel => kept ⟨ofChannel.1, ofChannel.2, active⟩⟩

/-- Superseding keeps what a rollout is of. -/
theorem superseded_kept
    (stored : (superseded tables catalogAgentId channel now).find? other = some row) :
    ∃ earlier, tables.rollouts.find? other = some earlier ∧
      row.catalogAgentId = earlier.catalogAgentId ∧ row.channel = earlier.channel ∧
      row.createdAt = earlier.createdAt ∧ row.versionId = earlier.versionId ∧
      row.percentage = earlier.percentage ∧
      (row.state = .rolledBack ↔ earlier.state = .rolledBack) := by
  rw [superseded, Table.find?_mapRows, Option.map_eq_some_iff] at stored
  obtain ⟨earlier, found, rfl⟩ := stored
  refine ⟨earlier, found, ?_⟩
  split
  · rename_i wasActive
    simp [wasActive.2.2]
  · simp

/-- Starting a rollout always commits. -/
theorem createRollout_commits {body : RolloutInput} {version : Uuid × VersionRow}
    (ofAgent : agentRow catalog.tables slug = .ok agent)
    (known : versionRow catalog.tables slug body.version = .ok version)
    (offerable : version.2.status ∈ offerableStatuses)
    (free : catalog.tables.rollouts.find? rolloutId = none) :
    ∃ result, createRollout catalog slug body rolloutId now = .ok result := by
  let started : RolloutRow := {
    catalogAgentId := agent.1, versionId := version.1, channel := body.channel
    percentage := body.percentage, state := .active, createdAt := now, updatedAt := now }
  let rollouts := (superseded catalog.tables agent.1 body.channel now).put rolloutId started
  have sameAgent : version.2.catalogAgentId = agent.1 := by
    simp only [versionRow, bind_eq_ok, found_eq_ok, ofAgent, Except.ok.injEq, exists_eq_left'] at known
    have member := List.mem_of_find?_eq_some known
    exact of_decide_eq_true ((Table.mem_select _ _ _ _).mp member).2
  have consistent : ({ catalog.tables with rollouts := rollouts } : Tables).Consistent := by
    refine consistent_iff_oneActive ?_ |>.mpr ?_
    · intro other row stored
      rw [Table.find?_put_eq] at stored
      split at stored
      · cases stored
        exact ⟨by simp [started, versionRow_stored known, sameAgent], body.percentageRange⟩
      · obtain ⟨earlier, found, ofEarlier, _, _, sameVersion, width, _⟩ := superseded_kept stored
        rw [ofEarlier, sameVersion, width]
        exact rollout_valid catalog found
    · -- The rollouts that stay active are not on the channel of the new one.
      intro left leftRow right rightRow leftStored rightStored leftActive rightActive ofOne onOne
      rw [Table.find?_put_eq] at leftStored rightStored
      split at leftStored <;> split at rightStored
      case isTrue.isTrue leftIs rightIs => exact leftIs.trans rightIs.symm
      case isTrue.isFalse =>
        cases leftStored
        exact absurd ⟨ofOne.symm, onOne.symm⟩ (superseded_inactive rightStored rightActive).2
      case isFalse.isTrue =>
        cases rightStored
        exact absurd ⟨ofOne, onOne⟩ (superseded_inactive leftStored leftActive).2
      case isFalse.isFalse =>
        exact oneActive catalog left leftRow right rightRow
          (superseded_inactive leftStored leftActive).1
          (superseded_inactive rightStored rightActive).1 leftActive rightActive ofOne onOne
  obtain ⟨rollout, found, _⟩ := rolloutById_of_stored ⟨_, consistent⟩ rolloutId started
    (Table.find?_put _ _ _)
  refine ⟨(rollout, ⟨_, consistent⟩), ?_⟩
  simp only [createRollout, bind_eq_ok, raiseIf_eq_ok, inserted_eq_ok, Table.insert?_eq_some,
    Catalog.write_eq_ok, pure_eq_ok, Prod.mk.injEq]
  exact ⟨agent, ofAgent, version, known, ⟨⟩, not_not.mpr offerable, rollouts,
    ⟨find?_superseded_eq_none.mpr free, rfl⟩, ⟨_, consistent⟩, rfl, rollout, found, rfl, rfl⟩

/-- An update commits unless it makes a rollout active beside another. -/
theorem updateRollout_commits_iff {body : RolloutUpdate}
    (ofAgent : agentRow catalog.tables slug = .ok agent)
    (byId : rolloutById catalog.tables agent.1 rolloutId = .ok current)
    (unfinished : ¬ (current.row.state = .rolledBack ∨ current.row.state = .completed)) :
    (∃ result, updateRollout catalog slug rolloutId body now = .ok result) ↔
      ¬ (body.state = some .active ∧ Occupied catalog.tables rolloutId current.row) := by
  obtain ⟨found, sameAgent⟩ := rolloutById_ok byId
  let change : RolloutRow → RolloutRow := fun row =>
    { row with
      percentage := body.percentage.getD row.percentage
      state := body.state.getD row.state
      updatedAt := now }
  let rollouts := catalog.tables.rollouts.modify rolloutId change
  have stored (other : Uuid) (row : RolloutRow) : rollouts.find? other = some row ↔
      (other = rolloutId ∧ row = change current.row) ∨
        (other ≠ rolloutId ∧ catalog.tables.rollouts.find? other = some row) := by
    rw [Table.find?_modify]
    by_cases same : other = rolloutId
    · simp [same, found, eq_comm]
    · simp [same]
  have written : (∃ result, updateRollout catalog slug rolloutId body now = .ok result) ↔
      ({ catalog.tables with rollouts := rollouts } : Tables).Consistent := by
    simp only [updateRollout, bind_eq_ok, raiseIf_eq_ok, Catalog.write_eq_ok, pure_eq_ok]
    constructor
    · rintro ⟨_, _, _, _, _, _, _, next, tables, _⟩
      exact tables ▸ next.consistent
    · intro consistent
      obtain ⟨rollout, later, _⟩ := rolloutById_of_stored ⟨_, consistent⟩ rolloutId
        (change current.row) ((stored rolloutId (change current.row)).mpr (.inl ⟨rfl, rfl⟩))
      have ofSame : (change current.row).catalogAgentId = agent.1 := sameAgent
      rw [ofSame] at later
      exact ⟨_, agent, ofAgent, current, byId, ⟨⟩, unfinished, ⟨_, consistent⟩, rfl, rollout, later,
        rfl⟩
  rw [written, consistent_iff_oneActive]
  · constructor
    · rintro one ⟨requested, other, otherRow, distinct, onChannel, active⟩
      refine distinct (one other otherRow rolloutId (change current.row) ?_ ?_ active ?_
        onChannel.agent onChannel.channel)
      · exact (stored _ _).mpr (.inr ⟨distinct, onChannel.stored⟩)
      · exact (stored _ _).mpr (.inl ⟨rfl, rfl⟩)
      · simp [change, requested]
    · intro free
      -- Another active rollout beside the changed one was there before it was active.
      have alone (other : Uuid) (otherRow : RolloutRow) (distinct : other ≠ rolloutId)
          (otherFound : catalog.tables.rollouts.find? other = some otherRow)
          (active : otherRow.state = .active) (nowActive : (change current.row).state = .active)
          (ofOne : otherRow.catalogAgentId = current.row.catalogAgentId)
          (onOne : otherRow.channel = current.row.channel) : False := by
        cases requested : body.state with
        | none =>
          have wasActive : current.row.state = .active := by simpa [change, requested] using nowActive
          exact distinct (oneActive catalog other otherRow rolloutId current.row otherFound found
            active wasActive ofOne onOne)
        | some state =>
          have resumed : state = .active := by simpa [change, requested] using nowActive
          exact free ⟨by rw [requested, resumed], other, otherRow, distinct,
            ⟨otherFound, ofOne, onOne⟩, active⟩
      intro left leftRow right rightRow leftStored rightStored leftActive rightActive ofOne onOne
      rcases (stored _ _).mp leftStored with ⟨leftIs, rfl⟩ | ⟨leftOther, leftFound⟩ <;>
        rcases (stored _ _).mp rightStored with ⟨rightIs, rfl⟩ | ⟨rightOther, rightFound⟩
      · exact leftIs.trans rightIs.symm
      · exact (alone right rightRow rightOther rightFound rightActive leftActive ofOne.symm
          onOne.symm).elim
      · exact (alone left leftRow leftOther leftFound leftActive rightActive ofOne onOne).elim
      · exact oneActive catalog left leftRow right rightRow leftFound rightFound leftActive
          rightActive ofOne onOne
  · intro other row otherStored
    rcases (stored _ _).mp otherStored with ⟨rfl, rfl⟩ | ⟨_, otherFound⟩
    · refine ⟨(rollout_valid catalog found).1, ?_⟩
      cases requested : body.percentage with
      | none => simpa [change, requested] using (rollout_valid catalog found).2
      | some value => simpa [change, requested] using body.percentageRange value requested
    · exact rollout_valid catalog otherFound

/-- A rollout that is active after a retirement was before it, and is another one. -/
theorem retired_active (stored : (retired tables rolloutId now).find? other = some row)
    (active : row.state = .active) :
    other ≠ rolloutId ∧ tables.rollouts.find? other = some row := by
  rw [retired, Table.find?_modify] at stored
  split at stored
  · obtain ⟨_, _, rfl⟩ := Option.map_eq_some_iff.mp stored
    cases active
  · rename_i distinct
    exact ⟨distinct, stored⟩

/-- Retiring keeps what a rollout is of. -/
theorem retired_kept (stored : (retired tables rolloutId now).find? other = some row) :
    ∃ earlier, tables.rollouts.find? other = some earlier ∧
      row.catalogAgentId = earlier.catalogAgentId ∧ row.channel = earlier.channel ∧
      row.createdAt = earlier.createdAt ∧ row.versionId = earlier.versionId ∧
      row.percentage = earlier.percentage ∧
      (row.state ≠ .rolledBack → other ≠ rolloutId ∧ row = earlier) := by
  rw [retired, Table.find?_modify] at stored
  split at stored
  · rename_i same
    obtain ⟨earlier, found, rfl⟩ := Option.map_eq_some_iff.mp stored
    exact ⟨earlier, same ▸ found, rfl, rfl, rfl, rfl, rfl, fun kept => absurd rfl kept⟩
  · rename_i distinct
    exact ⟨row, stored, rfl, rfl, rfl, rfl, rfl, fun _ => ⟨distinct, rfl⟩⟩

/-- The rollback's query finds nothing when no unretired rollout was started earlier. -/
theorem precedingRollout_eq_none :
    precedingRollout tables row.catalogAgentId row = none ↔ ¬ Succeeds tables row := by
  rw [precedingRollout, List.argmax_eq_none, List.eq_nil_iff_forall_not_mem]
  simp only [Prod.forall, Table.mem_select, decide_eq_true_eq]
  constructor
  · rintro none ⟨other, otherRow, onChannel, earlier, unretired⟩
    exact none other otherRow ⟨onChannel.stored, onChannel.agent, onChannel.channel, earlier,
      unretired⟩
  · rintro none other otherRow ⟨stored, ofAgent, ofChannel, earlier, unretired⟩
    exact none ⟨other, otherRow, ⟨stored, ofAgent, ofChannel⟩, earlier, unretired⟩

/-- Retiring a rollout breaks no constraint. -/
theorem retired_consistent (catalog : Nexora.Catalog) (rolloutId : Uuid) (now : Instant) :
    ({ catalog.tables with rollouts := retired catalog.tables rolloutId now } : Tables).Consistent := by
  refine (consistent_iff_oneActive ?_).mpr ?_
  · intro other row stored
    obtain ⟨earlier, before, ofEarlier, _, _, sameVersion, width, _⟩ := retired_kept stored
    rw [ofEarlier, sameVersion, width]
    exact rollout_valid catalog before
  · intro left leftRow right rightRow leftStored rightStored leftActive rightActive
    exact oneActive catalog left leftRow right rightRow (retired_active leftStored leftActive).2
      (retired_active rightStored rightActive).2 leftActive rightActive

/-- Starting a rollout in the place of a retired one breaks no constraint unless another is
active on the channel. -/
theorem reinstated_consistent_iff (rolloutId : Uuid) (now : Instant) (started current : RolloutRow)
    (free : catalog.tables.rollouts.find? replacement = none)
    (valid : (catalog.tables.versions.find? started.versionId).map VersionRow.catalogAgentId =
      some started.catalogAgentId ∧ started.percentage ≤ 100) (active : started.state = .active)
    (ofAgent : started.catalogAgentId = current.catalogAgentId)
    (onChannel : started.channel = current.channel) :
    ({ catalog.tables with
      rollouts := (retired catalog.tables rolloutId now).put replacement started } :
        Tables).Consistent ↔ ¬ Occupied catalog.tables rolloutId current := by
  have another (other : Uuid) (row : RolloutRow)
      (stored : catalog.tables.rollouts.find? other = some row) : other ≠ replacement := by
    rintro rfl
    rw [free] at stored
    cases stored
  rw [consistent_iff_oneActive]
  · constructor
    · rintro one ⟨other, otherRow, distinct, otherOn, otherActive⟩
      have isAnother := another other otherRow otherOn.stored
      refine isAnother (one other otherRow replacement started ?_ (Table.find?_put _ _ _)
        otherActive active (otherOn.agent.trans ofAgent.symm)
        (otherOn.channel.trans onChannel.symm))
      rw [Table.find?_put_ne _ _ isAnother, retired, Table.find?_modify_ne _ _ distinct]
      exact otherOn.stored
    · intro alone left leftRow right rightRow leftStored rightStored leftActive rightActive ofOne
        onOne
      rw [Table.find?_put_eq] at leftStored rightStored
      split at leftStored <;> split at rightStored
      case isTrue.isTrue leftIs rightIs => exact leftIs.trans rightIs.symm
      case isTrue.isFalse =>
        cases leftStored
        obtain ⟨distinct, found⟩ := retired_active rightStored rightActive
        exact absurd ⟨right, rightRow, distinct, ⟨found, ofOne.symm.trans ofAgent,
          onOne.symm.trans onChannel⟩, rightActive⟩ alone
      case isFalse.isTrue =>
        cases rightStored
        obtain ⟨distinct, found⟩ := retired_active leftStored leftActive
        exact absurd ⟨left, leftRow, distinct, ⟨found, ofOne.trans ofAgent,
          onOne.trans onChannel⟩, leftActive⟩ alone
      case isFalse.isFalse =>
        exact oneActive catalog left leftRow right rightRow
          (retired_active leftStored leftActive).2 (retired_active rightStored rightActive).2
          leftActive rightActive ofOne onOne
  · intro other row stored
    rw [Table.find?_put_eq] at stored
    split at stored
    · cases stored
      exact valid
    · obtain ⟨earlier, before, ofEarlier, _, _, sameVersion, width, _⟩ := retired_kept stored
      rw [ofEarlier, sameVersion, width]
      exact rollout_valid catalog before

/-- A rollback commits unless it reinstates a rollout beside another that is active. -/
theorem rollbackRollout_commits_iff (ofAgent : agentRow catalog.tables slug = .ok agent)
    (byId : rolloutById catalog.tables agent.1 rolloutId = .ok current)
    (unretired : current.row.state ≠ .rolledBack)
    (free : catalog.tables.rollouts.find? replacement = none) :
    (∃ result, rollbackRollout catalog slug rolloutId replacement now = .ok result) ↔
      ¬ (Succeeds catalog.tables current.row ∧ Occupied catalog.tables rolloutId current.row) := by
  obtain ⟨found, sameAgent⟩ := rolloutById_ok byId
  have withdrawn := retired_consistent catalog rolloutId now
  cases query : precedingRollout catalog.tables agent.1 current.row with
  | none =>
    have first : ¬ Succeeds catalog.tables current.row := by
      rw [← precedingRollout_eq_none, sameAgent]
      exact query
    refine iff_of_true ?_ fun both => first both.1
    obtain ⟨rollout, later, _⟩ := rolloutById_of_stored ⟨_, withdrawn⟩ rolloutId
      { current.row with state := .rolledBack, updatedAt := now } (by simp [retired, found])
    refine ⟨(rollout, ⟨_, withdrawn⟩), ?_⟩
    simp only [rollbackRollout, bind_eq_ok, raiseIf_eq_ok, Catalog.write_eq_ok]
    refine ⟨agent, ofAgent, current, byId, ⟨⟩, unretired, ⟨_, withdrawn⟩, rfl, ?_⟩
    rw [query]
    simp only [bind_eq_ok, pure_eq_ok, Prod.mk.injEq]
    exact ⟨rollout, sameAgent ▸ later, rfl, ⟨⟩⟩
  | some previous =>
    have holds := (precedingRollout_eq_some _ _ _ previous.1 previous.2).mp query
    have succeeds : Succeeds catalog.tables current.row :=
      ⟨previous.1, previous.2, ⟨holds.stored, holds.agent.trans sameAgent.symm, holds.channel⟩,
        holds.earlier, holds.kept⟩
    let started : RolloutRow := {
      catalogAgentId := agent.1, versionId := previous.2.versionId
      channel := current.row.channel, percentage := 100, state := .active, createdAt := now
      updatedAt := now }
    have valid := (rollout_valid catalog holds.stored).1
    rw [holds.agent] at valid
    have consistent_iff := reinstated_consistent_iff rolloutId now started current.row free
      ⟨valid, le_refl _⟩ rfl sameAgent.symm rfl
    rw [and_iff_right succeeds, ← consistent_iff]
    constructor
    · rintro ⟨result, ok⟩
      simp only [rollbackRollout, bind_eq_ok, raiseIf_eq_ok, Catalog.write_eq_ok] at ok
      obtain ⟨_, sameSlug, _, sameId, _, _, next, tables, ok⟩ := ok
      rw [ofAgent] at sameSlug
      cases sameSlug
      rw [byId] at sameId
      cases sameId
      rw [query] at ok
      simp only [bind_eq_ok, inserted_eq_ok, Table.insert?_eq_some, Catalog.write_eq_ok] at ok
      obtain ⟨_, ⟨_, rfl⟩, final, written, _⟩ := ok
      have consistent := final.consistent
      rw [written, tables] at consistent
      exact consistent
    · intro final
      obtain ⟨rollout, later, _⟩ := rolloutById_of_stored ⟨_, final⟩ replacement started
        (Table.find?_put _ _ _)
      refine ⟨(rollout, ⟨_, final⟩), ?_⟩
      simp only [rollbackRollout, bind_eq_ok, raiseIf_eq_ok, Catalog.write_eq_ok]
      refine ⟨agent, ofAgent, current, byId, ⟨⟩, unretired, ⟨_, withdrawn⟩, rfl, ?_⟩
      rw [query]
      simp only [bind_eq_ok, pure_eq_ok, inserted_eq_ok, Table.insert?_eq_some,
        Catalog.write_eq_ok, Prod.mk.injEq]
      exact ⟨_, ⟨find?_retired_eq_none.mpr free, rfl⟩, ⟨_, final⟩, rfl, rollout, later, rfl, rfl⟩

end Commits

/-- The version the active rollout of a channel serves. -/
def servedVersion (tables : Tables) (catalogAgentId : Uuid) (channel : Channel) : Option Uuid :=
  (tables.rollouts.first? fun _ row => row.catalogAgentId = catalogAgentId &&
    row.channel = channel && row.state = .active).map fun entry => entry.2.versionId

/-- The rollout is active. -/
def isActive (tables : Tables) (rolloutId : Uuid) : Bool :=
  (tables.rollouts.find? rolloutId).any fun row => row.state = .active

/-- The step makes a rollout active. -/
def activates (rolloutId : Uuid) (transition : Transition Nexora.Catalog CatalogOperation) : Bool :=
  isActive transition.after.tables rolloutId && !isActive transition.before.tables rolloutId

/-- The step that made a rollout active last. -/
def activation (history : List (Transition Nexora.Catalog CatalogOperation)) (rolloutId : Uuid) :
    Option (Transition Nexora.Catalog CatalogOperation) :=
  history.reverse.find? (activates rolloutId)

/-- A rollback. -/
def CatalogOperation.isRollback : CatalogOperation → Bool
  | .rollbackRollout _ _ _ _ => true
  | _ => false

/-- Every rollout of the channel was started before a time. -/
def StartedBefore (tables : Tables) (catalogAgentId : Uuid) (channel : Channel) (now : Instant) :
    Prop :=
  ∀ other otherRow, OnChannel tables catalogAgentId channel other otherRow →
    otherRow.createdAt < now

/-- No rollout of the channel that was not rolled back was started after this one. -/
def NewestUnretired (tables : Tables) (rolloutId : Uuid) (row : RolloutRow) : Prop :=
  ∀ other otherRow, other ≠ rolloutId →
    OnChannel tables row.catalogAgentId row.channel other otherRow →
      otherRow.state ≠ .rolledBack → otherRow.createdAt < row.createdAt

/-- A step that starts a channel's rollouts at increasing times, resumes only the newest
unretired one, and while one is active rolls back no other. -/
def Orderly (transition : Transition Nexora.Catalog CatalogOperation) : Prop :=
  let tables := transition.before.tables
  match transition.label with
  | .createRollout slug body _ now =>
    ∀ agent, agentRow tables slug = .ok agent → StartedBefore tables agent.1 body.channel now
  | .updateRollout _ rolloutId body _ =>
    body.state = some .active → ∀ row, tables.rollouts.find? rolloutId = some row →
      row.state ≠ .active → NewestUnretired tables rolloutId row
  | .rollbackRollout _ rolloutId _ now =>
    ∀ row, tables.rollouts.find? rolloutId = some row →
      StartedBefore tables row.catalogAgentId row.channel now ∧ ¬ Occupied tables rolloutId row
  | _ => True

theorem activation_append (history : List (Transition Nexora.Catalog CatalogOperation))
    (transition : Transition Nexora.Catalog CatalogOperation) (rolloutId : Uuid) :
    activation (history ++ [transition]) rolloutId =
      if activates rolloutId transition then some transition else activation history rolloutId := by
  rw [activation, List.reverse_append, List.reverse_singleton, List.singleton_append,
    List.find?_cons]
  split <;> rename_i flips <;> simp [flips, activation]

/-- Where one rollout of a channel is active, its version is served. -/
theorem servedVersion_eq_some (catalog : Nexora.Catalog) {catalogAgentId : Uuid}
    {versionId : Uuid} :
    servedVersion catalog.tables catalogAgentId channel = some versionId ↔
      ∃ rolloutId row, OnChannel catalog.tables catalogAgentId channel rolloutId row ∧
        row.state = .active ∧ row.versionId = versionId := by
  rw [servedVersion, Option.map_eq_some_iff]
  constructor
  · rintro ⟨⟨rolloutId, row⟩, listed, same⟩
    obtain ⟨stored, meets⟩ := Table.of_first? listed
    simp only [Bool.and_eq_true, decide_eq_true_eq] at meets
    exact ⟨rolloutId, row, ⟨stored, meets.1.1, meets.1.2⟩, meets.2, same⟩
  · rintro ⟨rolloutId, row, onChannel, active, same⟩
    refine ⟨(rolloutId, row), ?_, same⟩
    refine Table.first?_eq_some_of_unique onChannel.stored ?_ ?_
    · simp [onChannel.agent, onChannel.channel, active]
    · intro other otherRow stored meets
      simp only [Bool.and_eq_true, decide_eq_true_eq] at meets
      exact oneActive catalog other otherRow rolloutId row stored onChannel.stored meets.2 active
        (meets.1.1.trans onChannel.agent.symm) (meets.1.2.trans onChannel.channel.symm)

/-- What orderly steps keep of an active rollout: it is the newest unretired one of its
channel, and unless it reinstated another, the version served before it is that of the one
which precedes it. -/
structure InOrder (history : List (Transition Nexora.Catalog CatalogOperation)) (tables : Tables)
    (rolloutId : Uuid) (row : RolloutRow) : Prop where
  newest : NewestUnretired tables rolloutId row
  origin : ∀ transition versionId, activation history rolloutId = some transition →
    transition.label.isRollback = false →
    servedVersion transition.before.tables row.catalogAgentId row.channel = some versionId →
    ∃ previousId previous, Preceding tables row.catalogAgentId row previousId previous ∧
      previous.versionId = versionId

/-- Every active rollout is in order. -/
def AllInOrder (history : List (Transition Nexora.Catalog CatalogOperation))
    (catalog : Nexora.Catalog) : Prop :=
  ∀ rolloutId row, catalog.tables.rollouts.find? rolloutId = some row → row.state = .active →
    InOrder history catalog.tables rolloutId row

/-- A rollout still precedes one that was started before every rollout started since. -/
theorem Preceding.stays {before after : Tables} {catalogAgentId previousId : Uuid}
    {later previous previousLater : RolloutRow}
    (holds : Preceding before catalogAgentId row previousId previous)
    (stored : after.rollouts.find? previousId = some previousLater)
    (same : previousLater.catalogAgentId = previous.catalogAgentId ∧
      previousLater.channel = previous.channel ∧ previousLater.createdAt = previous.createdAt)
    (unretired : previousLater.state ≠ .rolledBack) (channel : later.channel = row.channel)
    (created : later.createdAt = row.createdAt)
    (fewer : ∀ other otherLater, OnChannel after catalogAgentId row.channel other otherLater →
      otherLater.createdAt < row.createdAt → otherLater.state ≠ .rolledBack →
      ∃ otherRow, OnChannel before catalogAgentId row.channel other otherRow ∧
        otherRow.createdAt = otherLater.createdAt ∧ otherRow.state ≠ .rolledBack) :
    Preceding after catalogAgentId later previousId previousLater := by
  obtain ⟨sameAgent, sameChannel, sameCreated⟩ := same
  refine ⟨stored, sameAgent.trans holds.agent, ?_, ?_, unretired, ?_⟩
  · rw [sameChannel, holds.channel, channel]
  · rw [sameCreated, created]
    exact holds.earlier
  · intro other otherLater otherStored otherAgent otherChannel otherEarlier otherKept
    rw [channel] at otherChannel
    rw [created] at otherEarlier
    obtain ⟨otherRow, onChannel, otherCreated, unretiredBefore⟩ :=
      fewer other otherLater ⟨otherStored, otherAgent, otherChannel⟩ otherEarlier otherKept
    rw [← otherCreated, sameCreated]
    exact holds.latest other otherRow onChannel.stored onChannel.agent onChannel.channel
      (otherCreated ▸ otherEarlier) unretiredBefore

namespace AllInOrder

variable {history : List (Transition Nexora.Catalog CatalogOperation)}
  {catalog next : Nexora.Catalog} {operation : CatalogOperation} {target : Uuid}
  {was : RolloutRow}

/-- An active rollout that a step leaves where it is stays in order when the step starts no
rollout of its channel, makes no other unretired, and keeps the one that precedes it. -/
theorem untouched (inOrder : AllInOrder history catalog) {rolloutId : Uuid} {earlier : RolloutRow}
    (before : catalog.tables.rollouts.find? rolloutId = some earlier)
    (wasActive : earlier.state = .active) (agent : row.catalogAgentId = earlier.catalogAgentId)
    (channel : row.channel = earlier.channel) (created : row.createdAt = earlier.createdAt)
    (fewer : ∀ other otherLater,
      OnChannel next.tables earlier.catalogAgentId earlier.channel other otherLater →
      otherLater.state ≠ .rolledBack →
      ∃ otherRow, OnChannel catalog.tables earlier.catalogAgentId earlier.channel other otherRow ∧
        otherRow.createdAt = otherLater.createdAt ∧ otherRow.state ≠ .rolledBack)
    (kept : ∀ other otherRow,
      OnChannel catalog.tables earlier.catalogAgentId earlier.channel other otherRow →
      other ≠ rolloutId → otherRow.state ≠ .rolledBack → ∃ otherLater,
        next.tables.rollouts.find? other = some otherLater ∧
        (otherLater.catalogAgentId = otherRow.catalogAgentId ∧
          otherLater.channel = otherRow.channel ∧ otherLater.createdAt = otherRow.createdAt) ∧
        otherLater.versionId = otherRow.versionId ∧ otherLater.state ≠ .rolledBack) :
    InOrder (history ++ [⟨catalog, operation, next⟩]) next.tables rolloutId row := by
  obtain ⟨newest, origin⟩ := inOrder rolloutId earlier before wasActive
  refine ⟨?_, ?_⟩
  · intro other otherLater distinct onChannel unretired
    rw [agent, channel] at onChannel
    obtain ⟨otherRow, wasOn, otherCreated, wasUnretired⟩ :=
      fewer other otherLater onChannel unretired
    rw [← otherCreated, created]
    exact newest other otherRow distinct wasOn wasUnretired
  · intro transition versionId activated notRollback served
    have stayed : activates rolloutId ⟨catalog, operation, next⟩ = false := by
      simp [activates, isActive, before, wasActive]
    rw [activation_append, stayed] at activated
    rw [agent, channel] at served
    obtain ⟨previousId, previous, holds, same⟩ :=
      origin transition versionId activated notRollback served
    have distinct : previousId ≠ rolloutId := by
      rintro rfl
      have rows := holds.stored.symm.trans before
      cases rows
      exact lt_irrefl _ holds.earlier
    obtain ⟨later, stored, unchanged, sameVersion, unretired⟩ :=
      kept previousId previous ⟨holds.stored, holds.agent, holds.channel⟩ distinct holds.kept
    refine ⟨previousId, later, ?_, sameVersion.trans same⟩
    rw [agent]
    exact holds.stays stored unchanged unretired channel created fun other otherLater onChannel _ =>
      fewer other otherLater onChannel

/-- A rollout that has just been made active is in order when it is the newest and, unless it
reinstated another, follows the one that served. -/
theorem activated {rolloutId : Uuid} (wasInactive : isActive catalog.tables rolloutId = false)
    (after : next.tables.rollouts.find? rolloutId = some row) (active : row.state = .active)
    (newest : NewestUnretired next.tables rolloutId row)
    (origin : operation.isRollback = false → ∀ versionId,
      servedVersion catalog.tables row.catalogAgentId row.channel = some versionId →
      ∃ previousId previous, Preceding next.tables row.catalogAgentId row previousId previous ∧
        previous.versionId = versionId) :
    InOrder (history ++ [⟨catalog, operation, next⟩]) next.tables rolloutId row := by
  refine ⟨newest, ?_⟩
  intro transition versionId activated notRollback served
  have flips : activates rolloutId ⟨catalog, operation, next⟩ = true := by
    rw [activates, wasInactive]
    simp [isActive, after, active]
  rw [activation_append, flips, if_pos rfl, Option.some.injEq] at activated
  subst activated
  exact origin notRollback versionId served

/-- A step that leaves the rollouts alone keeps them in order. -/
theorem unmoved (inOrder : AllInOrder history catalog)
    (rollouts : next.tables.rollouts = catalog.tables.rollouts) :
    AllInOrder (history ++ [⟨catalog, operation, next⟩]) next := by
  intro rolloutId row stored active
  rw [rollouts] at stored
  refine inOrder.untouched stored active rfl rfl rfl ?_ ?_
  · rintro other otherLater ⟨otherStored, agent, channel⟩ unretired
    rw [rollouts] at otherStored
    exact ⟨otherLater, ⟨otherStored, agent, channel⟩, rfl, unretired⟩
  · intro other otherRow onChannel _ unretired
    refine ⟨otherRow, ?_, ⟨rfl, rfl, rfl⟩, rfl, unretired⟩
    rw [rollouts]
    exact onChannel.stored

/-- A started rollout follows the one it supersedes. -/
theorem started (inOrder : AllInOrder history catalog) {agentId newId : Uuid} {now : Instant}
    {new : RolloutRow} (free : catalog.tables.rollouts.find? newId = none)
    (rollouts : next.tables.rollouts =
      (superseded catalog.tables agentId new.channel now).put newId new)
    (ofAgent : new.catalogAgentId = agentId) (isNew : new.createdAt = now)
    (startedBefore : StartedBefore catalog.tables agentId new.channel now) :
    AllInOrder (history ++ [⟨catalog, operation, next⟩]) next := by
  subst ofAgent isNew
  intro rolloutId row stored active
  rw [rollouts, Table.find?_put_eq] at stored
  split at stored
  case isTrue same =>
    cases same
    cases stored
    -- Every other rollout of the channel was there before and was started earlier.
    have another (other : Uuid) (otherRow : RolloutRow) (distinct : other ≠ newId)
        (onChannel : OnChannel next.tables new.catalogAgentId new.channel other otherRow) :
        ∃ earlier, OnChannel catalog.tables new.catalogAgentId new.channel other earlier ∧
          otherRow.createdAt = earlier.createdAt ∧
          (otherRow.state = .rolledBack ↔ earlier.state = .rolledBack) := by
      have found := onChannel.stored
      rw [rollouts, Table.find?_put_ne _ _ distinct] at found
      obtain ⟨earlier, before, agent, channel, created, _, _, retired⟩ := superseded_kept found
      exact ⟨earlier, ⟨before, agent.symm.trans onChannel.agent,
        channel.symm.trans onChannel.channel⟩, created, retired⟩
    refine activated (by simp [isActive, free])
      (by rw [rollouts]; exact Table.find?_put _ _ _) active ?_ ?_
    · intro other otherRow distinct onChannel _
      obtain ⟨earlier, before, created, _⟩ := another other otherRow distinct onChannel
      rw [created]
      exact startedBefore other earlier before
    · intro _ versionId served
      obtain ⟨previousId, previous, onChannel, wasActive, sameVersion⟩ :=
        (servedVersion_eq_some catalog).mp served
      have newest := (inOrder previousId previous onChannel.stored wasActive).newest
      rw [NewestUnretired, onChannel.agent, onChannel.channel] at newest
      have distinct : previousId ≠ newId := by
        rintro rfl
        have none := free.symm.trans onChannel.stored
        cases none
      refine ⟨previousId, { previous with state := .completed, updatedAt := new.createdAt }, ?_,
        sameVersion⟩
      refine ⟨?_, onChannel.agent, onChannel.channel,
        startedBefore previousId previous onChannel, by simp, ?_⟩
      · rw [rollouts, Table.find?_put_ne _ _ distinct, superseded, Table.find?_mapRows,
          onChannel.stored]
        simp [onChannel.agent, onChannel.channel, wasActive]
      · intro other otherRow otherStored agent channel earlierStart unretired
        have another' : other ≠ newId := by
          rintro rfl
          rw [rollouts, Table.find?_put, Option.some.injEq] at otherStored
          subst otherStored
          exact lt_irrefl _ earlierStart
        obtain ⟨earlier, before, created, retired⟩ :=
          another other otherRow another' ⟨otherStored, agent, channel⟩
        by_cases isPrevious : other = previousId
        · subst isPrevious
          have rows := before.stored.symm.trans onChannel.stored
          cases rows
          rw [created]
        · have older := newest other earlier isPrevious before (unretired ∘ retired.mpr)
          rw [created]
          exact (Prod.Lex.toLex_lt_toLex.mpr (.inl older)).le
  case isFalse distinct =>
    obtain ⟨before, elsewhere⟩ := superseded_inactive stored active
    refine inOrder.untouched before active rfl rfl rfl ?_ ?_
    · rintro other otherLater ⟨otherStored, agent, channel⟩ unretired
      rw [rollouts, Table.find?_put_eq] at otherStored
      split at otherStored
      · cases otherStored
        exact absurd ⟨agent.symm, channel.symm⟩ elsewhere
      · obtain ⟨otherRow, found, sameAgent, sameChannel, created, _, _, retired⟩ :=
          superseded_kept otherStored
        exact ⟨otherRow, ⟨found, sameAgent.symm.trans agent, sameChannel.symm.trans channel⟩,
          created.symm, unretired ∘ retired.mpr⟩
    · intro other otherRow onChannel _ unretired
      refine ⟨otherRow, ?_, ⟨rfl, rfl, rfl⟩, rfl, unretired⟩
      have distinctOther : other ≠ newId := by
        rintro rfl
        have none := free.symm.trans onChannel.stored
        cases none
      rw [rollouts, Table.find?_put_ne _ _ distinctOther, superseded, Table.find?_mapRows,
        onChannel.stored, Option.map_some, if_neg]
      rintro ⟨agent, channel, _⟩
      exact elsewhere ⟨onChannel.agent.symm.trans agent, onChannel.channel.symm.trans channel⟩

/-- An update keeps the rollouts in order when what it resumes is the newest. -/
theorem updated (inOrder : AllInOrder history catalog) {change : RolloutRow → RolloutRow}
    (found : catalog.tables.rollouts.find? target = some was) (unfinished : was.state ≠ .rolledBack)
    (rollouts : next.tables.rollouts = catalog.tables.rollouts.modify target change)
    (same : (change was).catalogAgentId = was.catalogAgentId ∧ (change was).channel = was.channel ∧
      (change was).createdAt = was.createdAt ∧ (change was).versionId = was.versionId ∧
      (change was).state ≠ .rolledBack)
    (resumed : (change was).state = .active → was.state ≠ .active →
      NewestUnretired catalog.tables target was) :
    AllInOrder (history ++ [⟨catalog, operation, next⟩]) next := by
  obtain ⟨sameAgent, sameChannel, sameCreated, sameVersion, unretiredAfter⟩ := same
  have fewer (catalogAgentId : Uuid) (channel : Channel) (other : Uuid) (otherLater : RolloutRow)
      (onChannel : OnChannel next.tables catalogAgentId channel other otherLater)
      (unretired : otherLater.state ≠ .rolledBack) :
      ∃ otherRow, OnChannel catalog.tables catalogAgentId channel other otherRow ∧
        otherRow.createdAt = otherLater.createdAt ∧ otherRow.state ≠ .rolledBack := by
    obtain ⟨stored, agent, ofChannel⟩ := onChannel
    rw [rollouts, Table.find?_modify] at stored
    split at stored
    · rename_i isTarget
      subst isTarget
      rw [found, Option.map_some, Option.some.injEq] at stored
      subst stored
      exact ⟨was, ⟨found, sameAgent.symm.trans agent, sameChannel.symm.trans ofChannel⟩,
        sameCreated.symm, unfinished⟩
    · exact ⟨otherLater, ⟨stored, agent, ofChannel⟩, rfl, unretired⟩
  have kept (catalogAgentId : Uuid) (channel : Channel) (other : Uuid) (otherRow : RolloutRow)
      (onChannel : OnChannel catalog.tables catalogAgentId channel other otherRow)
      (unretired : otherRow.state ≠ .rolledBack) : ∃ otherLater,
        next.tables.rollouts.find? other = some otherLater ∧
        (otherLater.catalogAgentId = otherRow.catalogAgentId ∧
          otherLater.channel = otherRow.channel ∧ otherLater.createdAt = otherRow.createdAt) ∧
        otherLater.versionId = otherRow.versionId ∧ otherLater.state ≠ .rolledBack := by
    rw [rollouts, Table.find?_modify]
    split
    · rename_i isTarget
      subst isTarget
      have rows := found.symm.trans onChannel.stored
      cases rows
      rw [found]
      exact ⟨_, rfl, ⟨sameAgent, sameChannel, sameCreated⟩, sameVersion, unretiredAfter⟩
    · exact ⟨otherRow, onChannel.stored, ⟨rfl, rfl, rfl⟩, rfl, unretired⟩
  intro rolloutId row stored active
  have later := stored
  rw [rollouts, Table.find?_modify] at stored
  split at stored
  case isFalse distinct =>
    exact inOrder.untouched stored active rfl rfl rfl (fewer _ _)
      fun other otherRow onChannel _ => kept _ _ other otherRow onChannel
  case isTrue isTarget =>
    subst isTarget
    rw [found, Option.map_some, Option.some.injEq] at stored
    subst stored
    by_cases wasActive : was.state = .active
    · exact inOrder.untouched found wasActive sameAgent sameChannel sameCreated (fewer _ _)
        fun other otherRow onChannel _ => kept _ _ other otherRow onChannel
    · refine activated (by simp [isActive, found, wasActive]) later active ?_ ?_
      · intro other otherLater distinct onChannel unretired
        rw [sameAgent, sameChannel] at onChannel
        obtain ⟨otherRow, before, created, unretiredBefore⟩ := fewer _ _ _ _ onChannel unretired
        rw [← created, sameCreated]
        exact resumed active wasActive other otherRow distinct before unretiredBefore
      · -- Where another served, the index would have aborted the update.
        intro _ versionId served
        obtain ⟨other, otherRow, onChannel, otherActive, _⟩ :=
          (servedVersion_eq_some catalog).mp served
        have distinct : other ≠ rolloutId := by
          rintro rfl
          have rows := found.symm.trans onChannel.stored
          cases rows
          exact wasActive otherActive
        have otherLater : next.tables.rollouts.find? other = some otherRow := by
          rw [rollouts, Table.find?_modify_ne _ _ distinct]
          exact onChannel.stored
        exact absurd (oneActive next _ _ _ _ otherLater later otherActive active onChannel.agent
          onChannel.channel) distinct

/-- Retiring a rollout, and reinstating another in its place, keep the rollouts in order when
no other was active on the channel. -/
theorem rolledBack (inOrder : AllInOrder history catalog) {now : Instant}
    (found : catalog.tables.rollouts.find? target = some was)
    (alone : ¬ Occupied catalog.tables target was) {rolloutId : Uuid} (active : row.state = .active)
    (stored : (retired catalog.tables target now).find? rolloutId = some row)
    (fewer : ∀ other otherLater, ¬ (otherLater.catalogAgentId = was.catalogAgentId ∧
      otherLater.channel = was.channel) → next.tables.rollouts.find? other = some otherLater →
      (retired catalog.tables target now).find? other = some otherLater)
    (kept : ∀ other otherLater, (retired catalog.tables target now).find? other = some otherLater →
      next.tables.rollouts.find? other = some otherLater) :
    InOrder (history ++ [⟨catalog, operation, next⟩]) next.tables rolloutId row := by
  obtain ⟨distinct, before⟩ := retired_active stored active
  have elsewhere : ¬ (row.catalogAgentId = was.catalogAgentId ∧ row.channel = was.channel) := by
    rintro ⟨agent, channel⟩
    exact alone ⟨rolloutId, row, distinct, ⟨before, agent, channel⟩, active⟩
  refine inOrder.untouched before active rfl rfl rfl ?_ ?_
  · rintro other otherLater ⟨otherStored, agent, channel⟩ unretired
    rw [← agent, ← channel] at elsewhere
    obtain ⟨earlier, otherBefore, _, _, _, _, _, same⟩ :=
      retired_kept (fewer other otherLater elsewhere otherStored)
    obtain ⟨_, rfl⟩ := same unretired
    exact ⟨otherLater, ⟨otherBefore, agent, channel⟩, rfl, unretired⟩
  · intro other otherRow onChannel _ unretired
    refine ⟨otherRow, kept other otherRow ?_, ⟨rfl, rfl, rfl⟩, rfl, unretired⟩
    have another : other ≠ target := by
      rintro rfl
      have rows := found.symm.trans onChannel.stored
      cases rows
      exact elsewhere ⟨onChannel.agent.symm, onChannel.channel.symm⟩
    rw [retired, Table.find?_modify_ne _ _ another]
    exact onChannel.stored

/-- Orderly steps keep every active rollout in order. -/
theorem step (inOrder : AllInOrder history catalog) (ok : operation.run catalog = .ok next)
    (orderly : Orderly ⟨catalog, operation, next⟩) :
    AllInOrder (history ++ [⟨catalog, operation, next⟩]) next := by
  have effect := operation_effect ok
  generalize written : next.tables = tables at effect
  have same := congrArg Tables.rollouts written
  cases effect with
  | elsewhere _ rollouts => exact inOrder.unmoved (same.trans rollouts)
  | published _ => exact inOrder.unmoved same
  | released _ => exact inOrder.unmoved same
  | started ofAgent _ _ free =>
    exact inOrder.started free same rfl rfl (orderly _ ofAgent)
  | @updated _ _ body _ row stored unfinished =>
    refine inOrder.updated stored unfinished.1 same ⟨rfl, rfl, rfl, rfl, ?_⟩ ?_
    · have valid := body.notRolledBack
      cases requested : body.state with
      | none => exact unfinished.1
      | some state =>
        rw [requested] at valid
        exact fun retired => valid (congrArg some retired)
    · intro active wasInactive
      refine orderly ?_ row stored wasInactive
      cases requested : body.state with
      | none => exact absurd (by simpa [requested] using active) wasInactive
      | some state => simpa [requested] using active
  | withdrawn stored _ _ =>
    intro rolloutId row later active
    rw [same] at later
    refine inOrder.rolledBack stored (orderly _ stored).2 active later ?_ ?_
    · intro other otherLater _ otherStored
      rw [same] at otherStored
      exact otherStored
    · intro other otherLater otherStored
      rw [same]
      exact otherStored
  | @restored _ target replacement now was previous stored _ _ free =>
    intro rolloutId row later active
    obtain ⟨startedBefore, alone⟩ := orderly _ stored
    have isNew : (retired catalog.tables target now).find? replacement = none :=
      find?_retired_eq_none.mpr free
    have found := later
    rw [same, Table.find?_put_eq] at later
    split at later
    case isFalse distinct =>
      refine inOrder.rolledBack stored alone active later ?_ ?_
      · intro other otherLater elsewhere otherStored
        rw [same, Table.find?_put_eq] at otherStored
        split at otherStored
        · cases otherStored
          exact absurd ⟨rfl, rfl⟩ elsewhere
        · exact otherStored
      · intro other otherLater otherStored
        have another : other ≠ replacement := by
          rintro rfl
          rw [isNew] at otherStored
          cases otherStored
        rw [same, Table.find?_put_ne _ _ another]
        exact otherStored
    case isTrue isReplacement =>
      subst isReplacement
      cases later
      refine activated (by simp [isActive, free]) found active ?_ (by simp [CatalogOperation.isRollback])
      intro other otherRow distinct onChannel _
      have otherStored := onChannel.stored
      rw [same, Table.find?_put_ne _ _ distinct] at otherStored
      obtain ⟨earlier, before, agent, channel, created, _⟩ := retired_kept otherStored
      rw [created]
      exact startedBefore other earlier ⟨before, agent.symm.trans onChannel.agent,
        channel.symm.trans onChannel.channel⟩

end AllInOrder

/-- Which rollout calls commit once their own checks pass. -/
structure Commits (catalog : Nexora.Catalog) : Prop where
  created : ∀ slug (body : RolloutInput) rolloutId now agent version,
    agentRow catalog.tables slug = .ok agent →
    versionRow catalog.tables slug body.version = .ok version →
    version.2.status ∈ offerableStatuses → catalog.tables.rollouts.find? rolloutId = none →
    ∃ result, createRollout catalog slug body rolloutId now = .ok result
  updated : ∀ slug rolloutId (body : RolloutUpdate) now agent current,
    agentRow catalog.tables slug = .ok agent →
    rolloutById catalog.tables agent.1 rolloutId = .ok current →
    ¬ (current.row.state = .rolledBack ∨ current.row.state = .completed) →
    ((∃ result, updateRollout catalog slug rolloutId body now = .ok result) ↔
      ¬ (body.state = some .active ∧ Occupied catalog.tables rolloutId current.row))
  rolledBack : ∀ slug rolloutId replacement now agent current,
    agentRow catalog.tables slug = .ok agent →
    rolloutById catalog.tables agent.1 rolloutId = .ok current →
    current.row.state ≠ .rolledBack → catalog.tables.rollouts.find? replacement = none →
    ((∃ result, rollbackRollout catalog slug rolloutId replacement now = .ok result) ↔
      ¬ (Succeeds catalog.tables current.row ∧ Occupied catalog.tables rolloutId current.row))

/-- Rolling back the active rollout of a channel leaves the version served that the rollout
started before it serves, or none. -/
theorem served_after_rollback {catalog next : Nexora.Catalog} {slug : String} {rolloutId : Uuid}
    {now : Instant} {rollout : Rollout}
    (ok : rollbackRollout catalog slug rolloutId replacement now = .ok (rollout, next))
    (stored : catalog.tables.rollouts.find? rolloutId = some row) (active : row.state = .active)
    (versionId : Uuid) :
    servedVersion next.tables row.catalogAgentId row.channel = some versionId ↔
      ∃ previousId previous, Preceding catalog.tables row.catalogAgentId row previousId previous ∧
        previous.versionId = versionId := by
  obtain ⟨_, found, tables⟩ := rollbackRollout_ok ok
  cases found.symm.trans stored
  rw [servedVersion_eq_some]
  cases query : precedingRollout catalog.tables row.catalogAgentId row with
  | none =>
    rw [query] at tables
    constructor
    · -- Another active rollout of the channel would have been active beside this one.
      rintro ⟨other, otherRow, onChannel, otherActive, _⟩
      have otherStored := onChannel.stored
      rw [tables] at otherStored
      obtain ⟨distinct, before⟩ := retired_active otherStored otherActive
      exact absurd (oneActive catalog _ _ _ _ before stored otherActive active onChannel.agent
        onChannel.channel) distinct
    · rintro ⟨previousId, previous, holds, _⟩
      rw [(precedingRollout_eq_some _ _ _ _ _).mpr holds] at query
      cases query
  | some previous =>
    rw [query] at tables
    have holds := (precedingRollout_eq_some _ _ _ previous.1 previous.2).mp query
    let started : RolloutRow := {
      catalogAgentId := row.catalogAgentId, versionId := previous.2.versionId
      channel := row.channel, percentage := 100, state := .active, createdAt := now
      updatedAt := now }
    have later : next.tables.rollouts.find? replacement = some started := by
      rw [tables.2]
      exact Table.find?_put _ _ _
    have served : servedVersion next.tables row.catalogAgentId row.channel =
        some previous.2.versionId :=
      (servedVersion_eq_some next).mpr ⟨replacement, started, ⟨later, rfl, rfl⟩, rfl, rfl⟩
    rw [← servedVersion_eq_some, served, Option.some.injEq]
    constructor
    · intro same
      exact ⟨previous.1, previous.2, holds, same⟩
    · rintro ⟨previousId, other, otherHolds, same⟩
      have queried := (precedingRollout_eq_some _ _ _ _ _).mpr otherHolds
      rw [query, Option.some.injEq] at queried
      rw [queried]
      exact same

/-- Every rollout starts, an update or a rollback commits unless it makes a rollout active
beside another, and one rollout is active on a channel. A rollback of the active rollout
restores the version that was served before it became active exactly when the newest
unretired rollout started before it is of that version; it is after orderly steps, of which
the one that made the rollout active was no rollback. -/
theorem rollout_state_machine {history : List (Transition Nexora.Catalog CatalogOperation)}
    {catalog : Nexora.Catalog} (runs : catalogMachine.Runs history catalog) :
    Commits catalog ∧ OneActive catalog.tables.rollouts ∧
      ∀ slug rolloutId replacement now rollout next row transition versionId,
        rollbackRollout catalog slug rolloutId replacement now = .ok (rollout, next) →
        catalog.tables.rollouts.find? rolloutId = some row → row.state = .active →
        activation history rolloutId = some transition →
        servedVersion transition.before.tables row.catalogAgentId row.channel = some versionId →
        (servedVersion next.tables row.catalogAgentId row.channel = some versionId ↔
          ∃ previousId previous,
            Preceding catalog.tables row.catalogAgentId row previousId previous ∧
            previous.versionId = versionId) ∧
        ((∀ step ∈ history, Orderly step) → transition.label.isRollback = false →
          servedVersion next.tables row.catalogAgentId row.channel = some versionId) := by
  have commits : Commits catalog := by
    refine ⟨?_, ?_, ?_⟩
    · intro slug body rolloutId now agent version ofAgent known offerable free
      exact createRollout_commits ofAgent known offerable free
    · intro slug rolloutId body now agent current ofAgent byId unfinished
      exact updateRollout_commits_iff ofAgent byId unfinished
    · intro slug rolloutId replacement now agent current ofAgent byId unretired free
      exact rollbackRollout_commits_iff ofAgent byId unretired free
  refine ⟨commits, oneActive catalog, ?_⟩
  intro slug rolloutId replacement now rollout next row transition versionId ok stored active
    activated served
  have restores := served_after_rollback ok stored active versionId
  refine ⟨restores, ?_⟩
  intro orderly notRollback
  have inOrder : AllInOrder history catalog := by
    refine runs.invariantWithHistoryWhile AllInOrder Orderly ?_ ?_ orderly
    · rintro opening ⟨_, none⟩ other otherRow otherStored
      rw [none, Table.find?_empty] at otherStored
      cases otherStored
    · intro earlier before operation after _ inOrder done wasOrderly
      exact inOrder.step done wasOrderly
  rw [restores]
  exact (inOrder rolloutId row stored active).origin transition versionId activated notRollback
    served

theorem fullWidth : 100 ≤ 100 := le_rfl

/-- Version 2.0.0 at full width. -/
def secondBody : RolloutInput := ⟨⟨2, 0, 0⟩, .stable, 100, fullWidth⟩

/-- Version 2.0.0 is rolled out over version 1.0.0. -/
def secondRollout : List CatalogOperation :=
  fullRollout ++ [.publishVersion "seo" (plainManifest ⟨2, 0, 0⟩) 3 2,
    .createRollout "seo" secondBody 5 3]

/-- The step only adds to the catalog, and a rollout it starts is the newest. -/
def startsInOrder (step : Transition Nexora.Catalog CatalogOperation) : Bool :=
  match step.label with
  | .createAgent _ _ _ | .publishVersion _ _ _ _ => true
  | .createRollout _ _ _ now =>
    step.before.tables.rollouts.entries.all fun entry => entry.2.createdAt < now
  | _ => false

/-- The rollout is active on the stable channel and was made active where a version served. -/
def activatedOver (history : List (Transition Nexora.Catalog CatalogOperation)) (tables : Tables)
    (rolloutId serving : Uuid) (byRollback : Bool) : Bool :=
  (tables.rollouts.find? rolloutId).any (fun row =>
    row.catalogAgentId = 1 && row.channel = .stable && row.state = .active) &&
  (activation history rolloutId).any fun transition =>
    servedVersion transition.before.tables 1 .stable = some serving &&
      transition.label.isRollback == byRollback

theorem of_activatedOver {history : List (Transition Nexora.Catalog CatalogOperation)}
    {rolloutId serving : Uuid} {byRollback : Bool}
    (holds : activatedOver history tables rolloutId serving byRollback = true) :
    ∃ row transition, OnChannel tables 1 .stable rolloutId row ∧ row.state = .active ∧
      activation history rolloutId = some transition ∧
      servedVersion transition.before.tables 1 .stable = some serving ∧
      transition.label.isRollback = byRollback := by
  simp only [activatedOver, Bool.and_eq_true, Option.any_eq_true, decide_eq_true_eq,
    beq_iff_eq] at holds
  obtain ⟨⟨row, stored, ⟨agent, channel⟩, active⟩, transition, last, served, label⟩ := holds
  exact ⟨row, transition, ⟨stored, agent, channel⟩, active, last, served, label⟩

theorem rollout_state_machine_reinstated : ∃ history catalog rollout next,
    catalogMachine.Runs history catalog ∧
      rollbackRollout catalog "seo" 5 6 4 = .ok (rollout, next) ∧
      servedVersion next.tables 1 .stable = some 2 := by
  obtain ⟨history, catalog, runs, checked⟩ := Machine.exists_run_of_trace
    (fun catalog => catalog.tables.versions = .empty ∧ catalog.tables.rollouts = .empty)
    (fun catalog (operation : CatalogOperation) => operation.run catalog) secondRollout emptyCatalog
    (fun history catalog => history.all startsInOrder && activatedOver history catalog.tables 5 2 false &&
      (rollbackRollout catalog "seo" 5 6 4).toOption.map (fun _ => true) = some true) ⟨rfl, rfl⟩
    (by decide +kernel)
  simp only [Bool.and_eq_true, List.all_eq_true, decide_eq_true_eq] at checked
  obtain ⟨⟨orderly, replaced⟩, accepted⟩ := checked
  obtain ⟨⟨rollout, next⟩, ok, _⟩ := exists_ok_of_check _ _ accepted
  obtain ⟨row, transition, onChannel, active, last, served, label⟩ := of_activatedOver replaced
  refine ⟨history, catalog, rollout, next, runs, ok, ?_⟩
  rw [← onChannel.agent, ← onChannel.channel] at served ⊢
  refine ((rollout_state_machine runs).2.2 _ _ _ _ _ _ row transition 2 ok onChannel.stored active
    last served).2 ?_ label
  rintro ⟨before, operation, after⟩ member
  have allowed := orderly _ member
  cases operation with
  | createAgent => trivial
  | publishVersion => trivial
  | createRollout slug body rolloutId now =>
    intro agent _ other otherRow on
    have listed := List.all_eq_true.mp allowed (other, otherRow) (by simpa using on.stored)
    exact of_decide_eq_true listed
  | _ => cases allowed

/-- Rolling back a rollout that itself reinstated a version leaves that version served, not
the one it replaced. -/
theorem rollback_of_rollback_restores_itself :
    ¬ ∀ history catalog, catalogMachine.Runs history catalog →
      ∀ slug rolloutId replacement now rollout next row transition versionId,
        rollbackRollout catalog slug rolloutId replacement now = .ok (rollout, next) →
        catalog.tables.rollouts.find? rolloutId = some row → row.state = .active →
        activation history rolloutId = some transition →
        servedVersion transition.before.tables row.catalogAgentId row.channel = some versionId →
        servedVersion next.tables row.catalogAgentId row.channel = some versionId := by
  intro restores
  obtain ⟨history, catalog, runs, checked⟩ := Machine.exists_run_of_trace
    (fun catalog => catalog.tables.versions = .empty ∧ catalog.tables.rollouts = .empty)
    (fun catalog (operation : CatalogOperation) => operation.run catalog)
    (secondRollout ++ [.rollbackRollout "seo" 5 6 4]) emptyCatalog
    (fun history catalog => activatedOver history catalog.tables 6 3 true &&
      (rollbackRollout catalog "seo" 6 7 5).toOption.map (fun result =>
        (servedVersion result.2.tables 1 .stable = some 2 : Bool)) = some true) ⟨rfl, rfl⟩
    (by decide +kernel)
  simp only [Bool.and_eq_true, decide_eq_true_eq] at checked
  obtain ⟨replaced, accepted⟩ := checked
  obtain ⟨⟨rollout, next⟩, ok, stays⟩ := exists_ok_of_check _ _ accepted
  obtain ⟨row, transition, onChannel, active, last, served, _⟩ := of_activatedOver replaced
  rw [← onChannel.agent, ← onChannel.channel] at served
  have restored := restores history catalog runs _ _ _ _ _ _ row transition 3 ok onChannel.stored
    active last served
  rw [onChannel.agent, onChannel.channel] at restored
  have both := restored.symm.trans (of_decide_eq_true stays)
  cases both

end Nexora.Catalog
