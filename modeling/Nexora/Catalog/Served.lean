import Nexora.Catalog.Rollouts

/-!
# What stays on offer

Two promises about offers. Only released versions are offered: an included workspace is
handed its rollout's version without another look at its release state, so the promise
holds along the runs whose steps keep released what a rollout serves. And a workspace
outside a new rollout keeps the version that served its channel: it is offered the newest
released version instead, so the promise holds when that is the one.
-/

namespace Nexora.Catalog

open Nexora.Std

/-- Whoever receives the channel is received by whoever receives a wider one. -/
theorem channelScope_trans {first second third : Channel} (near : first ∈ channelScope second)
    (far : second ∈ channelScope third) : first ∈ channelScope third := by
  cases first <;> cases second <;> cases third <;> simp_all [channelScope]

/-- The version is stable or beta, on a channel that a subscriber to the given one receives. -/
def ReleasedOn (versions : Table Uuid VersionRow) (channel : Channel) (versionId : Uuid) : Prop :=
  ∃ row, versions.find? versionId = some row ∧ row.status ∈ offerableStatuses ∧
    row.channel ∈ channelScope channel

/-- Every active rollout serves a version that is released on the rollout's channel. -/
def ServesReleased (tables : Tables) : Prop :=
  ∀ rolloutId row, tables.rollouts.find? rolloutId = some row → row.state = .active →
    ReleasedOn tables.versions row.channel row.versionId

/-- A step that leaves no active rollout with a version that is not released on its channel:
a release change of a version an active rollout serves leaves it stable or beta, on a channel
the rollout's one receives, and a rollout is only started, resumed or reinstated with such a
version. -/
def KeepsReleased (transition : Transition Nexora.Catalog CatalogOperation) : Prop :=
  let tables := transition.before.tables
  match transition.label with
  | .setVersionRelease slug version body =>
    ∀ target, versionRow tables slug version = .ok target →
      ∀ rolloutId row, tables.rollouts.find? rolloutId = some row → row.state = .active →
        row.versionId = target.1 → body.status.getD target.2.status ∈ offerableStatuses ∧
          body.channel.getD target.2.channel ∈ channelScope row.channel
  | .createRollout slug body _ _ =>
    ∀ version, versionRow tables slug body.version = .ok version →
      version.2.channel ∈ channelScope body.channel
  | .updateRollout _ rolloutId body _ =>
    body.state = some .active → ∀ row, tables.rollouts.find? rolloutId = some row →
      ReleasedOn tables.versions row.channel row.versionId
  | .rollbackRollout _ rolloutId _ _ =>
    ∀ row, tables.rollouts.find? rolloutId = some row →
      ∀ previousId previous, Preceding tables row.catalogAgentId row previousId previous →
        ReleasedOn tables.versions row.channel previous.versionId
  | _ => True

variable {channel : Channel} {catalogAgentId rolloutId versionId : Uuid} {row : RolloutRow}
  {tables : Tables} {bucket : Nat}

section Released

variable {catalog next : Nexora.Catalog} {operation : CatalogOperation}

theorem versionRow_stored {slug : String} {version : Version} {target : Uuid × VersionRow}
    (known : versionRow tables slug version = .ok target) :
    tables.versions.find? target.1 = some target.2 := by
  simp only [versionRow, bind_eq_ok, found_eq_ok] at known
  obtain ⟨agent, _, listed⟩ := known
  have member := List.mem_of_find?_eq_some listed
  exact ((Table.mem_select _ _ _ _).mp member).1

/-- A step keeps what rollouts serve released. -/
theorem ServesReleased.step (serves : ServesReleased catalog.tables)
    (ok : operation.run catalog = .ok next) (keeps : KeepsReleased ⟨catalog, operation, next⟩) :
    ServesReleased next.tables := by
  have effect := operation_effect ok
  generalize next.tables = tables at effect
  cases effect with
  | elsewhere versions rollouts =>
    intro rolloutId row stored active
    rw [rollouts] at stored
    rw [versions]
    exact serves rolloutId row stored active
  | published free =>
    intro rolloutId row stored active
    obtain ⟨version, found, released⟩ := serves rolloutId row stored active
    refine ⟨version, ?_, released⟩
    rw [Table.find?_put_ne _ _ (fun same => by rw [same, free] at found; cases found)]
    exact found
  | @released _ _ body target known =>
    intro rolloutId row stored active
    obtain ⟨version, found, offerable, inScope⟩ := serves rolloutId row stored active
    by_cases same : row.versionId = target.1
    · obtain ⟨status, channel⟩ := keeps target known rolloutId row stored active same
      refine ⟨{ target.2 with
        status := body.status.getD target.2.status
        channel := body.channel.getD target.2.channel }, ?_, status, channel⟩
      simp [same, versionRow_stored known]
    · exact ⟨version, by simpa [same] using found, offerable, inScope⟩
  | @started _ body rolloutId _ agent version ofAgent known offerable free =>
    intro other row stored active
    rw [Table.find?_put_eq] at stored
    split at stored
    case isTrue =>
      cases stored
      exact ⟨version.2, versionRow_stored known, offerable, keeps version known⟩
    case isFalse =>
      rw [superseded, Table.find?_mapRows, Option.map_eq_some_iff] at stored
      obtain ⟨earlier, found, rfl⟩ := stored
      split at active
      · cases active
      · rename_i kept
        rw [if_neg kept]
        exact serves other earlier found active
  | @updated _ rolloutId body _ current found unfinished =>
    intro other row stored active
    rw [Table.find?_modify] at stored
    split at stored
    case isFalse => exact serves other row stored active
    case isTrue same =>
      rw [found, Option.map_some, Option.some.injEq] at stored
      subst stored
      cases requested : body.state with
      | none =>
        rw [requested] at active
        exact serves rolloutId current found active
      | some state =>
        have resumed : state = .active := by simpa [requested] using active
        exact keeps (by rw [requested, resumed]) current found
  | withdrawn found unretired first =>
    intro other row stored active
    rw [retired, Table.find?_modify] at stored
    split at stored
    case isTrue =>
      rw [found, Option.map_some, Option.some.injEq] at stored
      subst stored
      cases active
    case isFalse => exact serves other row stored active
  | @restored _ rolloutId replacement _ current previous found unretired preceding free =>
    intro other row stored active
    rw [Table.find?_put_eq] at stored
    split at stored
    case isTrue =>
      cases stored
      have holds := (precedingRollout_eq_some _ _ _ previous.1 previous.2).mp preceding
      exact keeps current found previous.1 previous.2 holds
    case isFalse =>
      rw [retired, Table.find?_modify] at stored
      split at stored
      · rw [found, Option.map_some, Option.some.injEq] at stored
        subst stored
        cases active
      · exact serves other row stored active

/-- Where rollouts serve released versions, an included one is released. -/
theorem ServesReleased.included (serves : ServesReleased catalog.tables)
    (included : Included catalog.tables catalogAgentId channel bucket versionId) :
    ∃ row, Released catalog.tables.versions catalogAgentId channel versionId row := by
  obtain ⟨rolloutId, row, served, _, rfl⟩ := included
  obtain ⟨version, found, offerable, inScope⟩ := serves rolloutId row served.stored served.active
  obtain ⟨known, knownFound, ofAgent⟩ := catalog.rolloutVersion served.stored
  rw [found] at knownFound
  cases knownFound
  exact ⟨version, found, ofAgent.trans served.agent, channelScope_trans inScope served.inScope,
    offerable⟩

end Released

/-- An offered version is released exactly when the newest version of the rollouts that
include the workspace is; and along every run whose steps keep released what rollouts serve,
only released versions are offered. -/
theorem offered_is_released (sha256 : String → Nat) (catalogAgentId workspaceId : Uuid)
    (channel : Channel) :
    (∀ catalog : Nexora.Catalog,
      (∀ versionId, (offeredVersion sha256 catalog.tables catalogAgentId workspaceId channel).map
          Prod.fst = some versionId →
        ∃ row, Released catalog.tables.versions catalogAgentId channel versionId row) ↔
      ∀ versionId, Newest catalog.tables.versions (Included catalog.tables catalogAgentId channel
          (rolloutBucket sha256 catalogAgentId workspaceId)) versionId →
        ∃ row, Released catalog.tables.versions catalogAgentId channel versionId row) ∧
    (∀ history catalog, catalogMachine.Runs history catalog →
      (∀ transition ∈ history, KeepsReleased transition) →
      ∀ versionId,
        (offeredVersion sha256 catalog.tables catalogAgentId workspaceId channel).map Prod.fst =
          some versionId →
        ∃ row, Released catalog.tables.versions catalogAgentId channel versionId row) := by
  have byNewest (catalog : Nexora.Catalog) :
      (∀ versionId, (offeredVersion sha256 catalog.tables catalogAgentId workspaceId channel).map
          Prod.fst = some versionId →
        ∃ row, Released catalog.tables.versions catalogAgentId channel versionId row) ↔
      ∀ versionId, Newest catalog.tables.versions (Included catalog.tables catalogAgentId channel
          (rolloutBucket sha256 catalogAgentId workspaceId)) versionId →
        ∃ row, Released catalog.tables.versions catalogAgentId channel versionId row := by
    simp only [offeredVersion_eq_some]
    constructor
    · intro released versionId newest
      exact released versionId (.inl newest)
    · rintro released versionId (newest | ⟨_, fallback⟩)
      · exact released versionId newest
      · exact fallback.1.1
  refine ⟨byNewest, ?_⟩
  intro history catalog runs keeps
  have serves : ServesReleased catalog.tables := by
    refine runs.invariantWhile (fun catalog => ServesReleased catalog.tables) KeepsReleased ?_ ?_
      keeps
    · rintro opening ⟨_, none⟩ rolloutId row stored
      rw [none, Table.find?_empty] at stored
      cases stored
    · intro state operation next holds ok kept
      exact holds.step ok kept
  refine (byNewest catalog).mpr ?_
  intro versionId newest
  exact serves.included newest.1

/-- A catalog entry whose version 1.0.0 is rolled out to everyone. -/
def fullRollout : List CatalogOperation :=
  [.createAgent ⟨"seo", "SEO", "Search", "marketing", "search", .stable, .publicly⟩ 1 0,
    .publishVersion "seo" (plainManifest ⟨1, 0, 0⟩) 2 0,
    .createRollout "seo" ⟨⟨1, 0, 0⟩, .stable, 100, by decide⟩ 4 1]

/-- A release change that deprecates a version. -/
def deprecation : VersionReleaseInput := ⟨some .deprecated, none, by decide⟩

/-- A catalog in which nothing was published. -/
def emptyCatalog : Nexora.Catalog := ⟨⟨[], .empty, .empty, .empty, .empty⟩, by decide⟩

/-- The step only adds to the catalog, and rolls out a version of its channel's scope. -/
def rollsOutInScope (transition : Transition Nexora.Catalog CatalogOperation) : Bool :=
  match transition.label with
  | .createAgent _ _ _ | .publishVersion _ _ _ _ => true
  | .createRollout slug body _ _ =>
    (versionRow transition.before.tables slug body.version).toOption.all fun version =>
      version.2.channel ∈ channelScope body.channel
  | _ => false

theorem offered_is_released_full : ∃ history catalog, catalogMachine.Runs history catalog ∧
    ∃ row, Released catalog.tables.versions 1 .stable 2 row := by
  obtain ⟨history, catalog, runs, checked⟩ := Machine.exists_run_of_trace
    (fun catalog => catalog.tables.versions = .empty ∧ catalog.tables.rollouts = .empty)
    (fun catalog (operation : CatalogOperation) => operation.run catalog) fullRollout emptyCatalog
    (fun history catalog => history.all rollsOutInScope && (offeredVersion (fun _ => 0) catalog.tables 1 7 .stable).map Prod.fst = some 2)
    ⟨rfl, rfl⟩ (by decide +kernel)
  simp only [Bool.and_eq_true, List.all_eq_true, decide_eq_true_eq] at checked
  obtain ⟨keeps, offered⟩ := checked
  refine ⟨history, catalog, runs, ?_⟩
  refine (offered_is_released (fun _ => 0) 1 7 .stable).2 history catalog runs ?_ 2 offered
  rintro ⟨before, label, after⟩ member
  have kept := keeps _ member
  cases label with
  | createAgent => trivial
  | publishVersion => trivial
  | createRollout slug body rolloutId now =>
    intro version known
    simpa [rollsOutInScope, known, Except.toOption] using kept
  | _ => cases kept

/-- A deprecated version stays on offer while a rollout serves it. -/
theorem deprecated_is_offered :
    ¬ ∀ history catalog, catalogMachine.Runs history catalog →
      ∀ (sha256 : String → Nat) (catalogAgentId workspaceId : Uuid) (channel : Channel)
        (versionId : Uuid),
        (offeredVersion sha256 catalog.tables catalogAgentId workspaceId channel).map Prod.fst =
          some versionId →
        ∃ row, Released catalog.tables.versions catalogAgentId channel versionId row := by
  intro released
  obtain ⟨history, catalog, runs, checked⟩ := Machine.exists_run_of_trace
    (fun catalog => catalog.tables.versions = .empty ∧ catalog.tables.rollouts = .empty)
    (fun catalog (operation : CatalogOperation) => operation.run catalog)
    (fullRollout ++ [.setVersionRelease "seo" ⟨1, 0, 0⟩ deprecation]) emptyCatalog
    (fun _ catalog => (offeredVersion (fun _ => 0) catalog.tables 1 7 .stable).map Prod.fst = some 2 &&
      (catalog.tables.versions.find? 2).all fun row => row.status = .deprecated)
    ⟨rfl, rfl⟩ (by decide +kernel)
  simp only [Bool.and_eq_true, decide_eq_true_eq] at checked
  obtain ⟨row, stored, _, _, offerable⟩ := released history catalog runs (fun _ => 0) 1 7 .stable 2
    checked.1
  have deprecated : row.status = .deprecated := by simpa [stored] using checked.2
  rw [deprecated] at offerable
  exact absurd offerable (by decide)

/-- What the outsiders of a new rollout are offered depends on: the version that served them
is released, and no other than the new one is newer. -/
def OutsiderKeeps (tables : Tables) (catalogAgentId : Uuid) (channel : Channel)
    (started serving : Uuid) : Prop :=
  ∃ row, Released tables.versions catalogAgentId channel serving row ∧
    ∀ other otherRow, Released tables.versions catalogAgentId channel other otherRow →
      other ≠ started → otherRow.version.parts ≤ row.version.parts

/-- A workspace that one rollout at full width serves alone is offered its version. -/
theorem offers_only {catalog : Nexora.Catalog}
    (serves : Serves catalog.tables catalogAgentId channel rolloutId row)
    (inside : bucket < row.percentage)
    (alone : ∀ other otherRow, Serves catalog.tables catalogAgentId channel other otherRow →
      other = rolloutId) :
    Offers catalog.tables catalogAgentId channel bucket row.versionId := by
  obtain ⟨version, found, _⟩ := catalog.rolloutVersion serves.stored
  refine .inl ⟨⟨rolloutId, row, serves, inside, rfl⟩, version, found, ?_⟩
  rintro other otherRow ⟨otherId, otherRollout, otherServes, _, rfl⟩ otherFound
  obtain rfl := alone otherId otherRollout otherServes
  have same := serves.stored.symm.trans otherServes.stored
  cases same
  have rows := found.symm.trans otherFound
  cases rows
  exact le_refl _

/-- Beside one rollout that leaves a workspace out, the workspace is offered the newest
released version but the rollout's. -/
theorem offers_beside {catalog : Nexora.Catalog} (bucket : Nat)
    (serves : Serves catalog.tables catalogAgentId channel rolloutId row)
    (outside : ¬ bucket < row.percentage)
    (alone : ∀ other otherRow, Serves catalog.tables catalogAgentId channel other otherRow →
      other = rolloutId) (distinct : versionId ≠ row.versionId) :
    Offers catalog.tables catalogAgentId channel bucket versionId ↔
      OutsiderKeeps catalog.tables catalogAgentId channel row.versionId versionId := by
  have only (other : Uuid) (otherRow : RolloutRow)
      (otherServes : Serves catalog.tables catalogAgentId channel other otherRow) :
      otherRow = row := by
    obtain rfl := alone other otherRow otherServes
    exact Option.some.inj (otherServes.stored.symm.trans serves.stored)
  have nobody (id : Uuid) : ¬ Included catalog.tables catalogAgentId channel bucket id := by
    rintro ⟨other, otherRow, otherServes, inside, _⟩
    exact outside (only other otherRow otherServes ▸ inside)
  have withheld (id : Uuid) :
      Withheld catalog.tables catalogAgentId channel bucket id ↔ id = row.versionId := by
    constructor
    · rintro ⟨other, otherRow, otherServes, _, rfl⟩
      rw [only other otherRow otherServes]
    · rintro rfl
      exact ⟨rolloutId, row, serves, outside, rfl⟩
  constructor
  · rintro (newest | ⟨_, ⟨⟨version, released⟩, _⟩, _, foundRow, highest⟩)
    · exact absurd newest.1 (nobody versionId)
    · have same := released.stored.symm.trans foundRow
      cases same
      refine ⟨version, released, fun other otherRow otherReleased otherDistinct => ?_⟩
      refine highest other otherRow ⟨⟨otherRow, otherReleased⟩, ?_⟩ otherReleased.stored
      exact fun kept => otherDistinct ((withheld other).mp kept)
  · rintro ⟨version, released, highest⟩
    refine .inr ⟨nobody, ⟨⟨version, released⟩, fun kept => distinct ((withheld _).mp kept)⟩,
      version, released.stored, ?_⟩
    rintro other otherRow ⟨⟨otherVersion, otherReleased⟩, kept⟩ otherFound
    have same := otherReleased.stored.symm.trans otherFound
    cases same
    exact highest other otherRow otherReleased fun isStarted => kept ((withheld _).mpr isStarted)

/-- A rollout that starts on the channel of the only one that serves a subscriber takes its
place. -/
theorem serves_of_started {started : Uuid} {new : RolloutRow} {now : Instant}
    (active : new.state = .active) (ofAgent : new.catalogAgentId = catalogAgentId)
    (serves : Serves tables catalogAgentId channel rolloutId row) (same : row.channel = new.channel)
    (alone : ∀ other otherRow, Serves tables catalogAgentId channel other otherRow →
      other = rolloutId) (other : Uuid) (otherRow : RolloutRow) :
    Serves { tables with
      rollouts := (superseded tables catalogAgentId new.channel now).put started new }
        catalogAgentId channel other otherRow ↔ other = started ∧ otherRow = new := by
  constructor
  · rintro ⟨stored, agent, otherActive, inScope⟩
    rw [Table.find?_put_eq] at stored
    split at stored
    case isTrue isStarted =>
      cases stored
      exact ⟨isStarted, rfl⟩
    case isFalse =>
      -- The one rollout that served is completed now.
      rw [superseded, Table.find?_mapRows, Option.map_eq_some_iff] at stored
      obtain ⟨earlier, found, rfl⟩ := stored
      split at otherActive
      · cases otherActive
      · rename_i kept
        rw [if_neg kept] at agent inScope
        have isServing := alone other earlier ⟨found, agent, otherActive, inScope⟩
        rw [isServing] at found
        have rows := found.symm.trans serves.stored
        cases rows
        exact absurd ⟨agent, same, otherActive⟩ kept
  · rintro ⟨rfl, rfl⟩
    exact ⟨Table.find?_put _ _ _, ofAgent, active, same ▸ serves.inScope⟩

/-- When a rollout starts beside nothing but the one at full width it supersedes, a workspace
outside it that was offered the superseded version still is exactly when `OutsiderKeeps`. -/
theorem outsider_keeps_iff (sha256 : String → Nat) (catalog : Nexora.Catalog)
    (catalogAgentId workspaceId : Uuid) (channel : Channel) (serving : Uuid) (row : RolloutRow)
    (serves : Serves catalog.tables catalogAgentId channel serving row)
    (full : row.percentage = 100)
    (alone : ∀ other otherRow, Serves catalog.tables catalogAgentId channel other otherRow →
      other = serving)
    (slug : String) (body : RolloutInput) (started : Uuid) (now : Instant) (rollout : Rollout)
    (next : Nexora.Catalog)
    (ok : createRollout catalog slug body started now = .ok (rollout, next))
    (ofAgent : rollout.row.catalogAgentId = catalogAgentId) (onChannel : body.channel = row.channel)
    (another : rollout.row.versionId ≠ row.versionId)
    (outside : body.percentage ≤ rolloutBucket sha256 catalogAgentId workspaceId) :
    (offeredVersion sha256 catalog.tables catalogAgentId workspaceId channel).map Prod.fst =
      some row.versionId ∧
    ((offeredVersion sha256 next.tables catalogAgentId workspaceId channel).map Prod.fst =
        some row.versionId ↔
      OutsiderKeeps catalog.tables catalogAgentId channel rollout.row.versionId row.versionId) := by
  obtain ⟨agent, version, _, _, _, _, new, tables⟩ := createRollout_ok ok
  have bucketBelow := rolloutBucket_lt sha256 catalogAgentId workspaceId
  rw [offeredVersion_eq_some, offeredVersion_eq_some]
  refine ⟨offers_only serves (by rw [full]; exact bucketBelow) alone, ?_⟩
  have active : rollout.row.state = .active := by rw [new]
  have sameAgent : agent.1 = catalogAgentId := by rw [← ofAgent, new]
  have sameChannel : rollout.row.channel = body.channel := by rw [new]
  have nowServes (other : Uuid) (otherRow : RolloutRow) :
      Serves next.tables catalogAgentId channel other otherRow ↔
        other = started ∧ otherRow = rollout.row := by
    rw [tables, sameAgent, ← sameChannel]
    exact serves_of_started active ofAgent serves (onChannel.symm.trans sameChannel.symm) alone
      other otherRow
  have beside := offers_beside (rolloutBucket sha256 catalogAgentId workspaceId)
    ((nowServes started rollout.row).mpr ⟨rfl, rfl⟩)
    (by rw [new]; exact not_lt.mpr outside)
    (fun other otherRow otherServes => ((nowServes other otherRow).mp otherServes).1)
    another.symm
  rw [beside, OutsiderKeeps, OutsiderKeeps, tables]

/-- A rollout of version 2 at full width beside a newer release, version 3. -/
def servedTables (newest : Version) : Tables :=
  { stagedTables with
    versions := .ofList [(2, plainVersion ⟨1, 0, 0⟩), (3, plainVersion ⟨1, 1, 0⟩),
      (5, plainVersion newest)]
    rollouts := .ofList [(4, { stagedRollout with versionId := 2, percentage := 100 })] }

/-- The channel's version, a release to start and an older one. -/
def servedCatalog : Nexora.Catalog := ⟨servedTables ⟨0, 9, 0⟩, by decide⟩

/-- The channel's version, a release to start and another newer one. -/
def overtakenCatalog : Nexora.Catalog := ⟨servedTables ⟨1, 0, 1⟩, by decide⟩

/-- Version 3 at 0% of the stable channel. -/
def stageBody : RolloutInput := ⟨⟨1, 1, 0⟩, .stable, 0, by decide⟩

theorem outsider_keeps_iff_served : ∃ rollout next,
    createRollout servedCatalog "seo" stageBody 6 9 = .ok (rollout, next) ∧
      (offeredVersion (fun _ => 0) next.tables 1 7 .stable).map Prod.fst = some 2 := by
  have accepted : (createRollout servedCatalog "seo" stageBody 6 9).toOption.map
      (fun result => result.1.row.catalogAgentId = 1 && result.1.row.versionId = 3) =
        some true := by decide
  obtain ⟨⟨rollout, next⟩, ok, row⟩ := exists_ok_of_check _ _ accepted
  simp only [Bool.and_eq_true, decide_eq_true_eq] at row
  refine ⟨rollout, next, ok, ?_⟩
  have alone (other : Uuid) (otherRow : RolloutRow)
      (serves : Serves servedCatalog.tables 1 .stable other otherRow) : other = 4 := by
    have stored := serves.stored
    by_contra distinct
    simp [servedCatalog, servedTables, Table.ofList, distinct] at stored
  have keeps := outsider_keeps_iff (fun _ => 0) servedCatalog 1 7 .stable 4
    { stagedRollout with versionId := 2, percentage := 100 } ⟨by decide, rfl, rfl, by decide⟩ rfl
    alone "seo" stageBody 6 9 rollout next ok row.1 rfl (by rw [row.2]; decide) (by decide)
  refine keeps.2.mpr ⟨plainVersion ⟨1, 0, 0⟩, ⟨by decide, rfl, by decide, by decide⟩, ?_⟩
  intro other otherRow released notStarted
  rw [row.2] at notStarted
  have stored := released.stored
  simp only [servedCatalog, servedTables, Table.ofList, Table.find?_put_eq] at stored
  split at stored
  · cases stored
    exact le_refl _
  split at stored
  · cases stored
    decide
  · simp at stored

/-- Starting a rollout hands the workspaces outside it a version that never served them. -/
theorem outsider_jumps_ahead :
    ¬ ∀ (sha256 : String → Nat) (catalog : Nexora.Catalog) (catalogAgentId workspaceId : Uuid)
        (channel : Channel) (serving : Uuid) (row : RolloutRow),
      Serves catalog.tables catalogAgentId channel serving row → row.percentage = 100 →
        (∀ other otherRow, Serves catalog.tables catalogAgentId channel other otherRow →
          other = serving) →
        ∀ slug (body : RolloutInput) started now rollout next,
          createRollout catalog slug body started now = .ok (rollout, next) →
            rollout.row.catalogAgentId = catalogAgentId → body.channel = row.channel →
            rollout.row.versionId ≠ row.versionId →
            body.percentage ≤ rolloutBucket sha256 catalogAgentId workspaceId →
              (offeredVersion sha256 next.tables catalogAgentId workspaceId channel).map
                Prod.fst = some row.versionId := by
  intro keeps
  have accepted : (createRollout overtakenCatalog "seo" stageBody 6 9).toOption.map
      (fun result => result.1.row.catalogAgentId = 1 && result.1.row.versionId = 3 &&
        (offeredVersion (fun _ => 0) result.2.tables 1 7 .stable).map Prod.fst = some 5) =
        some true := by decide
  obtain ⟨⟨rollout, next⟩, ok, checked⟩ := exists_ok_of_check _ _ accepted
  simp only [Bool.and_eq_true, decide_eq_true_eq] at checked
  obtain ⟨⟨agent, version⟩, offered⟩ := checked
  have alone (other : Uuid) (otherRow : RolloutRow)
      (serves : Serves overtakenCatalog.tables 1 .stable other otherRow) : other = 4 := by
    have stored := serves.stored
    by_contra distinct
    simp [overtakenCatalog, servedTables, Table.ofList, distinct] at stored
  have kept := keeps (fun _ => 0) overtakenCatalog 1 7 .stable 4
    { stagedRollout with versionId := 2, percentage := 100 } ⟨by decide, rfl, rfl, by decide⟩ rfl
    alone "seo" stageBody 6 9 rollout next ok agent rfl (by rw [version]; decide) (by decide)
  rw [offered] at kept
  cases kept

end Nexora.Catalog
