import Nexora.Catalog.Release
import Nexora.Publishing.Ordering

/-!
# Published versions

Over any interleaving of the transactions, a published version keeps its number, its manifest
and its creation data; an agent's versions rise in the order they were committed; and a client
that follows the pages is shown each version that was there all along once.
-/

namespace Nexora.Publishing

open Nexora.Std Nexora.Workspace Nexora.Catalog

/-- The catalog before anything is published. -/
structure Opening (state : State) : Prop where
  quiet : state.running = .empty
  unpublished : state.committed = .empty
  unlisted : state.clients = .empty

/-- The transactions and clients of one catalog, in any order of their statements. -/
def machine : Machine State Statement := .ofFunction Opening State.run

/-- The version a transition publishes: the new row its commit adds. -/
def published (transition : Transition State Statement) : Option (Uuid × VersionRecord) :=
  match transition.label with
  | .commit id =>
    (transition.before.running.find? id).bind fun tx =>
      match tx.phase with
      | .written versionId record =>
        if (transition.before.committed.find? versionId).isSome then none
        else some (versionId, record)
      | _ => none
  | _ => none

/-- The versions of an agent in the order they were committed. -/
def publications (agentId : Uuid) (history : List (Transition State Statement)) :
    List (Uuid × VersionRecord) :=
  (history.filterMap published).filter fun entry => entry.2.catalogAgentId = agentId

variable {history : List (Transition State Statement)} {state next : State} {statement : Statement}
  {agentId id : Uuid} {record : VersionRecord}

theorem steady_of_runs (runs : machine.Runs history state) : Steady state := by
  refine runs.invariant Steady ?_ ?_
  · rintro opening ⟨quiet, unpublished, -⟩
    refine ⟨quiet ▸ Exclusive.empty, ⟨?_, ?_, ?_⟩, ?_⟩
    · intro id record present
      simp [unpublished] at present
    · intro id record present
      simp [unpublished] at present
    · intro id other record otherRecord present
      simp [unpublished] at present
    · intro id tx found
      simp [quiet] at found
  · intro before label after steady ok
    exact steady.step ok

/-- A commit adds a version above those of its agent, or moves one. -/
theorem run_writes (steady : Steady state) (ok : state.run statement = .ok next) :
    (published ⟨state, statement, next⟩ = none ∧ (next.committed = state.committed ∨
      ∃ id record, next.committed = state.committed.put id record ∧
        ∃ before, state.committed.find? id = some before ∧ SameRelease before record)) ∨
    ∃ id record, published ⟨state, statement, next⟩ = some (id, record) ∧
      next.committed = state.committed.put id record ∧ Tops state.committed id record := by
  have idle (notCommit : ∀ other, statement ≠ .commit other) :
      published ⟨state, statement, next⟩ = none := by
    unfold published
    split
    case h_1 id isCommit => exact absurd isCommit (notCommit id)
    case h_2 => rfl
  cases run_effect steady ok with
  | goesOn id tx notCommit _ same => exact .inl ⟨idle notCommit, .inl (by rw [same]; rfl)⟩
  | ends id isAbort same => exact .inl ⟨idle (by simp [isAbort]), .inl (by rw [same])⟩
  | lists client slug limit isPage turned =>
    exact .inl ⟨idle (by simp [isPage]), .inl (turnPage_others turned).1⟩
  | commits id tx versionId record isCommit found isWritten same =>
    subst isCommit
    have stands := steady.stands id tx found
    rw [Tx.Stands, isWritten] at stands
    cases stands.2.1 with
    | publishes tops =>
      refine .inr ⟨versionId, record, ?_, by rw [same], tops⟩
      simp [published, found, isWritten, tops.absent]
    | moves before present alike =>
      refine .inl ⟨?_, .inr ⟨versionId, record, by rw [same], before, present, alike⟩⟩
      simp [published, found, isWritten, present]

/-- A committed row is there after every statement, at most moved. -/
theorem run_keeps (steady : Steady state) (ok : state.run statement = .ok next)
    (present : state.committed.find? id = some record) :
    ∃ now, next.committed.find? id = some now ∧ SameRelease record now := by
  rcases run_writes steady ok with ⟨-, same | ⟨other, written, same, before, there, alike⟩⟩ |
    ⟨other, written, -, same, tops⟩
  · exact ⟨record, same ▸ present, .refl record⟩
  · rw [same]
    exact (Writes.moves before there alike).kept present
  · rw [same]
    exact (Writes.publishes tops).kept present

/-- What is published is what is committed, and an agent's versions rise. -/
structure Rising (history : List (Transition State Statement)) (state : State) : Prop where
  steady : Steady state
  kept : ∀ entry ∈ history.filterMap published, ∃ now,
    state.committed.find? entry.1 = some now ∧ SameRelease entry.2 now
  listed : ∀ id record, state.committed.find? id = some record →
    ∃ entry ∈ history.filterMap published, entry.1 = id ∧ SameRelease entry.2 record
  rising : ∀ agentId, (publications agentId history).Pairwise fun first second =>
    State.rank first < State.rank second

theorem rising_of_runs (runs : machine.Runs history state) : Rising history state := by
  refine runs.invariantWithHistory Rising ?_ ?_
  · intro opening valid
    refine ⟨steady_of_runs (.initial valid), by simp, ?_, fun _ => List.Pairwise.nil⟩
    intro id record present
    simp [valid.unpublished] at present
  · intro history before label after rising ok
    have steady := rising.steady.step ok
    have kept : ∀ entry ∈ history.filterMap published, ∃ now,
        after.committed.find? entry.1 = some now ∧ SameRelease entry.2 now := by
      intro entry member
      obtain ⟨was, present, same⟩ := rising.kept entry member
      obtain ⟨now, there, alike⟩ := run_keeps rising.steady ok present
      exact ⟨now, there, same.trans alike⟩
    rcases run_writes rising.steady ok with ⟨none, writes⟩ | ⟨id, record, isNew, same, tops⟩
    · have unchanged :
          List.filterMap published (history ++ [⟨before, label, after⟩]) =
            history.filterMap published := by
        rw [List.filterMap_append, List.filterMap_cons, none, List.filterMap_nil, List.append_nil]
      refine ⟨steady, unchanged ▸ kept, ?_, ?_⟩
      · intro id record present
        rw [unchanged]
        rcases writes with same | ⟨other, written, same, was, there, alike⟩
        · exact rising.listed id record (same ▸ present)
        · rw [same] at present
          obtain ⟨rfl, rfl⟩ | ⟨_, earlier⟩ := (Table.Written.put _ _ _).found present
          · obtain ⟨entry, member, isId, origin⟩ := rising.listed id was there
            exact ⟨entry, member, isId, origin.trans alike⟩
          · exact rising.listed id record earlier
      · intro agentId
        rw [publications, unchanged]
        exact rising.rising agentId
    · have grown : List.filterMap published (history ++ [⟨before, label, after⟩]) =
          history.filterMap published ++ [(id, record)] := by
        rw [List.filterMap_append, List.filterMap_cons, isNew, List.filterMap_nil]
      have there : after.committed.find? id = some record := by rw [same, Table.find?_put]
      refine ⟨steady, ?_, ?_, ?_⟩
      · intro entry member
        rw [grown, List.mem_append, List.mem_singleton] at member
        rcases member with earlier | rfl
        · exact kept entry earlier
        · exact ⟨record, there, .refl record⟩
      · intro other otherRecord present
        rw [grown]
        rw [same] at present
        obtain ⟨rfl, rfl⟩ | ⟨_, earlier⟩ := (Table.Written.put _ _ _).found present
        · exact ⟨_, List.mem_append_right _ (List.mem_singleton_self _), rfl, .refl _⟩
        · obtain ⟨entry, member, facts⟩ := rising.listed other otherRecord earlier
          exact ⟨entry, List.mem_append_left _ member, facts⟩
      · intro agentId
        rw [publications, grown, List.filter_append]
        refine List.pairwise_append.mpr ⟨rising.rising agentId, ?_, ?_⟩
        · exact (List.pairwise_singleton _ _).sublist List.filter_sublist
        · intro earlier member last isLast
          obtain ⟨listed, ofAgent⟩ := List.mem_filter.mp member
          obtain ⟨isLast, alsoOf⟩ := List.mem_filter.mp isLast
          obtain rfl := List.mem_singleton.mp isLast
          obtain ⟨now, present, alike⟩ := rising.kept earlier listed
          have above := tops.above earlier.1 now present (by
            rw [alike.agent, of_decide_eq_true ofAgent]
            exact (of_decide_eq_true alsoOf).symm)
          rw [alike.number] at above
          exact above

section Listing

variable {client : Nat} {slug : String} {limit : Nat} {walk : Walk (Uuid × VersionRecord)}
  {opened : Table Uuid VersionRecord}

/-- Rows of an agent have different ranks. -/
theorem ranks_distinct (sound : Sound state.committed) (agentId : Uuid) :
    ((state.versionsOf agentId).map State.rank).Nodup := by
  refine List.Nodup.map_on ?_ (List.Nodup.of_map Prod.fst (Table.nodup_select _ _))
  rintro ⟨id, record⟩ member ⟨other, otherRecord⟩ otherMember same
  obtain ⟨present, ofAgent⟩ := (Table.mem_select _ _ _ _).mp member
  obtain ⟨otherPresent, alsoOf⟩ := (Table.mem_select _ _ _ _).mp otherMember
  have agents : record.catalogAgentId = otherRecord.catalogAgentId := by
    rw [of_decide_eq_true ofAgent, of_decide_eq_true alsoOf]
  obtain rfl := sound.unique id other record otherRecord present otherPresent agents
    (Version.parts_injective same)
  rw [present, Option.some.injEq] at otherPresent
  rw [otherPresent]

theorem text_ne_empty (version : Version) : version.text ≠ "" := by
  intro same
  have parts := Version.splitOn_text version
  rw [same] at parts
  have single : ("".toList.splitOn '.').length = 1 := by decide
  rw [parts] at single
  simp [Version.digits] at single

/-- A row that can be a cursor: its text is read as its number. -/
def Cursor (entry : Uuid × VersionRecord) : Prop :=
  entry.2.version = entry.2.number.text ∧ Fits entry.2.number

/-- The rows of a page after one that was shown. -/
theorem listVersions_below {last : Option (Uuid × VersionRecord)}
    {rows : List (Uuid × VersionRecord)} (cursor : ∀ entry, last = some entry → Cursor entry)
    (ok : state.listVersions slug limit (last.map fun entry => entry.2.version) = .ok rows) :
    ∃ agentId, state.agentNamed slug = .ok agentId ∧
      rows = highest State.rank limit ((state.versionsOf agentId).filter fun entry =>
        last.all fun before => State.rank entry < State.rank before) := by
  simp only [State.listVersions, bind_eq_ok, raiseIf_eq_ok, pure_eq_ok, refused_eq_ok] at ok
  obtain ⟨agentId, named, seen, reads, _, -, rfl⟩ := ok
  refine ⟨agentId, named, ?_⟩
  cases last with
  | none =>
    have isNone : none = seen := Except.ok.inj reads
    rw [← isNone]
    rfl
  | some before =>
    obtain ⟨text, fits⟩ := cursor before rfl
    have isNumber := Version.ofText_eq_ok.mpr ⟨text, readable_of_fits fits⟩
    have filled : before.2.version ≠ "" := text ▸ text_ne_empty _
    have passes : ((some before.2.version).filter fun text => text ≠ "") =
        some before.2.version := by
      rw [Option.filter_some, if_pos (decide_eq_true filled)]
    rw [Option.map_some, passes, Option.mapM_some, isNumber] at reads
    have isSome : some before.2.number = seen := Except.ok.inj reads
    rw [← isSome]
    rfl

/-- What a page adds to what its client has been shown. -/
theorem turnPage_shows (sound : Sound state.committed)
    (cursor : ∀ entry, walk.last = some entry → Cursor entry)
    (isWalk : state.walkOf client slug = .ok walk)
    (ok : state.turnPage client slug limit = .ok next) :
    ∃ agentId page, state.agentNamed slug = .ok agentId ∧
      page.Shows State.rank ((state.versionsOf agentId).filter (walk.isBelow State.rank)) ∧
      next = { state with clients := state.clients.put client (slug, walk.turn page) } := by
  simp only [State.turnPage, bind_eq_ok, raiseIf_eq_ok, pure_eq_ok, isWalk, Except.ok.injEq,
    exists_eq_left', not_or, not_lt] at ok
  obtain ⟨_, ⟨positive, -⟩, rows, lists, rfl⟩ := ok
  obtain ⟨agentId, named, rfl⟩ := listVersions_below cursor lists
  refine ⟨agentId, _, named, Page.shows_ofRows ?_ positive, rfl⟩
  exact (List.filter_sublist.map _).nodup (ranks_distinct sound agentId)

/-- A number of an agent that was published when a client began. -/
def PresentIn (rows : Table Uuid VersionRecord) (agentId : Uuid) (value : ℕ ×ₗ ℕ ×ₗ ℕ) : Prop :=
  ∃ id record, rows.find? id = some record ∧ record.catalogAgentId = agentId ∧
    record.number.parts = value

/-- A client on its way through an agent's versions, of which some were there when it began. -/
structure Follows (opened : Table Uuid VersionRecord) (client : Nat) (slug : String)
    (agentId : Uuid) (walk : Walk (Uuid × VersionRecord)) (state : State) : Prop where
  named : state.agentNamed slug = .ok agentId
  kept : ∀ id record, opened.find? id = some record → ∃ now,
    state.committed.find? id = some now ∧ SameRelease record now
  covers : walk.Covers State.rank (PresentIn opened agentId)
  shown : ∀ entry ∈ walk.shown, entry.2.catalogAgentId = agentId ∧ ∃ now,
    state.committed.find? entry.1 = some now ∧ SameRelease entry.2 now
  last : ∀ entry, walk.last = some entry → entry ∈ walk.shown

theorem Follows.cursor (follows : Follows opened client slug agentId walk state)
    (sound : Sound state.committed) {entry : Uuid × VersionRecord}
    (isLast : walk.last = some entry) : Cursor entry := by
  obtain ⟨-, now, present, same⟩ := follows.shown entry (follows.last entry isLast)
  have text := sound.text entry.1 now present
  have fits := sound.fits entry.1 now present
  rw [same.version, same.number] at text
  rw [same.number] at fits
  exact ⟨text, fits⟩

/-- Other statements leave a client where it is. -/
theorem Follows.idle (steady : Steady state)
    (follows : Follows opened client slug agentId walk state) (ok : state.run statement = .ok next)
    (named : next.agentNamed slug = state.agentNamed slug) :
    Follows opened client slug agentId walk next where
  named := named.trans follows.named
  kept id record there := by
    obtain ⟨was, present, same⟩ := follows.kept id record there
    obtain ⟨now, later, alike⟩ := run_keeps steady ok present
    exact ⟨now, later, same.trans alike⟩
  covers := follows.covers
  shown entry member := by
    obtain ⟨ofAgent, was, present, same⟩ := follows.shown entry member
    obtain ⟨now, later, alike⟩ := run_keeps steady ok present
    exact ⟨ofAgent, now, later, same.trans alike⟩
  last := follows.last

/-- The next page of a client. -/
theorem Follows.turn (steady : Steady state)
    (follows : Follows opened client slug agentId walk state) (goesOn : walk.ended = false)
    (isWalk : state.walkOf client slug = .ok walk)
    (ok : state.turnPage client slug limit = .ok next) :
    ∃ turned, next.clients.find? client = some (slug, turned) ∧
      Follows opened client slug agentId turned next := by
  obtain ⟨other, page, named, shows, rfl⟩ := turnPage_shows steady.sound
    (fun _ => follows.cursor steady.sound) isWalk ok
  obtain rfl : other = agentId := by
    rw [follows.named, Except.ok.injEq] at named
    exact named.symm
  have listed : ∀ entry ∈ page.items, entry.2.catalogAgentId = other ∧
      state.committed.find? entry.1 = some entry.2 := by
    intro entry member
    have row := (List.mem_filter.mp (shows.listed entry member)).1
    obtain ⟨present, ofAgent⟩ := (Table.mem_select _ _ _ _).mp row
    exact ⟨of_decide_eq_true ofAgent, present⟩
  refine ⟨walk.turn page, Table.find?_put _ _ _, ⟨follows.named, follows.kept, ?_, ?_, ?_⟩⟩
  · refine follows.covers.turn goesOn shows ?_
    rintro _ ⟨id, record, there, rfl, rfl⟩
    obtain ⟨now, present, same⟩ := follows.kept id record there
    refine ⟨(id, now), (Table.mem_select _ _ _ _).mpr ⟨present, decide_eq_true same.agent⟩, ?_⟩
    exact congrArg Version.parts same.number
  · intro entry member
    rcases List.mem_append.mp member with before | now
    · exact follows.shown entry before
    · obtain ⟨ofAgent, present⟩ := listed entry now
      exact ⟨ofAgent, entry.2, present, .refl _⟩
  · intro entry isLast
    exact List.mem_append_right _ (shows.last entry isLast).1

theorem agentNamed_congr (same : next.agents = state.agents) (slug : String) :
    next.agentNamed slug = state.agentNamed slug := by
  rw [State.agentNamed, same, State.agentNamed]

/-- A client that is listing goes on listing. -/
theorem Follows.step (steady : Steady state)
    (listed : state.clients.find? client = some (slug, walk))
    (follows : Follows opened client slug agentId walk state)
    (ok : state.run statement = .ok next) :
    ∃ turned, next.clients.find? client = some (slug, turned) ∧
      Follows opened client slug agentId turned next := by
  cases run_effect steady ok with
  | goesOn id tx _ _ same =>
    refine ⟨walk, ?_, follows.idle steady ok (agentNamed_congr (by rw [same]; rfl) slug)⟩
    rw [same]
    exact listed
  | ends id _ same =>
    refine ⟨walk, ?_, follows.idle steady ok (agentNamed_congr (by rw [same]) slug)⟩
    rw [same]
    exact listed
  | commits id tx versionId record _ _ _ same =>
    refine ⟨walk, ?_, follows.idle steady ok (agentNamed_congr (by rw [same]) slug)⟩
    rw [same]
    exact listed
  | lists other otherSlug limit isPage turned =>
    by_cases same : other = client
    · subst same
      have own : otherSlug = slug ∧ walk.ended = false ∧
          state.walkOf other otherSlug = .ok walk := by
        have pages := turned
        simp only [State.turnPage, bind_eq_ok] at pages
        obtain ⟨isWalk, reads, -⟩ := pages
        have known := reads
        simp only [State.walkOf, listed, bind_eq_ok, raiseIf_eq_ok, pure_eq_ok, not_or,
          Bool.not_eq_true, not_not, ne_eq] at known
        obtain ⟨_, ⟨sameSlug, goesOn⟩, rfl⟩ := known
        exact ⟨sameSlug.symm, goesOn, reads⟩
      obtain ⟨rfl, goesOn, isWalk⟩ := own
      exact follows.turn steady goesOn isWalk turned
    · refine ⟨walk, ?_, follows.idle steady ok
        (agentNamed_congr (turnPage_others turned).2.2 slug)⟩
      simp only [State.turnPage, bind_eq_ok, pure_eq_ok] at turned
      obtain ⟨_, -, _, -, _, -, rfl⟩ := turned
      rw [Table.find?_put_ne _ _ (Ne.symm same)]
      exact listed

/-- The first page of a client. -/
theorem follows_opening (steady : Steady state) (fresh : state.clients.find? client = none)
    (ok : state.turnPage client slug limit = .ok next) :
    ∃ agentId turned, state.agentNamed slug = .ok agentId ∧
      next.clients.find? client = some (slug, turned) ∧
      Follows state.committed client slug agentId turned next := by
  have isWalk : state.walkOf client slug = .ok .start := by
    rw [State.walkOf, fresh]
    rfl
  obtain ⟨agentId, -, named, -⟩ := turnPage_shows steady.sound (by simp [Walk.start]) isWalk ok
  have start : Follows state.committed client slug agentId .start state := by
    refine ⟨named, fun id record there => ⟨record, there, .refl record⟩,
      Walk.covers_start _, ?_, ?_⟩
    · simp [Walk.start]
    · simp [Walk.start]
  obtain ⟨turned, listed, follows⟩ := start.turn steady rfl isWalk ok
  exact ⟨agentId, turned, named, listed, follows⟩

/-- A version is shown once to a client that has seen all pages. -/
theorem Follows.once (steady : Steady state)
    (follows : Follows opened client slug agentId walk state) (ended : walk.ended = true)
    (present : opened.find? id = some record) (ofAgent : record.catalogAgentId = agentId) :
    (walk.shown.map Prod.fst).count id = 1 := by
  have unique : ∀ entry ∈ walk.shown, ∀ other ∈ walk.shown, entry.1 = other.1 →
      State.rank entry = State.rank other := by
    intro entry member other otherMember same
    obtain ⟨-, now, stored, alike⟩ := follows.shown entry member
    obtain ⟨-, later, also, alsoAlike⟩ := follows.shown other otherMember
    rw [same, also, Option.some.injEq] at stored
    rw [State.rank, State.rank, ← alike.number, ← stored, alsoAlike.number]
  refine List.count_eq_one_of_mem ?_ ?_
  · refine List.pairwise_map.mpr ((follows.covers.falling.imp_of_mem ?_))
    intro first second isFirst isSecond falls same
    exact falls.ne (unique second isSecond first isFirst same.symm)
  · rcases follows.covers.covered record.number.parts ⟨id, record, present, ofAgent, rfl⟩ with
      ⟨entry, member, same⟩ | ⟨goesOn, -⟩
    · obtain ⟨alsoOf, now, stored, alike⟩ := follows.shown entry member
      obtain ⟨later, there, alsoAlike⟩ := follows.kept id record present
      have isEntry : entry.1 = id := by
        refine steady.sound.unique entry.1 id now later stored there ?_ ?_
        · rw [alike.agent, alsoOf, alsoAlike.agent, ofAgent]
        · rw [alike.number, alsoAlike.number]
          exact Version.parts_injective same
      exact List.mem_map.mpr ⟨entry, member, isEntry⟩
    · rw [ended] at goesOn
      cases goesOn

end Listing

/-- Published versions never change, rise in the order of their commits, and are listed once
each, from the highest down, to a client that follows the pages. -/
theorem published_versions_rise (history : List (Transition State Statement)) (state : State)
    (runs : machine.Runs history state) :
    (∀ transition ∈ history, ∀ id record, transition.before.committed.find? id = some record →
      ∃ now, state.committed.find? id = some now ∧
        now = { record with status := now.status, channel := now.channel }) ∧
    (∀ agentId, (publications agentId history).Pairwise fun first second =>
      first.2.number.parts < second.2.number.parts) ∧
    (∀ id record, state.committed.find? id = some record →
      Version.ofText record.version = .ok record.number ∧
        ∃ entry ∈ publications record.catalogAgentId history, entry.1 = id ∧
          record = { entry.2 with status := record.status, channel := record.channel }) ∧
    ∀ earlier opening later client slug limit walk, history = earlier ++ opening :: later →
      opening.label = .turnPage client slug limit → opening.before.clients.find? client = none →
      state.clients.find? client = some (slug, walk) → walk.ended = true →
        (walk.shown.Pairwise fun first second =>
          second.2.number.parts < first.2.number.parts) ∧
        ∃ agentId, opening.before.agentNamed slug = .ok agentId ∧
          (∀ entry ∈ walk.shown, entry.2.catalogAgentId = agentId) ∧
          ∀ id record, opening.before.committed.find? id = some record →
            record.catalogAgentId = agentId → (walk.shown.map Prod.fst).count id = 1 := by
  have rising := rising_of_runs runs
  refine ⟨?_, rising.rising, ?_, ?_⟩
  · intro transition member id record present
    obtain ⟨earlier, later, splits⟩ := List.append_of_mem member
    obtain ⟨prior, step, steps⟩ := runs.split splits
    have steady := steady_of_runs prior
    have after := run_keeps steady step present
    have kept := steps.invariant (fun state => Steady state ∧ ∃ now,
        state.committed.find? id = some now ∧ SameRelease record now) (fun _ _ _ facts ok => by
      obtain ⟨between, was, there, same⟩ := facts
      obtain ⟨now, found, alike⟩ := run_keeps between ok there
      exact ⟨between.step ok, now, found, same.trans alike⟩) ⟨steady.step step, after⟩
    exact kept.2
  · intro id record present
    obtain ⟨entry, member, isId, same⟩ := rising.listed id record present
    refine ⟨rising.steady.sound.ofText present, entry, ?_, isId, same⟩
    exact List.mem_filter.mpr ⟨member, decide_eq_true same.agent.symm⟩
  · intro earlier opening later client slug limit walk splits isPage fresh listed ended
    obtain ⟨prior, step, steps⟩ := runs.split splits
    have steady := steady_of_runs prior
    change opening.before.run opening.label = .ok opening.after at step
    have pages := step
    rw [isPage] at pages
    obtain ⟨agentId, first, named, firstListed, follows⟩ := follows_opening steady fresh pages
    have followed := steps.invariant (fun state => Steady state ∧ ∃ walk,
        state.clients.find? client = some (slug, walk) ∧
          Follows opening.before.committed client slug agentId walk state)
      (fun _ _ _ facts ok => by
        obtain ⟨between, was, there, follows⟩ := facts
        exact ⟨between.step ok, follows.step between there ok⟩)
      ⟨steady.step step, first, firstListed, follows⟩
    obtain ⟨final, turned, also, follows⟩ := followed
    rw [listed, Option.some.injEq, Prod.mk.injEq] at also
    obtain ⟨-, rfl⟩ := also
    exact ⟨follows.covers.falling, agentId, named, fun entry member => (follows.shown entry member).1,
      fun id record present ofAgent => follows.once final ended present ofAgent⟩

/-- The catalog of an agent of which nothing is published. -/
def emptyCatalog : State := ⟨stagedTables.agents, .empty, .empty, .empty⟩

/-- A manifest that declares nothing, of a version. -/
def plainDocument (version : Version) : ManifestDocument := ⟨plainManifest version, .object []⟩

/-- A transaction that publishes a version up to its commit. -/
def publishing (id : Nat) (version : Version) (versionId : Uuid) : List Statement :=
  [.begin id (.publishVersion ⟨"nexora", "owner"⟩ "seo" (plainDocument version)) id,
    .lockAgent id, .readHighest id, .insertVersion id versionId, .commit id]

theorem deprecates : (some AgentStatus.deprecated).isSome ∨ (none : Option Channel).isSome :=
  .inl rfl

/-- Two versions are published. A third is published, and the first one deprecated, between the
two pages of a client. -/
def interleaving : List Statement :=
  publishing 1 ⟨1, 9, 0⟩ 11 ++ publishing 2 ⟨1, 10, 0⟩ 12 ++
    [.begin 3 (.publishVersion ⟨"nexora", "owner"⟩ "seo" (plainDocument ⟨2, 0, 0⟩)) 3,
      .begin 4 (.setVersionRelease "seo" "1.9.0"
        { status := some .deprecated, channel := none, notEmpty := deprecates }) 4,
      .lockAgent 3, .lockVersion 4, .turnPage 9 "seo" 1, .readHighest 3, .updateRelease 4,
      .insertVersion 3 13, .commit 4, .commit 3, .turnPage 9 "seo" 1]

/-- The client's first page, when version 11 is there. -/
def isFirstPage (transition : Transition State Statement) : Bool :=
  match transition.label with
  | .turnPage client slug _ => client = 9 && slug = "seo" &&
      (transition.before.clients.find? 9).isNone &&
      (transition.before.agentNamed "seo").toOption = some 1 &&
      (transition.before.committed.find? 11).any fun record => record.catalogAgentId = 1
  | _ => false

/-- `published_versions_rise` applies to a client that lists versions while others are
published. -/
theorem published_versions_rise_listed :
    ∃ history state, machine.Runs history state ∧
      (publications 1 history).map Prod.fst = [11, 12, 13] ∧
      ((publications 1 history).Pairwise fun first second =>
        first.2.number.parts < second.2.number.parts) ∧
      ∃ walk, state.clients.find? 9 = some ("seo", walk) ∧
        (walk.shown.map Prod.fst).count 11 = 1 := by
  obtain ⟨history, state, runs, checked⟩ := Machine.exists_run_of_trace Opening State.run
    interleaving emptyCatalog
    (fun history state => (publications 1 history).map Prod.fst = [11, 12, 13] &&
      ((state.clients.find? 9).any fun entry => entry.1 = "seo" && entry.2.ended) &&
      Machine.splitsAt history 14 fun _ opening _ => isFirstPage opening)
    ⟨rfl, rfl, rfl⟩ (by decide +kernel)
  simp only [Bool.and_eq_true, decide_eq_true_eq] at checked
  obtain ⟨⟨inOrder, walked⟩, atFirst⟩ := checked
  obtain ⟨⟨slug, walk⟩, listed, ended⟩ := (Option.any_eq_true _ _).mp walked
  simp only [Bool.and_eq_true, decide_eq_true_eq] at ended
  obtain ⟨rfl, ended⟩ := ended
  obtain ⟨earlier, opening, later, splits, opens⟩ := Machine.exists_split atFirst
  unfold isFirstPage at opens
  split at opens
  case h_1 client slug limit isPage =>
    simp only [Bool.and_eq_true, decide_eq_true_eq, Option.isNone_iff_eq_none] at opens
    obtain ⟨⟨⟨⟨rfl, rfl⟩, fresh⟩, isOne⟩, there⟩ := opens
    obtain ⟨record, present, ofAgent⟩ := (Option.any_eq_true _ _).mp there
    obtain ⟨-, rising, -, pages⟩ := published_versions_rise history state runs
    obtain ⟨-, agentId, named, -, once⟩ :=
      pages earlier opening later 9 "seo" limit walk splits isPage fresh listed ended
    obtain rfl : agentId = 1 := by
      rw [named] at isOne
      exact Option.some.inj isOne
    exact ⟨history, state, runs, inOrder, rising 1, walk, listed,
      once 11 record present (of_decide_eq_true ofAgent)⟩
  case h_2 => cases opens

end Nexora.Publishing
