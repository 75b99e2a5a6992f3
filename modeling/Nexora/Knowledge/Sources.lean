import Nexora.Knowledge.Effects

/-!
# The invariant of the knowledge store

One version of a key is current, chunks and access lists belong to their sources, and a job
has succeeded when its index transaction committed. What was deleted stays deleted until
someone queues its key again, because no job of that key is left that could index it.
-/

namespace Nexora.Knowledge

open Nexora.Std Nexora.Workspace

/-- Sources, access lists and chunks fit together. -/
structure Sound (store : Store) : Prop where
  current : ∀ first second left right, store.sources.find? first = some left →
    store.sources.find? second = some right → left.workspaceId = right.workspaceId →
    left.sourceKey = right.sourceKey → left.isCurrent = true → right.isCurrent = true →
    first = second
  chunkSource : ∀ id chunk, store.chunks.find? id = some chunk →
    ∃ source, store.sources.find? chunk.sourceId = some source ∧
      source.workspaceId = chunk.workspaceId ∧ chunk.sourceVersion = source.version ∧
      chunk.accessScope = source.accessScope
  aclSource : ∀ id identity owner, store.sourceAcl.find? (id, identity) = some owner →
    ∃ source, store.sources.find? id = some source ∧ source.workspaceId = owner ∧
      source.accessScope = .restricted
  restricted : ∀ id source, store.sources.find? id = some source →
    source.accessScope = .restricted →
    ∃ identity owner, store.sourceAcl.find? (id, identity) = some owner
  chunksUnique : store.ChunksUnique

variable {deployment : Deployment} {source : RagSource} {id : Uuid}
  {step : Transition System Label}

namespace Sound

variable {before after : Store}

theorem ofSame (sound : Sound before) (same : SameSources before after) : Sound after where
  current := by
    rw [same.sources]
    exact sound.current
  chunkSource := by
    rw [same.sources, same.chunks]
    exact sound.chunkSource
  aclSource := by
    rw [same.sources, same.sourceAcl]
    exact sound.aclSource
  restricted := by
    rw [same.sources, same.sourceAcl]
    exact sound.restricted
  chunksUnique := by
    unfold Store.ChunksUnique
    rw [same.chunks]
    exact sound.chunksUnique

section Indexing

variable {principal : Principal} {workspaceId : Uuid} {arguments : IndexArguments} {jobId : Uuid}
  {workerId : String} {drawn : Drawn} {sourceId : Uuid}

/-- A source after indexing is the indexed one, or an earlier one that may be outdated. -/
theorem source_after
    (indexed : Indexed before after principal workspaceId arguments jobId workerId drawn sourceId)
    (found : after.sources.find? id = some source) :
    (id = sourceId ∧ ∃ contentHash, source = sourceRow workspaceId arguments contentHash) ∨
      (id ≠ sourceId ∧ ∃ earlier, before.sources.find? id = some earlier ∧
        source = outdate workspaceId arguments.sourceKey earlier) := by
  obtain ⟨contentHash, rows⟩ := indexed.sources
  rw [rows] at found
  split at found
  · exact .inl ⟨by assumption, contentHash, (Option.some.inj found).symm⟩
  · rw [Option.map_eq_some_iff] at found
    obtain ⟨earlier, present, same⟩ := found
    exact .inr ⟨by assumption, earlier, present, same.symm⟩

/-- An earlier source is still there, with the same version and scope, unless it was the one that
has been indexed. -/
theorem source_kept
    (indexed : Indexed before after principal workspaceId arguments jobId workerId drawn sourceId)
    (found : before.sources.find? id = some source) (other : id ≠ sourceId) :
    after.sources.find? id = some (outdate workspaceId arguments.sourceKey source) := by
  obtain ⟨_, rows⟩ := indexed.sources
  rw [rows, if_neg other, found, Option.map_some]

theorem ofIndexed (sound : Sound before)
    (indexed : Indexed before after principal workspaceId arguments jobId workerId drawn
      sourceId) : Sound after where
  current := by
    intro first second left right firstFound secondFound sameWorkspace sameKey leftCurrent
      rightCurrent
    rcases source_after indexed firstFound with ⟨isFirst, _, rfl⟩ | ⟨_, leftRow, leftPresent, rfl⟩ <;>
    rcases source_after indexed secondFound with ⟨isSecond, _, rfl⟩ | ⟨_, rightRow, rightPresent, rfl⟩
    · exact isFirst.trans isSecond.symm
    · have other := (outdate_current rightCurrent).2
      have kept := outdate_kept workspaceId arguments.sourceKey rightRow
      rw [kept.1] at sameWorkspace
      rw [kept.2.1] at sameKey
      exact absurd ⟨sameWorkspace.symm, sameKey.symm⟩ other
    · have other := (outdate_current leftCurrent).2
      have kept := outdate_kept workspaceId arguments.sourceKey leftRow
      rw [kept.1] at sameWorkspace
      rw [kept.2.1] at sameKey
      exact absurd ⟨sameWorkspace, sameKey⟩ other
    · have leftKept := outdate_kept workspaceId arguments.sourceKey leftRow
      have rightKept := outdate_kept workspaceId arguments.sourceKey rightRow
      rw [leftKept.1, rightKept.1] at sameWorkspace
      rw [leftKept.2.1, rightKept.2.1] at sameKey
      exact sound.current first second leftRow rightRow leftPresent rightPresent sameWorkspace
        sameKey (outdate_current leftCurrent).1 (outdate_current rightCurrent).1
  chunkSource := by
    intro id chunk found
    rcases indexed.chunks id chunk found with ⟨present, other⟩ | ⟨_, part, embedding, rfl⟩
    · obtain ⟨source, sourcePresent, ofWorkspace, version, scope⟩ :=
        sound.chunkSource id chunk present
      by_cases same : chunk.sourceId = sourceId
      · have replaced := indexed.replaced source (same ▸ sourcePresent)
        exact absurd ⟨same, ofWorkspace.symm.trans replaced.1⟩ other
      · have kept := outdate_kept workspaceId arguments.sourceKey source
        refine ⟨_, source_kept indexed sourcePresent same, ?_, ?_, ?_⟩
        · exact kept.1.trans ofWorkspace
        · exact version.trans kept.2.2.1.symm
        · exact scope.trans kept.2.2.2.symm
    · obtain ⟨contentHash, rows⟩ := indexed.sources
      exact ⟨_, by rw [Store.chunkRow, rows, if_pos rfl], rfl, rfl, rfl⟩
  aclSource := by
    intro id identity owner found
    obtain ⟨identities, scope, rows⟩ := indexed.acl
    rcases (rows id identity owner).mp found with ⟨present, other⟩ | ⟨rfl, member, rfl⟩
    · obtain ⟨source, sourcePresent, ofWorkspace, restricted⟩ :=
        sound.aclSource id identity owner present
      by_cases same : id = sourceId
      · have replaced := indexed.replaced source (same ▸ sourcePresent)
        exact absurd ⟨same, ofWorkspace.symm.trans replaced.1⟩ other
      · have kept := outdate_kept workspaceId arguments.sourceKey source
        exact ⟨_, source_kept indexed sourcePresent same, kept.1.trans ofWorkspace,
          kept.2.2.2.trans restricted⟩
    · obtain ⟨contentHash, sources⟩ := indexed.sources
      refine ⟨_, by rw [sources, if_pos rfl], rfl, scope.mpr ?_⟩
      exact List.ne_nil_of_mem member
  restricted := by
    intro id source found restricted
    obtain ⟨identities, scope, rows⟩ := indexed.acl
    rcases source_after indexed found with ⟨rfl, _, rfl⟩ | ⟨other, earlier, present, rfl⟩
    · obtain ⟨identity, member⟩ := List.exists_mem_of_ne_nil _ (scope.mp restricted)
      exact ⟨identity, workspaceId, (rows ..).mpr (.inr ⟨rfl, member, rfl⟩)⟩
    · rw [(outdate_kept ..).2.2.2] at restricted
      obtain ⟨identity, owner, listed⟩ := sound.restricted id earlier present restricted
      exact ⟨identity, owner, (rows ..).mpr (.inl ⟨listed, fun same => other same.1⟩)⟩
  chunksUnique := indexed.unique sound.chunksUnique

end Indexing

theorem ofDeleted {workspaceId : Uuid} {sourceKey : PyStr} (sound : Sound before)
    (deleted : Deleted before after workspaceId sourceKey) : Sound after where
  current := by
    intro first second left right firstFound secondFound
    exact sound.current first second left right ((deleted.sources ..).mp firstFound).1
      ((deleted.sources ..).mp secondFound).1
  chunkSource := by
    intro id chunk found
    obtain ⟨present, other⟩ := (deleted.chunks ..).mp found
    obtain ⟨source, sourcePresent, facts⟩ := sound.chunkSource id chunk present
    refine ⟨source, (deleted.sources ..).mpr ⟨sourcePresent, fun same => other ?_⟩, facts⟩
    exact ⟨source, sourcePresent, same⟩
  aclSource := by
    intro id identity owner found
    obtain ⟨present, other⟩ := (deleted.acl ..).mp found
    obtain ⟨source, sourcePresent, facts⟩ := sound.aclSource id identity owner present
    refine ⟨source, (deleted.sources ..).mpr ⟨sourcePresent, fun same => other ?_⟩, facts⟩
    exact ⟨source, sourcePresent, same⟩
  restricted := by
    intro id source found restricted
    obtain ⟨present, other⟩ := (deleted.sources ..).mp found
    obtain ⟨identity, owner, listed⟩ := sound.restricted id source present restricted
    refine ⟨identity, owner, (deleted.acl ..).mpr ⟨listed, ?_⟩⟩
    rintro ⟨same, samePresent, ofKey⟩
    rw [present] at samePresent
    cases samePresent
    exact other ofKey
  chunksUnique := by
    intro first second left right firstFound secondFound
    exact sound.chunksUnique first second left right ((deleted.chunks ..).mp firstFound).1
      ((deleted.chunks ..).mp secondFound).1

/-- Every step keeps the store sound. -/
theorem ofEffect (sound : Sound step.before.store) (effect : Effect deployment step) :
    Sound step.after.store := by
  cases effect with
  | moved sources => exact sound.ofSame sources
  | enqueued _ _ _ _ _ _ _ _ sources => exact sound.ofSame sources
  | indexed _ _ _ _ _ indexed => exact sound.ofIndexed indexed
  | deleted _ _ _ _ _ deleted => exact sound.ofDeleted deleted

theorem empty (memberships : Memberships) (ledger : Table (Uuid × SourceKey) SpendRecord)
    (hnswIndexes : Table String HnswIndex) :
    Sound { Store.empty with
      memberships := memberships, ledger := ledger, hnswIndexes := hnswIndexes } where
  current := by simp [Store.empty]
  chunkSource := by simp [Store.empty]
  aclSource := by simp [Store.empty]
  restricted := by simp [Store.empty]
  chunksUnique := by simp [Store.ChunksUnique, Store.empty]

end Sound

/-- A source has an access list exactly when it is restricted. -/
theorem Sound.listed_iff {store : Store} (sound : Sound store)
    (found : store.sources.find? id = some source) :
    source.accessScope = .restricted ↔
      ∃ identity owner, store.sourceAcl.find? (id, identity) = some owner := by
  constructor
  · exact sound.restricted id source found
  · rintro ⟨identity, owner, listed⟩
    obtain ⟨same, present, _, restricted⟩ := sound.aclSource id identity owner listed
    rw [found] at present
    cases present
    exact restricted

/-- What a job that ends by indexing looks like. -/
theorem indexed_job {before after : Store} {principal : Principal} {workspaceId : Uuid}
    {arguments : IndexArguments} {jobId : Uuid} {workerId : String} {drawn : Drawn}
    {sourceId : Uuid}
    (indexed : Indexed before after principal workspaceId arguments jobId workerId drawn
      sourceId) :
    (∀ id job, before.jobs.find? id = some job → ∃ later, after.jobs.find? id = some later ∧
      later.toIngestionRequest = job.toIngestionRequest ∧
      (if id = jobId then job.status = .running ∧ later.status = .succeeded else later = job)) ∧
    ∀ id later, after.jobs.find? id = some later → ∃ job, before.jobs.find? id = some job := by
  obtain ⟨held, found, _, _, _, _, live, _⟩ := indexed.job
  obtain ⟨chunkCount, jobs⟩ := indexed.jobs
  rw [jobs]
  constructor
  · intro id job present
    rw [Table.find?_modify]
    by_cases same : id = jobId
    · subst same
      rw [found] at present
      cases present
      rw [if_pos rfl, found, Option.map_some]
      exact ⟨_, rfl, rfl, by simpa using running_of_heldBy live⟩
    · rw [if_neg same]
      exact ⟨job, present, rfl, by rw [if_neg same]⟩
  · intro id later present
    rw [Table.find?_modify] at present
    split at present
    · rename_i same
      exact ⟨held, same ▸ found⟩
    · exact ⟨later, present⟩

/-- A job that has succeeded stays so. -/
theorem succeeded_kept (effect : Effect deployment step) {job : IngestionJob}
    (found : step.before.store.jobs.find? id = some job) (succeeded : job.status = .succeeded) :
    ∃ later, step.after.store.jobs.find? id = some later ∧ later.status = .succeeded := by
  cases effect with
  | moved _ jobs =>
    obtain ⟨later, present, follows⟩ := jobs.kept id job found
    have same := JobsFollow.ended follows (by rw [succeeded]; rfl)
    exact ⟨later, present, same.trans succeeded⟩
  | enqueued _ _ _ _ jobId _ queued _ _ free jobs =>
    have other : id ≠ jobId := by
      rintro rfl
      rw [free] at found
      cases found
    rw [jobs, Table.find?_put_ne _ _ other]
    exact ⟨job, found, succeeded⟩
  | indexed session _ _ _ _ indexed =>
    obtain ⟨later, present, _, moved⟩ := (indexed_job indexed).1 id job found
    refine ⟨later, present, ?_⟩
    split at moved
    · exact moved.2
    · rw [moved]
      exact succeeded
  | deleted _ _ _ _ _ deleted =>
    rw [deleted.jobs, found, Option.map_some]
    have notPending : job.status.isPending = false := by rw [succeeded]; rfl
    simp only [notPending, Bool.and_false, Bool.false_eq_true, if_false]
    exact ⟨job, rfl, succeeded⟩

variable {chunkCount inputTokens : Nat}

/-- An exception is recorded as a failure. -/
theorem recorded_not_indexed {sourceId : Uuid} (raised : Raised) :
    raised.recorded ≠ .indexed sourceId chunkCount inputTokens := by
  unfold Raised.recorded
  split <;> simp

theorem after_not_indexed {α : Type} {session : Session} {sourceId : Uuid}
    (computation : Except Raised α) (next : α → Stage)
    (other : ∀ value, next value ≠ .indexed sourceId chunkCount inputTokens) :
    (session.after computation next).stage ≠ .indexed sourceId chunkCount inputTokens := by
  cases computation with
  | ok value => exact other value
  | error raised => exact recorded_not_indexed raised

/-- A session of the next state that has indexed its job did so before or by this step. -/
theorem run_indexed {system next : System} {label : Label}
    (ok : system.run deployment label = .ok next) {id : Nat} {session : Session} {sourceId : Uuid}
    (found : next.sessions.find? id = some session)
    (stage : session.stage = .indexed sourceId chunkCount inputTokens) :
    system.sessions.find? id = some session ∨
      ∃ embedding embedded drawn, session.jobId = embedding.jobId ∧
        CommitsIndex deployment ⟨system, label, next⟩ embedding embedded drawn := by
  cases label with
  | setMember | enqueue | deleteSource =>
    simp only [System.run, bind_eq_ok, pure_eq_ok] at ok
    obtain ⟨_, _, rfl⟩ := ok
    exact .inl found
  | claim sessionId =>
    simp only [System.run, bind_eq_ok, pure_eq_ok] at ok
    obtain ⟨_, _, _, _, rfl⟩ := ok
    simp only [Table.find?_put_eq] at found
    split at found
    · cases found
      cases stage
    · exact .inl found
  | heartbeat =>
    simp only [System.run, bind_eq_ok, pure_eq_ok] at ok
    obtain ⟨_, _, _, _, rfl⟩ := ok
    exact .inl found
  | authorize | embed =>
    simp only [System.run, bind_eq_ok, pure_eq_ok] at ok
    obtain ⟨_, _, _, _, rfl⟩ := ok
    simp only [System.resume, Table.find?_put_eq] at found
    split at found
    · cases found
      exact absurd stage (after_not_indexed _ _ (fun _ => by simp))
    · exact .inl found
  | index sessionId drawn =>
    simp only [System.run, bind_eq_ok, orRaise_eq_ok] at ok
    obtain ⟨embedding, present, embedded, isEmbedded, ok⟩ := ok
    split at ok
    · rename_i indexed commits
      rw [pure_eq_ok] at ok
      subst ok
      simp only [System.resume, Table.find?_put_eq] at found
      split at found
      · cases found
        exact .inr ⟨embedding, embedded, drawn, rfl, sessionId, indexed, rfl, present,
          isEmbedded, commits⟩
      · exact .inl found
    · rw [pure_eq_ok] at ok
      subst ok
      simp only [System.resume, Table.find?_put_eq] at found
      split at found
      · cases found
        exact absurd stage (recorded_not_indexed _)
      · exact .inl found
  | settle sessionId =>
    simp only [System.run, bind_eq_ok, pure_eq_ok] at ok
    obtain ⟨_, _, _, _, rfl⟩ := ok
    simp only [System.resume, Table.find?_put_eq] at found
    split at found
    · cases found
      cases stage
    · exact .inl found

end Nexora.Knowledge
