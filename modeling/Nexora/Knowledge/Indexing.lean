import Nexora.Knowledge.System

/-!
# What indexing and deleting change

One lemma for each part of `index_source`, then its whole effect on the store: the rows of
the indexed source are replaced, other versions of its key are current no more, and the job
is completed. Deleting removes what is stored under a key, and ends the jobs of that key.
-/

namespace Nexora.Knowledge

open Nexora.Std Nexora.Workspace

/-- The row of an indexed source. -/
def sourceRow (workspaceId : Uuid) (arguments : IndexArguments) (contentHash : Nat) :
    RagSource where
  workspaceId := workspaceId
  sourceKey := arguments.sourceKey
  version := arguments.version
  title := arguments.title
  contentHash := contentHash
  accessScope := arguments.accessScope
  isCurrent := true

/-- A source after another version of its key has been indexed. -/
def outdate (workspaceId : Uuid) (sourceKey : PyStr) (source : RagSource) : RagSource :=
  if source.workspaceId = workspaceId && source.sourceKey = sourceKey && source.isCurrent then
    { source with isCurrent := false }
  else source

/-- Nothing but the currency of a source changes when it is outdated. -/
theorem outdate_kept (workspaceId : Uuid) (sourceKey : PyStr) (source : RagSource) :
    (outdate workspaceId sourceKey source).workspaceId = source.workspaceId ∧
      (outdate workspaceId sourceKey source).sourceKey = source.sourceKey ∧
      (outdate workspaceId sourceKey source).version = source.version ∧
      (outdate workspaceId sourceKey source).accessScope = source.accessScope := by
  unfold outdate
  split <;> exact ⟨rfl, rfl, rfl, rfl⟩

variable {sourceKey : PyStr} {sha256 : PyStr → Nat}

/-- A source that is current after another version of a key was indexed is of another key. -/
theorem outdate_current {workspaceId : Uuid} {source : RagSource}
    (current : (outdate workspaceId sourceKey source).isCurrent = true) :
    source.isCurrent = true ∧ ¬ (source.workspaceId = workspaceId ∧ source.sourceKey = sourceKey) := by
  unfold outdate at current
  split at current
  · cases current
  · rename_i other
    refine ⟨current, fun same => other ?_⟩
    simp [same, current]

section Parts

variable {store next : Store} {workspaceId sourceId id : Uuid} {arguments : IndexArguments}
  {chunk : RagChunk} {prepared : PreparedIndex}

/-- The sources after indexing; the source's identifier was free or named the same version. -/
theorem writeSource_ok {contentHash : Nat} {drawnId : Uuid} {written : Store × Uuid}
    (ok : store.writeSource workspaceId arguments contentHash drawnId = .ok written) :
    (∃ sources, written.1 = { store with sources := sources } ∧
      ∀ id, sources.find? id =
        if id = written.2 then some (sourceRow workspaceId arguments contentHash)
        else (store.sources.find? id).map (outdate workspaceId arguments.sourceKey)) ∧
      ∀ source, store.sources.find? written.2 = some source → source.workspaceId = workspaceId ∧
        source.sourceKey = arguments.sourceKey ∧ source.version = arguments.version := by
  have outdated : ∀ id, (store.sources.updateWhere
      (fun _ source => source.workspaceId = workspaceId &&
        source.sourceKey = arguments.sourceKey && source.isCurrent)
      fun source => { source with isCurrent := false }).find? id =
        (store.sources.find? id).map (outdate workspaceId arguments.sourceKey) := by
    intro id
    rw [Table.find?_updateWhere]
    rfl
  unfold Store.writeSource at ok
  cases existing : store.sourceAt workspaceId arguments.sourceKey arguments.version with
  | some entry =>
    obtain ⟨existingId, row⟩ := entry
    simp only [existing, pure_eq_ok] at ok
    subst ok
    obtain ⟨present, meets⟩ := Table.of_first? existing
    refine ⟨⟨_, rfl, fun id => ?_⟩, fun source found => ?_⟩
    · rw [Table.find?_put_eq, outdated]
      rfl
    · rw [present] at found
      cases found
      simpa [and_assoc] using meets
  | none =>
    simp only [existing, bind_eq_ok, pure_eq_ok, ofRequest_eq_ok, inserted_eq_ok,
      Table.insert?_eq_some, outdated, Option.map_eq_none_iff] at ok
    obtain ⟨sources, ⟨free, rfl⟩, rfl⟩ := ok
    refine ⟨⟨_, rfl, fun id => ?_⟩, fun source found => ?_⟩
    · rw [Table.find?_put_eq, outdated]
      rfl
    · rw [free] at found
      cases found

/-- The access list after indexing. -/
theorem writeAcl_ok {identities : List Principal}
    (ok : store.writeAcl workspaceId sourceId identities = .ok next) :
    ∃ sourceAcl, next = { store with sourceAcl := sourceAcl } ∧
      ∀ id identity owner, sourceAcl.find? (id, identity) = some owner ↔
        (store.sourceAcl.find? (id, identity) = some owner ∧
          ¬ (id = sourceId ∧ owner = workspaceId)) ∨
        (id = sourceId ∧ identity ∈ identities ∧ owner = workspaceId) := by
  simp only [Store.writeAcl, bind_eq_ok, pure_eq_ok, ofRequest_eq_ok, inserted_eq_ok] at ok
  obtain ⟨sourceAcl, added, rfl⟩ := ok
  refine ⟨sourceAcl, rfl, fun id identity owner => ?_⟩
  rw [(Table.insertAll?_eq_some added).1, Table.find?_deleteWhere_eq_some]
  apply or_congr
  · simp
  · simp only [List.mem_map, Prod.mk.injEq]
    constructor
    · rintro ⟨_, member, ⟨rfl, rfl⟩, rfl⟩
      exact ⟨rfl, member, rfl⟩
    · rintro ⟨rfl, member, rfl⟩
      exact ⟨identity, member, ⟨rfl, rfl⟩, rfl⟩

/-- A chunk is inserted under a free identifier, at a free place of its source. -/
theorem insertChunk_ok (ok : store.insertChunk id chunk = .ok next) :
    (∀ other row, store.chunks.find? other = some row →
      ¬ (row.sourceId = chunk.sourceId ∧ row.chunkIndex = chunk.chunkIndex)) ∧
    store.chunks.find? id = none ∧ next = { store with chunks := store.chunks.put id chunk } := by
  simp only [Store.insertChunk, bind_eq_ok, pure_eq_ok, raiseIf_eq_ok, ofRequest_eq_ok,
    inserted_eq_ok, Table.insert?_eq_some, Table.any_eq_true, not_exists, not_and,
    Bool.and_eq_true, decide_eq_true_eq] at ok
  obtain ⟨_, free, chunks, ⟨unused, rfl⟩, rfl⟩ := ok
  refine ⟨fun other row present same => free other row present same.1 same.2, unused, rfl⟩

/-- A chunk inserted at a free place keeps places unique. -/
theorem insertChunk_unique (unique : store.ChunksUnique)
    (ok : store.insertChunk id chunk = .ok next) : next.ChunksUnique := by
  obtain ⟨free, _, rfl⟩ := insertChunk_ok ok
  intro first second firstChunk secondChunk firstFound secondFound sameSource sameIndex
  simp only [Table.find?_put_eq] at firstFound secondFound
  split at firstFound <;> split at secondFound
  · rename_i firstIs secondIs
    exact firstIs.trans secondIs.symm
  · cases firstFound
    exact absurd ⟨sameSource.symm, sameIndex.symm⟩ (free _ _ secondFound)
  · cases secondFound
    exact absurd ⟨sameSource, sameIndex⟩ (free _ _ firstFound)
  · exact unique _ _ _ _ firstFound secondFound sameSource sameIndex

/-- The chunks after indexing. -/
theorem writeChunks_ok {chunkId : Nat → Uuid}
    (ok : store.writeChunks workspaceId sourceId arguments prepared chunkId = .ok next) :
    (∃ chunks, next = { store with chunks := chunks }) ∧
    (∀ id chunk, next.chunks.find? id = some chunk →
      (store.chunks.find? id = some chunk ∧
        ¬ (chunk.sourceId = sourceId ∧ chunk.workspaceId = workspaceId)) ∨
      ∃ part embedding,
        chunk = Store.chunkRow workspaceId sourceId arguments prepared.dimensions part embedding) ∧
    (store.ChunksUnique → next.ChunksUnique) := by
  let Inv : Store → Prop := fun current =>
    (∃ chunks, current = { store with chunks := chunks }) ∧
    (∀ id chunk, current.chunks.find? id = some chunk →
      (store.chunks.find? id = some chunk ∧
        ¬ (chunk.sourceId = sourceId ∧ chunk.workspaceId = workspaceId)) ∨
      ∃ part embedding,
        chunk = Store.chunkRow workspaceId sourceId arguments prepared.dimensions part embedding) ∧
    (store.ChunksUnique → current.ChunksUnique)
  refine foldlM_invariant Inv ?_ ?_ ok
  · rintro current ⟨part, embedding⟩ _ later ⟨⟨chunks, only⟩, rows, unique⟩ added
    obtain ⟨_, _, put⟩ := insertChunk_ok added
    refine ⟨⟨_, by rw [put, only]⟩, ?_, fun before => insertChunk_unique (unique before) added⟩
    intro id chunk found
    rw [put] at found
    simp only [Table.find?_put_eq] at found
    split at found
    · exact .inr ⟨part, embedding, (Option.some.inj found).symm⟩
    · exact rows id chunk found
  · refine ⟨⟨_, rfl⟩, ?_, ?_⟩
    · intro id chunk found
      obtain ⟨present, other⟩ := Table.find?_deleteWhere_eq_some.mp found
      exact .inl ⟨present, by simpa using other⟩
    · intro unique first second firstChunk secondChunk firstFound secondFound
      exact unique _ _ _ _ (Table.find?_deleteWhere_eq_some.mp firstFound).1
        (Table.find?_deleteWhere_eq_some.mp secondFound).1

/-- The identities of a restricted source, and of no other, are listed. -/
theorem prepare_ok (ok : arguments.prepare sha256 = .ok prepared) :
    arguments.accessScope = .restricted ↔ prepared.identities ≠ [] := by
  simp only [IndexArguments.prepare, bind_eq_ok, raiseIf_eq_ok, pure_eq_ok] at ok
  obtain ⟨_, _, _, _, _, _, _, _, _, _, _, _, _, _, _, _, _, _, _, _, _, restricted, _, open_, _, _,
    _, _, rfl⟩ := ok
  cases scope : arguments.accessScope with
  | workspace => simpa [scope] using open_
  | restricted => simpa [scope] using restricted

end Parts

/-- The whole effect of a committed index transaction of a job, on the sources it writes and on
the job. -/
structure Indexed (before after : Store) (principal : Principal) (workspaceId : Uuid)
    (arguments : IndexArguments) (jobId : Uuid) (workerId : String) (drawn : Drawn)
    (sourceId : Uuid) : Prop where
  /-- The identifier was free or named the same version. -/
  replaced : ∀ source, before.sources.find? sourceId = some source →
    source.workspaceId = workspaceId ∧ source.sourceKey = arguments.sourceKey ∧
      source.version = arguments.version
  sources : ∃ contentHash, ∀ id, after.sources.find? id =
    if id = sourceId then some (sourceRow workspaceId arguments contentHash)
    else (before.sources.find? id).map (outdate workspaceId arguments.sourceKey)
  acl : ∃ identities, (arguments.accessScope = .restricted ↔ identities ≠ []) ∧
    ∀ id identity owner, after.sourceAcl.find? (id, identity) = some owner ↔
      (before.sourceAcl.find? (id, identity) = some owner ∧
        ¬ (id = sourceId ∧ owner = workspaceId)) ∨
      (id = sourceId ∧ identity ∈ identities ∧ owner = workspaceId)
  chunks : ∀ id chunk, after.chunks.find? id = some chunk →
    (before.chunks.find? id = some chunk ∧
      ¬ (chunk.sourceId = sourceId ∧ chunk.workspaceId = workspaceId)) ∨
    ∃ dimensions part embedding,
      chunk = Store.chunkRow workspaceId sourceId arguments dimensions part embedding
  unique : before.ChunksUnique → after.ChunksUnique
  /-- The job was held by the worker at both fences, and is completed. -/
  job : ∃ job, before.jobs.find? jobId = some job ∧ job.workspaceId = workspaceId ∧
    job.sourceKey = arguments.sourceKey ∧ job.version = arguments.version ∧
    job.requestedBy = principal ∧ job.heldBy workerId drawn.fenceClock = true ∧
    job.heldBy workerId drawn.completeClock = true
  jobs : ∃ chunkCount, after.jobs = before.jobs.modify jobId fun job =>
    { job with
      status := .succeeded, sourceId := some sourceId, chunkCount := some chunkCount
      embeddingInputTokens := arguments.embeddingInputTokens, lease := none, errorCode := none }
  memberships : after.memberships = before.memberships
  ledger : after.ledger = (before.chargeIndex workspaceId sourceId arguments).ledger

/-- Charging changes nothing but the ledger, which it changes by what it held. -/
theorem chargeIndex_ledger (store : Store) (workspaceId sourceId : Uuid)
    (arguments : IndexArguments) :
    ∃ ledger, store.chargeIndex workspaceId sourceId arguments = { store with ledger := ledger } ∧
      ∀ other : Store, other.ledger = store.ledger →
        (other.chargeIndex workspaceId sourceId arguments).ledger = ledger := by
  unfold Store.chargeIndex Store.recordSpend
  cases arguments.embeddingSpend with
  | none => exact ⟨store.ledger, rfl, fun _ same => same⟩
  | some spend =>
    cases arguments.embeddingInputTokens with
    | none => exact ⟨store.ledger, rfl, fun _ same => same⟩
    | some inputTokens =>
      cases found : store.ledger.find? (workspaceId, .knowledgeSource sourceId) with
      | some record =>
        refine ⟨store.ledger, rfl, fun other same => ?_⟩
        simp [same, found]
      | none =>
        refine ⟨_, rfl, fun other same => ?_⟩
        simp [same, found]

variable {principal : Principal} {workerId : String} {clock : Instant} {jobId : Uuid}

/-- A job of the requester's that the fence finds held. -/
theorem checkFence_ok {store : Store} {workspaceId : Uuid} {arguments : IndexArguments}
    (forJob : arguments.ingestionJobId = some jobId)
    (forWorker : arguments.ingestionWorkerId = some workerId)
    (ok : store.checkFence principal workspaceId arguments clock = .ok ()) :
    ∃ job, store.jobs.find? jobId = some job ∧ job.workspaceId = workspaceId ∧
      job.sourceKey = arguments.sourceKey ∧ job.version = arguments.version ∧
      job.requestedBy = principal ∧ job.heldBy workerId clock = true := by
  simp only [Store.checkFence, forJob, forWorker, raiseIf_eq_ok] at ok
  cases found : store.jobs.find? jobId with
  | none => simp [found] at ok
  | some job =>
    simp only [found, Option.all_some, Bool.not_eq_true, Bool.not_eq_false', Bool.and_eq_true,
      decide_eq_true_eq, and_assoc] at ok
    exact ⟨job, rfl, ok⟩

/-- The job is completed while the worker holds it. -/
theorem completeJob_ok {store next : Store} {sourceId : Uuid} {arguments : IndexArguments}
    {chunkCount : Nat} (forJob : arguments.ingestionJobId = some jobId)
    (forWorker : arguments.ingestionWorkerId = some workerId)
    (ok : store.completeJob arguments sourceId chunkCount clock = .ok next) :
    (∃ job, store.jobs.find? jobId = some job ∧ job.heldBy workerId clock = true) ∧
      next = { store with jobs := store.jobs.modify jobId fun job =>
        { job with
          status := .succeeded, sourceId := some sourceId, chunkCount := some chunkCount
          embeddingInputTokens := arguments.embeddingInputTokens, lease := none
          errorCode := none } } := by
  simp only [Store.completeJob, forJob, forWorker, bind_eq_ok, raiseIf_eq_ok,
    Store.updateJob_eq_ok] at ok
  obtain ⟨_, held, _, rfl⟩ := ok
  refine ⟨?_, rfl⟩
  cases found : store.jobs.find? jobId with
  | none => simp [found] at held
  | some job =>
    simp only [found, Option.all_some, Bool.not_eq_true, Bool.not_eq_false'] at held
    exact ⟨job, rfl, held⟩

/-- What a committed index transaction of a job has changed. -/
theorem indexSource_ok {store : Store} {workspaceId : Uuid} {arguments : IndexArguments}
    {drawn : Drawn} {indexed : Store × Uuid × Nat} (forJob : arguments.ingestionJobId = some jobId)
    (forWorker : arguments.ingestionWorkerId = some workerId)
    (ok : store.indexSource sha256 principal workspaceId arguments drawn = .ok indexed) :
    Indexed store indexed.1 principal workspaceId arguments jobId workerId drawn indexed.2.1 := by
  simp only [Store.indexSource, bind_eq_ok, pure_eq_ok] at ok
  obtain ⟨prepared, valid, _, _, _, fence, written, sourcesOk, listed, aclOk, filled, chunksOk,
    completed, jobOk, rfl⟩ := ok
  obtain ⟨⟨sources, isWritten, rows⟩, replaced⟩ := writeSource_ok sourcesOk
  obtain ⟨sourceAcl, isListed, aclRows⟩ := writeAcl_ok aclOk
  obtain ⟨⟨chunks, isFilled⟩, chunkRows, unique⟩ := writeChunks_ok chunksOk
  obtain ⟨⟨job, held, live⟩, isCompleted⟩ := completeJob_ok forJob forWorker jobOk
  obtain ⟨ledger, isCharged, charged⟩ :=
    chargeIndex_ledger completed workspaceId written.2 arguments
  obtain ⟨fenced, found, ofWorkspace, ofKey, ofVersion, ofRequester, heldThen⟩ :=
    checkFence_ok forJob forWorker fence
  have sameJobs : filled.jobs = store.jobs := by rw [isFilled, isListed, isWritten]
  rw [sameJobs, found, Option.some.injEq] at held
  subst held
  refine ⟨replaced, ⟨prepared.contentHash, fun id => ?_⟩, ⟨prepared.identities, prepare_ok valid,
    fun id identity owner => ?_⟩, ?_, ?_, ⟨fenced, found, ofWorkspace, ofKey, ofVersion,
    ofRequester, heldThen, live⟩, ⟨prepared.chunks.length, ?_⟩, ?_, ?_⟩
  · rw [isCharged, isCompleted, isFilled, isListed, isWritten]
    exact rows id
  · rw [isCharged, isCompleted, isFilled, isListed]
    rw [isWritten] at aclRows
    exact aclRows id identity owner
  · intro id chunk present
    rw [isCharged, isCompleted] at present
    rcases chunkRows id chunk present with ⟨earlier, other⟩ | ⟨part, embedding, isRow⟩
    · rw [isListed, isWritten] at earlier
      exact .inl ⟨earlier, other⟩
    · exact .inr ⟨prepared.dimensions, part, embedding, isRow⟩
  · intro before
    rw [isCharged, isCompleted]
    apply unique
    rw [isListed, isWritten]
    exact before
  · rw [isCharged, isCompleted, ← sameJobs]
  · rw [isCharged, isCompleted, isFilled, isListed, isWritten]
  · rw [isCharged]
    apply (charged store _).symm
    rw [isCompleted, isFilled, isListed, isWritten]

/-- What deleting a source has changed, on a store where no job of the key is being processed:
what is stored under the key is gone, and its jobs have ended. -/
structure Deleted (before after : Store) (workspaceId : Uuid) (sourceKey : PyStr) : Prop where
  sources : ∀ id source, after.sources.find? id = some source ↔
    before.sources.find? id = some source ∧
      ¬ (source.workspaceId = workspaceId ∧ source.sourceKey = sourceKey)
  acl : ∀ id identity owner, after.sourceAcl.find? (id, identity) = some owner ↔
    before.sourceAcl.find? (id, identity) = some owner ∧
      ¬ ∃ source, before.sources.find? id = some source ∧ source.workspaceId = workspaceId ∧
        source.sourceKey = sourceKey
  chunks : ∀ id chunk, after.chunks.find? id = some chunk ↔
    before.chunks.find? id = some chunk ∧
      ¬ ∃ source, before.sources.find? chunk.sourceId = some source ∧
        source.workspaceId = workspaceId ∧ source.sourceKey = sourceKey
  jobs : ∀ id, after.jobs.find? id = (before.jobs.find? id).map fun job =>
    if job.workspaceId = workspaceId && job.sourceKey = sourceKey && job.status.isPending then
      { job with status := .cancelled, lease := none }
    else job
  memberships : after.memberships = before.memberships
  ledger : after.ledger = before.ledger

/-- What a committed deletion has changed. -/
theorem deleteSource_ok {store : Store} {workspaceId : Uuid} {deleted : Store × Nat}
    (ok : store.deleteSource principal workspaceId sourceKey clock = .ok deleted) :
    Deleted store deleted.1 workspaceId sourceKey := by
  simp only [Store.deleteSource, bind_eq_ok, pure_eq_ok] at ok
  obtain ⟨_, _, _, _, _, _, rfl⟩ := ok
  have listed : ∀ id, ((store.sources.select fun _ source => source.workspaceId = workspaceId &&
      source.sourceKey = sourceKey).any fun entry => entry.1 = id) = true ↔
        ∃ source, store.sources.find? id = some source ∧ source.workspaceId = workspaceId ∧
          source.sourceKey = sourceKey := by
    intro id
    simp only [List.any_eq_true, Prod.exists, Table.mem_select, Bool.and_eq_true,
      decide_eq_true_eq]
    constructor
    · rintro ⟨_, source, ⟨found, same⟩, rfl⟩
      exact ⟨source, found, same⟩
    · rintro ⟨source, found, same⟩
      exact ⟨id, source, ⟨found, same⟩, rfl⟩
  refine ⟨fun id source => ?_, fun id identity owner => ?_, fun id chunk => ?_, fun id => ?_, rfl,
    rfl⟩
  · rw [Table.find?_deleteWhere_eq_some]
    simp
  · rw [Table.find?_deleteWhere_eq_some, ← listed, Bool.not_eq_true]
  · rw [Table.find?_deleteWhere_eq_some, ← listed, Bool.not_eq_true]
  · rw [Table.find?_updateWhere]

end Nexora.Knowledge
