import Nexora.Std.Bulk
import Nexora.Tools.Contracts
import Nexora.Knowledge.Pipeline

/-!
# Ingestion

Queueing a document, processing its job under a lease, indexing it, and deleting a source,
each as one transaction. The repository's transactions lock the workspace's row and the
worker's the job's, so the transactions of one job and of one workspace follow one another.
Drawn identifiers and the clock are arguments.
-/

namespace Nexora.Knowledge

open Nexora.Std Nexora.Workspace

/-- A validated `KnowledgeSourceInput`. -/
structure KnowledgeSourceInput where
  sourceKey : PyStr
  version : PyStr
  title : PyStr
  text : PyStr
  accessScope : AccessScope
  acl : List Principal
  metadata : List (PyStr × Json)
  maxChars : Nat
  overlapChars : Nat
  sourceKey_length : 1 ≤ sourceKey.length ∧ sourceKey.length ≤ 255
  version_length : 1 ≤ version.length ∧ version.length ≤ 128
  title_length : 1 ≤ title.length ∧ title.length ≤ 500
  text_length : 1 ≤ text.length ∧ text.length ≤ 500000
  maxChars_range : 200 ≤ maxChars ∧ maxChars ≤ 4000
  overlapChars_lt : overlapChars < maxChars
  acl_scope : accessScope = .restricted ↔ acl ≠ []

/-- A set of identities in the order of their issuers and subjects. -/
def sortedIdentities (acl : List Principal) : List Principal :=
  orderBy (fun identity => toLex (identity.issuer, identity.subject)) acl.dedup

/-- The stored text of an access scope. -/
def AccessScope.text : AccessScope → PyStr
  | .workspace => py "workspace"
  | .restricted => py "restricted"

/-- The document whose digest tells two requests under one idempotency key apart. -/
def normalizedDocument (body : KnowledgeSourceInput) (normalizedText : PyStr) : Json :=
  .object [
    (py "source_key", .str body.sourceKey), (py "version", .str body.version),
    (py "title", .str (strip body.title)), (py "text", .str normalizedText),
    (py "access_scope", .str body.accessScope.text),
    (py "acl", .array ((sortedIdentities body.acl).map fun identity =>
      .object [(py "issuer", .str (py identity.issuer)),
        (py "subject", .str (py identity.subject))])),
    (py "metadata", .object body.metadata), (py "max_chars", .int body.maxChars),
    (py "overlap_chars", .int body.overlapChars)]

/-- `MAX_INGESTION_ATTEMPTS`. -/
def maxIngestionAttempts : Nat := 3

/-- `code[:100]`. -/
def firstHundred (code : String) : String := String.ofList (code.toList.take 100)

/-- The arguments of `index_source`. -/
structure IndexArguments where
  sourceKey : PyStr
  version : PyStr
  title : PyStr
  text : PyStr
  embeddingModel : PyStr
  embeddings : List Embedding
  accessScope : AccessScope
  acl : List Principal
  metadata : Json
  maxChars : Nat
  overlapChars : Nat
  ingestionJobId : Option Uuid
  ingestionWorkerId : Option String
  embeddingInputTokens : Option Nat
  embeddingSpend : Option EmbeddingSpend

/-- What `index_source` derives from its arguments before it opens a connection. -/
structure PreparedIndex where
  contentHash : Nat
  chunks : List TextChunk
  dimensions : Nat
  identities : List Principal

/-- The checks `index_source` makes before it opens a connection. -/
def IndexArguments.prepare (arguments : IndexArguments) (sha256 : PyStr → Nat) :
    Except Raised PreparedIndex := do
  raiseIf (¬ (1 ≤ arguments.sourceKey.length ∧ arguments.sourceKey.length ≤ 255))
    (.value "source_key must be between 1 and 255 characters")
  raiseIf (¬ (1 ≤ arguments.version.length ∧ arguments.version.length ≤ 128))
    (.value "version must be between 1 and 128 characters")
  raiseIf (¬ (1 ≤ (strip arguments.title).length ∧ (strip arguments.title).length ≤ 500))
    (.value "title must be between 1 and 500 characters")
  raiseIf (¬ (1 ≤ arguments.embeddingModel.length ∧ arguments.embeddingModel.length ≤ 255))
    (.value "embedding_model must be between 1 and 255 characters")
  let normalized ← ofValue (normalizeDocument arguments.text)
  let chunks ← ofValue (chunkText sha256 normalized arguments.maxChars arguments.overlapChars)
  arguments.embeddings.forM checkVector
  raiseIf (arguments.embeddings.length ≠ chunks.length)
    (.value "one embedding is required for every deterministic chunk")
  let dimensions := (arguments.embeddings.head?.map List.length).getD 0
  raiseIf (dimensions = 0) (.value "at least one embedding is required")
  raiseIf (arguments.embeddings.any (fun vector => vector.length ≠ dimensions) = true)
    (.value "all embeddings must use the same dimensions")
  let identities := sortedIdentities arguments.acl
  raiseIf (arguments.accessScope = .restricted ∧ identities = [])
    (.value "restricted sources require at least one ACL identity")
  raiseIf (arguments.accessScope = .workspace ∧ identities ≠ [])
    (.value "workspace sources must not include explicit ACL identities")
  raiseIf (arguments.ingestionJobId.isSome ≠ arguments.ingestionWorkerId.isSome)
    (.value "ingestion fencing arguments must be provided together")
  raiseIf (arguments.ingestionJobId.isSome = true ∧ arguments.embeddingInputTokens = none)
    (.value "embedding_input_tokens is required for ingestion completion")
  pure ⟨sha256 normalized, chunks, dimensions, identities⟩

/-- What one run of `index_source` draws: identifiers, and the clock at both of its fences. -/
structure Drawn where
  sourceId : Uuid
  chunkId : Nat → Uuid
  fenceClock : Instant
  completeClock : Instant

namespace Store

variable (store : Store)

/-- `enqueue_ingestion`: the job of a request, and whether it was queued now. -/
def enqueueIngestion (runtime : Tools.Runtime) (principal : Principal) (workspaceId : Uuid)
    (body : KnowledgeSourceInput) (idempotencyKey : String) (jobId : Uuid) (now : Instant) :
    Except Raised (Store × Uuid × Bool) := do
  let normalizedText ← ofValue (normalizeDocument body.text)
  let requestHash := runtime.sha256 (Tools.dumps runtime (normalizedDocument body normalizedText))
  ofRequest (scopedMember store.memberships principal workspaceId .manageKnowledge)
  let existing := store.jobs.first? fun _ job =>
    job.workspaceId = workspaceId && job.requestedBy = principal &&
      job.idempotencyKey = idempotencyKey
  match existing with
  | some (existingId, job) => do
      raiseIf (job.requestHash ≠ requestHash) (.request (.http 409 none))
      pure (store, existingId, false)
  | none => do
      raiseIf (strip body.title = []) (.request .constraint)
      let jobs ← ofRequest (inserted (store.jobs.insert? jobId {
        workspaceId := workspaceId, sourceKey := body.sourceKey, version := body.version
        title := strip body.title, textContent := normalizedText
        accessScope := body.accessScope, acl := sortedIdentities body.acl
        metadata := .object body.metadata, maxChars := body.maxChars
        overlapChars := body.overlapChars, requestHash := requestHash
        idempotencyKey := idempotencyKey, requestedBy := principal, status := .queued
        attemptCount := 0, availableAt := now, lease := none, sourceId := none
        chunkCount := none, embeddingInputTokens := none, errorCode := none }))
      pure ({ store with jobs := jobs }, jobId, true)

/-- A job a worker may take: queued and available, or left behind by an expired lease. -/
def isDue (job : IngestionJob) (now : Instant) : Bool :=
  (job.status = .queued && job.availableAt ≤ now) ||
    (job.status = .running && job.lease.any fun lease => lease.expiresAt < now)

/-- Put a job back whose lease has expired. -/
def releaseExpired (jobId : Uuid) (job : IngestionJob) : Except Raised Store :=
  match job.status with
  | .running => store.updateJob jobId fun row =>
    { row with status := .queued, lease := none, errorCode := some "lease_expired" }
  | _ => .ok store

/-- `_claim`: a due job no other transaction holds, and the row it is processed from. -/
def claim (workerId : String) (leaseSeconds : Nat) (jobId : Uuid) (now : Instant) :
    Except Raised (Store × IngestionJob) := do
  let job ← orRaise ((store.jobs.find? jobId).filter fun job => isDue job now) .idle
  let released ← store.releaseExpired jobId job
  let running ← released.updateJob jobId fun row =>
    { row with
      status := .running, attemptCount := row.attemptCount + 1
      lease := some ⟨workerId, now + leaseSeconds * 1000000⟩, errorCode := none }
  let claimed ← orRaise (running.jobs.find? jobId) .idle
  pure (running, claimed)

/-- One round of `_heartbeat`. -/
def heartbeat (workerId : String) (leaseSeconds : Nat) (jobId : Uuid) (now : Instant) : Store :=
  { store with
    jobs := store.jobs.updateWhere
      (fun id job => id = jobId && job.heldBy workerId now)
      fun job => { job with lease := some ⟨workerId, now + leaseSeconds * 1000000⟩ } }

/-- `_owned`: the job, while the worker holds it. -/
def owned (workerId : String) (jobId : Uuid) (now : Instant) : Option IngestionJob :=
  (store.jobs.find? jobId).filter fun job => job.heldBy workerId now

/-- `_succeed`. -/
def succeed (workerId : String) (jobId sourceId : Uuid) (chunkCount embeddingInputTokens : Nat)
    (now : Instant) : Except Raised Store :=
  match store.owned workerId jobId now with
  | none => pure store
  | some _ => store.updateJob jobId fun job =>
    { job with
      status := .succeeded, sourceId := some sourceId, chunkCount := some chunkCount
      embeddingInputTokens := some embeddingInputTokens, lease := none }

/-- `_fail`; a failure that may be retried is, until the attempts are used up. -/
def fail (workerId : String) (jobId : Uuid) (errorCode : String) (retryable : Bool)
    (delay : Nat) (now : Instant) : Except Raised Store :=
  match store.owned workerId jobId now with
  | none => pure store
  | some owned =>
    if retryable && owned.attemptCount < maxIngestionAttempts then
      store.updateJob jobId fun job =>
        { job with
          status := .queued, availableAt := now + delay, lease := none
          errorCode := some (firstHundred errorCode) }
    else
      store.updateJob jobId fun job =>
        { job with status := .failed, lease := none, errorCode := some (firstHundred errorCode) }

/-- The fence of `index_source`: the job is of the requester's and still held by the worker. -/
def checkFence (principal : Principal) (workspaceId : Uuid) (arguments : IndexArguments)
    (clock : Instant) : Except Raised Unit :=
  match arguments.ingestionJobId, arguments.ingestionWorkerId with
  | some jobId, some workerId =>
    raiseIf ((store.jobs.find? jobId).all (fun job =>
      !(job.workspaceId = workspaceId && job.sourceKey = arguments.sourceKey &&
        job.version = arguments.version && job.requestedBy = principal &&
        job.heldBy workerId clock)) = true) .ingestionLeaseLost
  | _, _ => pure ()

/-- The source rows after indexing, with the source's identifier: the indexed version is
current and no other of its key is. -/
def writeSource (workspaceId : Uuid) (arguments : IndexArguments) (contentHash : Nat)
    (drawnId : Uuid) : Except Raised (Store × Uuid) := do
  let row : RagSource := {
    workspaceId := workspaceId, sourceKey := arguments.sourceKey, version := arguments.version
    title := arguments.title, contentHash := contentHash, accessScope := arguments.accessScope
    isCurrent := true }
  let outdated := store.sources.updateWhere
    (fun _ source => source.workspaceId = workspaceId && source.sourceKey = arguments.sourceKey &&
      source.isCurrent)
    fun source => { source with isCurrent := false }
  match store.sourceAt workspaceId arguments.sourceKey arguments.version with
  | some (existingId, _) => pure ({ store with sources := outdated.put existingId row }, existingId)
  | none => do
      let sources ← ofRequest (inserted (outdated.insert? drawnId row))
      pure ({ store with sources := sources }, drawnId)

/-- The access list after indexing. -/
def writeAcl (workspaceId sourceId : Uuid) (identities : List Principal) :
    Except Raised Store := do
  let emptied := store.sourceAcl.deleteWhere fun key owner =>
    key.1 = sourceId && owner = workspaceId
  let sourceAcl ← ofRequest (inserted (emptied.insertAll? (identities.map fun identity =>
    ((sourceId, identity), workspaceId))))
  pure { store with sourceAcl := sourceAcl }

/-- Insert a chunk; its place in its source must be free. -/
def insertChunk (id : Uuid) (chunk : RagChunk) : Except Raised Store := do
  raiseIf (store.chunks.any (fun _ other =>
    other.sourceId = chunk.sourceId && other.chunkIndex = chunk.chunkIndex) = true)
    (.request .constraint)
  let chunks ← ofRequest (inserted (store.chunks.insert? id chunk))
  pure { store with chunks := chunks }

/-- The row of a chunk. -/
def chunkRow (workspaceId sourceId : Uuid) (arguments : IndexArguments) (dimensions : Nat)
    (chunk : TextChunk) (embedding : Embedding) : RagChunk where
  workspaceId := workspaceId
  sourceId := sourceId
  sourceVersion := arguments.version
  chunkIndex := chunk.chunkIndex
  startOffset := chunk.startOffset
  endOffset := chunk.endOffset
  content := chunk.content
  contentHash := chunk.contentHash
  metadata := arguments.metadata
  accessScope := arguments.accessScope
  embeddingModel := arguments.embeddingModel
  embeddingDimensions := dimensions
  embedding := embedding

/-- The chunks after indexing. -/
def writeChunks (workspaceId sourceId : Uuid) (arguments : IndexArguments)
    (prepared : PreparedIndex) (chunkId : Nat → Uuid) : Except Raised Store := do
  let emptied := { store with
    chunks := store.chunks.deleteWhere fun _ chunk =>
      chunk.sourceId = sourceId && chunk.workspaceId = workspaceId }
  (prepared.chunks.zip arguments.embeddings).foldlM (fun current part =>
    current.insertChunk (chunkId part.1.chunkIndex)
      (chunkRow workspaceId sourceId arguments prepared.dimensions part.1 part.2)) emptied

/-- The job after indexing, if a job is indexed: its lease is checked once more. -/
def completeJob (arguments : IndexArguments) (sourceId : Uuid) (chunkCount : Nat)
    (clock : Instant) : Except Raised Store :=
  match arguments.ingestionJobId, arguments.ingestionWorkerId with
  | some jobId, some workerId => do
      raiseIf ((store.jobs.find? jobId).all (fun job => !job.heldBy workerId clock) = true)
        .ingestionLeaseLost
      store.updateJob jobId fun job =>
        { job with
          status := .succeeded, sourceId := some sourceId, chunkCount := some chunkCount
          embeddingInputTokens := arguments.embeddingInputTokens, lease := none
          errorCode := none }
  | _, _ => pure store

/-- The ledger after indexing, where embeddings are priced. -/
def chargeIndex (workspaceId sourceId : Uuid) (arguments : IndexArguments) : Store :=
  match arguments.embeddingSpend, arguments.embeddingInputTokens with
  | some spend, some inputTokens =>
    store.recordSpend workspaceId (.knowledgeSource sourceId) (spend.record inputTokens)
  | _, _ => store

/-- `RagRepository.index_source`: the source's identifier and the number of its chunks. -/
def indexSource (sha256 : PyStr → Nat) (principal : Principal) (workspaceId : Uuid)
    (arguments : IndexArguments) (drawn : Drawn) : Except Raised (Store × Uuid × Nat) := do
  let prepared ← arguments.prepare sha256
  ofRequest (scopedMember store.memberships principal workspaceId .manageKnowledge)
  store.checkFence principal workspaceId arguments drawn.fenceClock
  let written ← store.writeSource workspaceId arguments prepared.contentHash drawn.sourceId
  let listed ← written.1.writeAcl workspaceId written.2 prepared.identities
  let filled ← listed.writeChunks workspaceId written.2 arguments prepared drawn.chunkId
  let completed ← filled.completeJob arguments written.2 prepared.chunks.length drawn.completeClock
  pure (completed.chargeIndex workspaceId written.2 arguments, written.2, prepared.chunks.length)

/-- `delete_source`: how many versions were deleted. A job that is being processed refuses it. -/
def deleteSource (principal : Principal) (workspaceId : Uuid) (sourceKey : PyStr)
    (clock : Instant) : Except Raised (Store × Nat) := do
  raiseIf (¬ (1 ≤ sourceKey.length ∧ sourceKey.length ≤ 255))
    (.value "source_key must be between 1 and 255 characters")
  ofRequest (scopedMember store.memberships principal workspaceId .manageKnowledge)
  let pending := fun (_ : Uuid) (job : IngestionJob) =>
    job.workspaceId = workspaceId && job.sourceKey = sourceKey && job.status.isPending
  raiseIf (store.jobs.any (fun id job => pending id job && job.status = .running &&
    job.lease.any fun lease => clock < lease.expiresAt) = true) (.request (.http 409 none))
  let deleted := store.sources.select fun _ source =>
    source.workspaceId = workspaceId && source.sourceKey = sourceKey
  let isDeleted := fun sourceId => deleted.any fun entry => entry.1 = sourceId
  pure ({ store with
    jobs := store.jobs.updateWhere pending fun job =>
      { job with status := .cancelled, lease := none }
    sources := store.sources.deleteWhere fun _ source =>
      source.workspaceId = workspaceId && source.sourceKey = sourceKey
    sourceAcl := store.sourceAcl.deleteWhere fun key _ => isDeleted key.1
    chunks := store.chunks.deleteWhere fun _ chunk => isDeleted chunk.sourceId }, deleted.length)

end Store

end Nexora.Knowledge
