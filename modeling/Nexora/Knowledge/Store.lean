import Nexora.Std.Table
import Nexora.Std.Fallible
import Nexora.Data.Failure
import Nexora.Knowledge.Text
import Nexora.Workspace.Members

/-!
# The knowledge store

Indexed sources with their access lists and chunks, the jobs that index them, and the
ledger of the embeddings that were paid for. A statement that inserts a row is refused
where a key or a declared uniqueness constraint is taken; deleting a source deletes its
access list and its chunks.
-/

namespace Nexora.Knowledge

open Nexora.Std Nexora.Workspace

/-- How an operation on knowledge ends without a result. Its transaction is rolled back. -/
inductive Raised where
  /-- An exception of a request handler, or a `ValueError`. -/
  | request (failure : Failure)
  | runtimeError (text : String)
  /-- `ProviderError` with its code. -/
  | provider (code : String) (retryable : Bool)
  | spendLimitExceeded
  /-- `SpendPricingError` with its code. -/
  | spendPricing (code : String)
  | ingestionLeaseLost
  /-- No job can be claimed. -/
  | idle
  /-- `enforce_knowledge_ingestion_transition`. -/
  | trigger
  deriving DecidableEq, Repr

/-- A `ValueError` with its text. -/
def Raised.value (text : String) : Raised := .request (.valueError text)

/-- A computation that raises a `ValueError` with a text. -/
def ofValue {α : Type} (computation : Except String α) : Except Raised α :=
  computation.mapError .value

@[simp]
theorem ofValue_eq_ok {α : Type} (computation : Except String α) (value : α) :
    ofValue computation = .ok value ↔ computation = .ok value :=
  mapError_eq_ok computation _ value

/-- A check of a request inside an operation on knowledge. -/
def ofRequest {α : Type} (check : Except Failure α) : Except Raised α := check.mapError .request

@[simp]
theorem ofRequest_eq_ok {α : Type} (check : Except Failure α) (value : α) :
    ofRequest check = .ok value ↔ check = .ok value :=
  mapError_eq_ok check _ value

/-- Who may retrieve from a source. -/
inductive AccessScope where
  | workspace
  | restricted
  deriving DecidableEq, Repr

/-- An embedding as it is stored. -/
abbrev Embedding := List PyFloat

/-- A row of `rag_sources`. -/
structure RagSource where
  workspaceId : Uuid
  sourceKey : PyStr
  version : PyStr
  title : PyStr
  contentHash : Nat
  accessScope : AccessScope
  isCurrent : Bool
  deriving DecidableEq

/-- A row of `rag_chunks`. -/
structure RagChunk where
  workspaceId : Uuid
  sourceId : Uuid
  sourceVersion : PyStr
  chunkIndex : Nat
  startOffset : Nat
  endOffset : Nat
  content : PyStr
  contentHash : Nat
  metadata : Json
  accessScope : AccessScope
  embeddingModel : PyStr
  embeddingDimensions : Nat
  embedding : Embedding
  deriving DecidableEq

/-- An ingestion job's status. -/
inductive IngestionStatus where
  | queued
  | running
  | succeeded
  | failed
  | cancelled
  deriving DecidableEq, Repr

namespace IngestionStatus

/-- The transitions `enforce_knowledge_ingestion_transition` admits. -/
def mayBecome : IngestionStatus → IngestionStatus → Bool
  | .queued, next => next ∈ [.queued, .running, .cancelled]
  | .running, _ => true
  | status, next => next = status

/-- A job that has not ended. -/
def isPending : IngestionStatus → Bool
  | .queued | .running => true
  | _ => false

end IngestionStatus

/-- Who processes a job and until when; a job has both or neither. -/
structure Lease where
  owner : String
  expiresAt : Instant
  deriving DecidableEq

/-- What was asked for when a job was queued. -/
structure IngestionRequest where
  workspaceId : Uuid
  sourceKey : PyStr
  version : PyStr
  title : PyStr
  textContent : PyStr
  accessScope : AccessScope
  acl : List Principal
  metadata : Json
  maxChars : Nat
  overlapChars : Nat
  requestHash : Nat
  idempotencyKey : String
  requestedBy : Principal
  deriving DecidableEq

/-- A row of `knowledge_ingestion_jobs`. -/
structure IngestionJob extends IngestionRequest where
  status : IngestionStatus
  attemptCount : Nat
  availableAt : Instant
  lease : Option Lease
  sourceId : Option Uuid
  chunkCount : Option Nat
  embeddingInputTokens : Option Nat
  errorCode : Option String
  deriving DecidableEq

/-- The job is processed under a lease of a worker that has not expired. -/
def IngestionJob.heldBy (job : IngestionJob) (workerId : String) (clock : Instant) : Bool :=
  job.status = .running &&
    job.lease.any fun lease => lease.owner = workerId && clock < lease.expiresAt

/-- The key a row of the embedding ledger is written once under. -/
inductive SourceKey where
  | knowledgeSource (sourceId : Uuid)
  | runRetrieval (runId : Uuid)
  | adhocRetrieval (reference : Uuid)
  deriving DecidableEq, Repr

/-- A priced embedding call. -/
structure SpendRecord where
  provider : String
  model : PyStr
  inputTokens : Nat
  costMicros : Nat
  deriving DecidableEq

/-- A row of the catalog of indexes on `rag_chunks`. -/
structure HnswIndex where
  amname : String
  indisvalid : Bool
  indisready : Bool
  definition : PyStr
  deriving DecidableEq

/-- The tables knowledge is kept in. An access list is a set of rows, and the indexes an
operator built are listed under their names. -/
structure Store where
  memberships : Memberships
  sources : Table Uuid RagSource
  sourceAcl : Table (Uuid × Principal) Uuid
  chunks : Table Uuid RagChunk
  jobs : Table Uuid IngestionJob
  ledger : Table (Uuid × SourceKey) SpendRecord
  hnswIndexes : Table String HnswIndex

/-- A store without rows. -/
def Store.empty : Store := ⟨.empty, .empty, .empty, .empty, .empty, .empty, .empty⟩

namespace Store

variable (store : Store)

/-- The source a workspace keeps under a key and a version. -/
def sourceAt (workspaceId : Uuid) (sourceKey version : PyStr) : Option (Uuid × RagSource) :=
  store.sources.first? fun _ source =>
    source.workspaceId = workspaceId && source.sourceKey = sourceKey && source.version = version

/-- The principal is on the access list of a source. -/
def listed (workspaceId sourceId : Uuid) (principal : Principal) : Bool :=
  (store.sourceAcl.find? (sourceId, principal)).any fun owner => owner = workspaceId

/-- The source of a chunk, when it is current and the chunk's scope admits the principal. -/
def currentSource (principal : Principal) (chunk : RagChunk) : Option RagSource :=
  (store.sources.find? chunk.sourceId).filter fun source =>
    source.workspaceId = chunk.workspaceId && source.isCurrent &&
      (chunk.accessScope = .workspace || store.listed chunk.workspaceId chunk.sourceId principal)

/-- `UPDATE knowledge_ingestion_jobs … WHERE id`, guarded by the status trigger. -/
def updateJob (jobId : Uuid) (change : IngestionJob → IngestionJob) : Except Raised Store := do
  raiseIf (∃ job ∈ store.jobs.find? jobId, job.status.mayBecome (change job).status = false)
    .trigger
  pure { store with jobs := store.jobs.modify jobId change }

@[simp]
theorem updateJob_eq_ok (store next : Store) (jobId : Uuid)
    (change : IngestionJob → IngestionJob) :
    store.updateJob jobId change = .ok next ↔
      (∀ job, store.jobs.find? jobId = some job →
        job.status.mayBecome (change job).status = true) ∧
      next = { store with jobs := store.jobs.modify jobId change } := by
  simp only [updateJob, bind_eq_ok, raiseIf_eq_ok, pure_eq_ok, Option.mem_def, not_exists, not_and,
    Bool.not_eq_false, exists_and_left, exists_const, eq_comm (a := next)]

/-- `record_spend`'s insert: a row already written under the key stays. -/
def recordSpend (workspaceId : Uuid) (sourceKey : SourceKey) (record : SpendRecord) : Store :=
  match store.ledger.find? (workspaceId, sourceKey) with
  | some _ => store
  | none => { store with ledger := store.ledger.put (workspaceId, sourceKey) record }

end Store

/-- The declared uniqueness of a chunk's place in its source. -/
def Store.ChunksUnique (store : Store) : Prop :=
  ∀ first second firstChunk secondChunk, store.chunks.find? first = some firstChunk →
    store.chunks.find? second = some secondChunk → firstChunk.sourceId = secondChunk.sourceId →
    firstChunk.chunkIndex = secondChunk.chunkIndex → first = second

end Nexora.Knowledge
