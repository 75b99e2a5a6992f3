import Nexora.Std.History
import Nexora.Knowledge.Ingestion

/-!
# The knowledge service

The store together with what the ingestion workers are doing, and everything that may happen
to them, in any order: requests, claims, heartbeats and the parts of a job's processing. A
worker that dies is one whose session takes no further step; its lease expires by the clock
the other transactions read.
-/

namespace Nexora.Knowledge

open Nexora.Std Nexora.Workspace

/-- How far a worker has come with a job. -/
inductive Stage where
  | claimed
  /-- The requester may manage knowledge and the budget allows the embeddings. -/
  | authorized
  | embedded (vectors : List Embedding) (inputTokens : Nat)
  | indexed (sourceId : Uuid) (chunkCount inputTokens : Nat)
  | failing (errorCode : String) (retryable : Bool)
  | finished
  deriving DecidableEq

/-- A worker's processing of a job it has claimed, from the row it was claimed as. -/
structure Session where
  workerId : String
  leaseSeconds : Nat
  jobId : Uuid
  job : IngestionJob
  stage : Stage

/-- The service's state. -/
structure System where
  store : Store
  sessions : Table Nat Session

/-- What a deployment configures: its embedding pipeline, and the interpreter. -/
structure Deployment where
  pipeline : RagEmbeddingPipeline
  runtime : Tools.Runtime

/-- A step of the service. -/
inductive Label where
  | setMember (principal : Principal) (workspaceId : Uuid) (subject : String) (role : Role)
  | enqueue (principal : Principal) (workspaceId : Uuid) (body : KnowledgeSourceInput)
      (idempotencyKey : String) (jobId : Uuid) (now : Instant)
  | deleteSource (principal : Principal) (workspaceId : Uuid) (sourceKey : PyStr)
      (clock : Instant)
  | claim (sessionId : Nat) (workerId : String) (leaseSeconds : Nat) (jobId : Uuid)
      (now : Instant)
  | heartbeat (sessionId : Nat) (now : Instant)
  | authorize (sessionId : Nat) (budgetAllows : Bool)
  | embed (sessionId : Nat) (replies : Nat → EmbeddingReply)
  | index (sessionId : Nat) (drawn : Drawn)
  | settle (sessionId : Nat) (delay : Nat) (now : Instant)

/-- The error code a raised exception is recorded under, and whether the job is retried. -/
def Raised.recorded : Raised → Stage
  | .request (.valueError _) => .failing "knowledge_invalid_source" false
  | .request (.http _ _) => .failing "knowledge_permission_revoked" false
  | .spendLimitExceeded => .failing "workspace_budget_exhausted" false
  | .spendPricing code => .failing code false
  | .provider code retryable => .failing code retryable
  | _ => .failing "knowledge_ingestion_error" true

namespace Session

variable (session : Session) (pipeline : RagEmbeddingPipeline)

/-- The session at another stage. -/
def at_ (stage : Stage) : Session := { session with stage := stage }

/-- The stage after a computation that may raise. -/
def after {α : Type} (computation : Except Raised α) (next : α → Stage) : Session :=
  match computation with
  | .ok value => session.at_ (next value)
  | .error raised => session.at_ raised.recorded

/-- `index_source` of the pipeline before it calls the provider. -/
def authorize (store : Store) (budgetAllows : Bool) : Except Raised Unit := do
  ofRequest (scopedMember store.memberships session.job.requestedBy session.job.workspaceId
    .manageKnowledge)
  raiseIf (pipeline.spend.isSome = true ∧ budgetAllows = false) .spendLimitExceeded

/-- `index_source` of the pipeline up to its call of the repository. -/
def embed (sha256 : PyStr → Nat) (replies : Nat → EmbeddingReply) :
    Except Raised (List Embedding × Nat) := do
  let chunks ← ofValue
    (chunkText sha256 session.job.textContent session.job.maxChars session.job.overlapChars)
  pipeline.embedTexts
    (py "knowledge-ingestion:" ++ py (Uuid.text session.jobId) ++ py ":index")
    (chunks.map TextChunk.content) replies

/-- The arguments the pipeline passes to the repository. -/
def indexArguments (vectors : List Embedding) (inputTokens : Nat) : IndexArguments where
  sourceKey := session.job.sourceKey
  version := session.job.version
  title := session.job.title
  text := session.job.textContent
  embeddingModel := pipeline.embeddingModel
  embeddings := vectors
  accessScope := session.job.accessScope
  acl := session.job.acl
  metadata := session.job.metadata
  maxChars := session.job.maxChars
  overlapChars := session.job.overlapChars
  ingestionJobId := some session.jobId
  ingestionWorkerId := some session.workerId
  embeddingInputTokens := some inputTokens
  embeddingSpend := pipeline.spend

/-- The vectors and tokens of a session whose job's text has been embedded. -/
def embedded? : Option (List Embedding × Nat) :=
  match session.stage with
  | .embedded vectors inputTokens => some (vectors, inputTokens)
  | _ => none

/-- The repository's transaction that indexes the session's job. -/
def index (store : Store) (sha256 : PyStr → Nat) (embedded : List Embedding × Nat)
    (drawn : Drawn) : Except Raised (Store × Uuid × Nat) :=
  store.indexSource sha256 session.job.requestedBy session.job.workspaceId
    (session.indexArguments pipeline embedded.1 embedded.2) drawn

/-- The transaction that records how the processing of the session's job ended. -/
def settle (store : Store) (delay : Nat) (now : Instant) : Except Raised Store :=
  match session.stage with
  | .indexed sourceId chunkCount inputTokens =>
    store.succeed session.workerId session.jobId sourceId chunkCount inputTokens now
  | .failing errorCode retryable =>
    store.fail session.workerId session.jobId errorCode retryable delay now
  | _ => .error .idle

end Session

namespace System

variable (system : System)

/-- A session goes on. -/
def resume (sessionId : Nat) (session : Session) : System :=
  { system with sessions := system.sessions.put sessionId session }

/-- The service after a step. -/
def run (deployment : Deployment) : Label → Except Raised System
  | .setMember principal workspaceId subject role => do
      let memberships ← ofRequest
        (Workspace.setMember system.store.memberships principal workspaceId subject role)
      pure { system with store := { system.store with memberships := memberships } }
  | .enqueue principal workspaceId body idempotencyKey jobId now => do
      let queued ← system.store.enqueueIngestion deployment.runtime principal workspaceId body
        idempotencyKey jobId now
      pure { system with store := queued.1 }
  | .deleteSource principal workspaceId sourceKey clock => do
      let deleted ← system.store.deleteSource principal workspaceId sourceKey clock
      pure { system with store := deleted.1 }
  | .claim sessionId workerId leaseSeconds jobId now => do
      raiseIf ((system.sessions.find? sessionId).isSome = true) .idle
      let claimed ← system.store.claim workerId leaseSeconds jobId now
      pure {
        store := claimed.1
        sessions := system.sessions.put sessionId
          ⟨workerId, leaseSeconds, jobId, claimed.2, .claimed⟩ }
  | .heartbeat sessionId now => do
      let session ← orRaise (system.sessions.find? sessionId) .idle
      raiseIf (session.stage = .finished) .idle
      pure { system with
        store := system.store.heartbeat session.workerId session.leaseSeconds session.jobId now }
  | .authorize sessionId budgetAllows => do
      let session ← orRaise (system.sessions.find? sessionId) .idle
      raiseIf (session.stage ≠ .claimed) .idle
      pure (system.resume sessionId (session.after
        (session.authorize deployment.pipeline system.store budgetAllows) fun _ => .authorized))
  | .embed sessionId replies => do
      let session ← orRaise (system.sessions.find? sessionId) .idle
      raiseIf (session.stage ≠ .authorized) .idle
      pure (system.resume sessionId (session.after
        (session.embed deployment.pipeline deployment.runtime.sha256 replies) fun embedded =>
          .embedded embedded.1 embedded.2))
  | .index sessionId drawn => do
      let session ← orRaise (system.sessions.find? sessionId) .idle
      let embedded ← orRaise session.embedded? .idle
      match session.index deployment.pipeline system.store deployment.runtime.sha256 embedded
        drawn with
      | .ok indexed =>
        pure ({ system with store := indexed.1 }.resume sessionId
          (session.at_ (.indexed indexed.2.1 indexed.2.2 embedded.2)))
      | .error raised => pure (system.resume sessionId (session.at_ raised.recorded))
  | .settle sessionId delay now => do
      let session ← orRaise (system.sessions.find? sessionId) .idle
      let store ← session.settle system.store delay now
      pure ({ system with store := store }.resume sessionId (session.at_ .finished))

end System

/-- A service nobody has used yet. Who belongs to which workspace, what the ledger holds and
which indexes exist is arbitrary. -/
structure Opening (system : System) : Prop where
  quiet : system.sessions = .empty
  unused : ∃ memberships ledger hnswIndexes, system.store =
    { Store.empty with
      memberships := memberships, ledger := ledger, hnswIndexes := hnswIndexes }

/-- The knowledge service under any sequence of steps. -/
def machine (deployment : Deployment) : Machine System Label :=
  .ofFunction Opening fun system label => system.run deployment label

/-- A step commits the index transaction of a session whose job's text has been embedded. -/
def CommitsIndex (deployment : Deployment) (step : Transition System Label) (session : Session)
    (embedded : List Embedding × Nat) (drawn : Drawn) : Prop :=
  ∃ sessionId indexed, step.label = .index sessionId drawn ∧
    step.before.sessions.find? sessionId = some session ∧ session.embedded? = some embedded ∧
    session.index deployment.pipeline step.before.store deployment.runtime.sha256 embedded drawn =
      .ok indexed

end Nexora.Knowledge
