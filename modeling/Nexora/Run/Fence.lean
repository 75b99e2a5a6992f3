import Nexora.Run.State

/-!
# The execution fence

`executable_run` locks the run and refuses every context but that of the attempt that
holds it. The executor's durable writes follow: each passes the fence first, except the
charge for embedding a retrieval query, which is recorded as soon as the provider has
been paid. `clock` is the wall clock when the fence is checked, `now` the transaction's
timestamp.
-/

namespace Nexora.Run

open Nexora.Std Nexora.Workspace Nexora.Tools Json

namespace Store

variable (store : Store)

/-- The checks of `executable_run` that look at the run and the attempt's receipt. -/
def holdsRun (context : ExecutionContext) (run : AgentRun) (clock : Instant) : Bool :=
  run.status = .running && run.live clock && run.cancelRequestedAt.isNone &&
    run.attemptCount = context.attemptCount && run.target.agentId = context.agentId &&
    run.target.kind = context.agentKind && run.traceId = context.traceId &&
    (store.receipts.find? context.jobId).any fun receipt =>
      receipt.workspaceId = context.workspaceId && receipt.runId = context.runId &&
        receipt.status = .processing && run.lease.any (fun lease =>
          receipt.workerId = lease.owner) && receipt.live clock

/-- `executable_run`: the run, when the context's attempt still holds it and its requester
may still run agents. -/
def executableRun (context : ExecutionContext) (clock : Instant) : Except Raised AgentRun := do
  let run ← orRaise ((store.runIn context.workspaceId context.runId).filter fun run =>
    store.holdsRun context run clock) (.tool "execution_fenced")
  match scopedMember store.memberships run.requestedBy context.workspaceId .runAgents with
  | .ok () => pure run
  | .error _ => .error (.tool "requester_not_authorized")

/-- `record_spend`'s insert: a row already written under the key stays. -/
def recordSpend (workspaceId : Uuid) (sourceKey : SourceKey) (record : SpendRecord) : Store :=
  match store.ledger.find? (workspaceId, sourceKey) with
  | some _ => store
  | none => { store with ledger := store.ledger.put (workspaceId, sourceKey) record }

/-- Add a model step to a run's journal. -/
def insertStep (context : ExecutionContext) (stepNo : Nat) (step : ModelStep) :
    Except Raised Store := do
  let modelSteps ← orRaise (store.modelSteps.insert? (context.runId, stepNo) step) .database
  pure { store with modelSteps := modelSteps }

/-- The ledger row that prices a journalled step, when the deployment prices steps. -/
def recordStepCost (context : ExecutionContext) (stepNo : Nat) (cost : Option SpendRecord) :
    Store :=
  match cost with
  | some record => store.recordSpend context.workspaceId (.agentStep context.runId stepNo) record
  | none => store

/-- `ExecutorStore.save`: the step, the ledger row that prices it and, if the answer may be
reused, its cache entry. -/
def save (platform : Platform) (context : ExecutionContext) (stepNo : Nat) (step : ModelStep)
    (cost : Option SpendRecord) (cached : Option (String × CachedAnswer)) (clock : Instant) :
    Except Raised Store := do
  let _ ← store.executableRun context clock
  let response ← storeJson platform step.response
  let stepped ← store.insertStep context stepNo { step with response := response }
  let priced := stepped.recordStepCost context stepNo cost
  match cached with
  | none => pure priced
  | some (cacheKey, answer) => do
      let response ← storeJson platform answer.response
      pure { priced with
        answerCache := priced.answerCache.put (context.workspaceId, context.agentId, cacheKey)
          { answer with response := response } }

/-- Restore the cached answer under a key into the run's journal, if it is still there. -/
def restoreAnswer (context : ExecutionContext) (stepNo : Nat) (provider model : String)
    (cacheKey routingReason : String) (clock now : Instant) : Except Raised Store := do
  let _ ← store.executableRun context clock
  match (store.answerCache.find? (context.workspaceId, context.agentId, cacheKey)).filter
      fun answer => answer.provider = provider && answer.model = model && now < answer.expiresAt with
  | none => pure store
  | some answer =>
    store.insertStep context stepNo {
      provider := provider, model := model, routingReason := routingReason
      response := answer.response }

/-- `restore_answer_cache`. -/
def restoreAnswerCache (context : ExecutionContext) (stepNo : Nat) (provider model : String)
    (cacheKey : String) (clock now : Instant) : Except Raised Store :=
  store.restoreAnswer context stepNo provider model cacheKey "workspace_answer_cache" clock now

/-- `restore_semantic_answer_cache`, under the key the nearest-neighbour search returns. -/
def restoreSemanticAnswerCache (context : ExecutionContext) (stepNo : Nat)
    (provider model : String) (nearest : String) (clock now : Instant) : Except Raised Store :=
  store.restoreAnswer context stepNo provider model nearest "workspace_semantic_answer_cache"
    clock now

/-- `save_retrieval`: the run's evidence, written once; `visible` says whether the requester
may still see every chunk of it. -/
def saveRetrieval (platform : Platform) (context : ExecutionContext) (contextText : PyStr)
    (embeddingInputTokens chunkCount : Nat) (visible : Bool) (clock : Instant) :
    Except Raised Store := do
  let _ ← store.executableRun context clock
  raiseIf (visible = false) (.tool "retrieval_snapshot_unavailable")
  let retrieval : Retrieval := {
    queryHash := platform.runtime.sha256 context.inputText, contextText := contextText
    embeddingInputTokens := embeddingInputTokens, chunkCount := chunkCount }
  match store.retrievals.find? context.runId with
  | none => pure { store with retrievals := store.retrievals.put context.runId retrieval }
  | some current => do
      raiseIf (current.queryHash ≠ retrieval.queryHash ∨ current.contextText ≠ contextText)
        (.tool "retrieval_snapshot_unavailable")
      pure store

/-- `record_semantic_cache_embedding`. -/
def recordSemanticCacheEmbedding (context : ExecutionContext) (record : SpendRecord)
    (clock : Instant) : Except Raised Store := do
  let _ ← store.executableRun context clock
  pure (store.recordSpend context.workspaceId (.answerCacheEmbedding context.runId) record)

end Store

/-- A durable write an executor makes between its calls. -/
inductive Write where
  | save (stepNo : Nat) (step : ModelStep) (cost : Option SpendRecord)
      (cached : Option (String × CachedAnswer)) (clock : Instant)
  | restoreAnswerCache (stepNo : Nat) (provider model cacheKey : String) (clock now : Instant)
  | restoreSemanticAnswerCache (stepNo : Nat) (provider model nearest : String)
      (clock now : Instant)
  | saveRetrieval (contextText : PyStr) (embeddingInputTokens chunkCount : Nat) (visible : Bool)
      (clock : Instant)
  | recordSemanticCacheEmbedding (record : SpendRecord) (clock : Instant)

/-- The wall clock when a write passes the fence. -/
def Write.clock : Write → Instant
  | .save _ _ _ _ clock | .restoreAnswerCache _ _ _ _ clock _
  | .restoreSemanticAnswerCache _ _ _ _ clock _ | .saveRetrieval _ _ _ _ clock
  | .recordSemanticCacheEmbedding _ clock => clock

/-- The store after a write. -/
def Write.run (platform : Platform) (store : Store) (context : ExecutionContext) :
    Write → Except Raised Store
  | .save stepNo step cost cached clock =>
    store.save platform context stepNo step cost cached clock
  | .restoreAnswerCache stepNo provider model cacheKey clock now =>
    store.restoreAnswerCache context stepNo provider model cacheKey clock now
  | .restoreSemanticAnswerCache stepNo provider model nearest clock now =>
    store.restoreSemanticAnswerCache context stepNo provider model nearest clock now
  | .saveRetrieval contextText embeddingInputTokens chunkCount visible clock =>
    store.saveRetrieval platform context contextText embeddingInputTokens chunkCount visible
      clock
  | .recordSemanticCacheEmbedding record clock =>
    store.recordSemanticCacheEmbedding context record clock

/-- `RagRepository.record_embedding_spend` for a run's retrieval query: it takes no context
and passes no fence. -/
def Store.recordEmbeddingSpend (store : Store) (workspaceId runId : Uuid)
    (record : SpendRecord) : Store :=
  store.recordSpend workspaceId (.runRetrieval runId) record

end Nexora.Run
