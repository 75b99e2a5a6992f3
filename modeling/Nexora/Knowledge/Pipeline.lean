import Nexora.Knowledge.Retrieval

/-!
# The embedding pipeline

Texts are embedded by a provider whose answers are checked, and each paid embedding is
charged. `RagEmbeddingPipeline.retrieve` runs several transactions around that call, each on
the store it finds; `Course` lists what they find. A pipeline and the configuration it is
built from carry the bounds they were validated against.
-/

namespace Nexora.Knowledge

open Nexora.Std Nexora.Workspace

/-- Which candidates a retrieval ranks. -/
inductive RetrievalStrategy where
  | vector
  | hybrid
  deriving DecidableEq, Repr

/-- A validated `RetrievalConfig`, without its timeout. -/
structure RetrievalConfig where
  model : PyStr
  dimensions : Nat
  strategy : RetrievalStrategy
  /-- `ann.ef_search`, when an index scan is configured. -/
  ann : Option Nat
  limit : Nat
  batchSize : Nat
  inputMicrosPerMillionTokens : Option Nat
  model_length : 1 ≤ model.length ∧ model.length ≤ 128
  dimensions_range : 1 ≤ dimensions ∧ dimensions ≤ 4096
  ann_range : ∀ efSearch ∈ ann, (1 ≤ efSearch ∧ efSearch ≤ 1000) ∧ dimensions ≤ 2000
  limit_range : 1 ≤ limit ∧ limit ≤ 50
  batchSize_range : 1 ≤ batchSize ∧ batchSize ≤ 256

/-- `EmbeddingSpend`. -/
structure EmbeddingSpend where
  provider : String
  model : PyStr
  inputMicrosPerMillionTokens : Nat
  deriving DecidableEq

/-- `cost_micros`: a partial price unit rounds up. -/
def EmbeddingSpend.costMicros (spend : EmbeddingSpend) (inputTokens : Nat) : Nat :=
  (inputTokens * spend.inputMicrosPerMillionTokens + 999999) / 1000000

/-- The ledger row of a priced embedding call. -/
def EmbeddingSpend.record (spend : EmbeddingSpend) (inputTokens : Nat) : SpendRecord where
  provider := spend.provider
  model := spend.model
  inputTokens := inputTokens
  costMicros := spend.costMicros inputTokens

/-- `RagEmbeddingPipeline` with the bounds its constructor checks, and the dimensions its
adapter admits for each model. -/
structure RagEmbeddingPipeline where
  modelDimensions : List (PyStr × List Nat)
  embeddingModel : PyStr
  dimensions : Nat
  batchSize : Nat
  retrievalLimit : Nat
  retrievalStrategy : RetrievalStrategy
  annEnabled : Bool
  hnswEfSearch : Nat
  spend : Option EmbeddingSpend
  dimensions_range : 1 ≤ dimensions ∧ dimensions ≤ 4096
  batchSize_range : 1 ≤ batchSize ∧ batchSize ≤ 256
  retrievalLimit_range : 1 ≤ retrievalLimit ∧ retrievalLimit ≤ 50
  ann_dimensions : annEnabled = true → dimensions ≤ 2000
  hnswEfSearch_range : 1 ≤ hnswEfSearch ∧ hnswEfSearch ≤ 1000

/-- `RetrievalConfig.spend`. -/
def RetrievalConfig.spend (config : RetrievalConfig) : Option EmbeddingSpend :=
  config.inputMicrosPerMillionTokens.map fun rate => ⟨"openai", config.model, rate⟩

/-- `build_retriever`. -/
def buildRetriever (config : RetrievalConfig) : RagEmbeddingPipeline where
  modelDimensions := [(config.model, [config.dimensions])]
  embeddingModel := config.model
  dimensions := config.dimensions
  batchSize := config.batchSize
  retrievalLimit := config.limit
  retrievalStrategy := config.strategy
  annEnabled := config.ann.isSome
  hnswEfSearch := config.ann.getD 100
  spend := config.spend
  dimensions_range := config.dimensions_range
  batchSize_range := config.batchSize_range
  retrievalLimit_range := config.limit_range
  ann_dimensions := by
    intro enabled
    obtain ⟨efSearch, configured⟩ := Option.isSome_iff_exists.mp enabled
    exact (config.ann_range efSearch configured).2
  hnswEfSearch_range := by
    cases configured : config.ann with
    | none => decide
    | some efSearch => exact (config.ann_range efSearch configured).1

/-- What the embedding provider answers: a failure on the way, or a decoded response. -/
inductive EmbeddingReply where
  | failed (raised : Raised)
  | body (model : PyStr) (data : List (Int × Embedding)) (promptTokens : Int)

/-- `EmbeddingBatch`. -/
structure EmbeddingBatch where
  vectors : List Embedding
  model : PyStr
  dimensions : Nat
  inputTokens : Nat

/-- A provider error that is not retried. -/
def Raised.embedding (code : String) : Raised := .provider code false

/-- `_validate_request`. -/
def RagEmbeddingPipeline.validateRequest (pipeline : RagEmbeddingPipeline) (requestId : PyStr)
    (texts : List PyStr) (model : PyStr) (dimensions : Nat) : Except Raised Unit := do
  raiseIf (strip requestId = []) (.embedding "embedding_request_id_required")
  let configured ← orRaise (pipeline.modelDimensions.lookup model)
    (.embedding "embedding_model_not_configured")
  raiseIf (dimensions ∉ configured) (.embedding "embedding_dimensions_not_configured")
  raiseIf (¬ (1 ≤ texts.length ∧ texts.length ≤ 256)) (.embedding "embedding_batch_size_invalid")
  raiseIf (texts.any (fun text => strip text = [] || 12000 < text.length) = true)
    (.embedding "embedding_input_invalid")

/-- `_normalize_vector`. -/
def normalizeVector (values : Embedding) (expectedDimensions : Nat) : Except Raised Embedding := do
  raiseIf (values.length ≠ expectedDimensions) (.embedding "embedding_dimension_mismatch")
  raiseIf (values.all isFinite = false) (.embedding "embedding_invalid_response")
  raiseIf (values.any isNonzero = false) (.embedding "embedding_zero_vector")
  pure values

/-- One item of a response, added to those already indexed. -/
def indexItem (expectedCount expectedDimensions : Nat) (indexed : List (Int × Embedding))
    (item : Int × Embedding) : Except Raised (List (Int × Embedding)) := do
  raiseIf ((indexed.lookup item.1).isSome = true ∨ ¬ (0 ≤ item.1 ∧ item.1 < expectedCount))
    (.embedding "embedding_invalid_response")
  let vector ← normalizeVector item.2 expectedDimensions
  pure (indexed ++ [(item.1, vector)])

/-- `_parse_response`. -/
def parseResponse (reply : EmbeddingReply) (expectedCount : Nat) (expectedModel : PyStr)
    (expectedDimensions : Nat) : Except Raised EmbeddingBatch :=
  match reply with
  | .failed raised => .error raised
  | .body model data promptTokens => do
      raiseIf (model ≠ expectedModel) (.embedding "embedding_model_mismatch")
      let indexed ← data.foldlM (indexItem expectedCount expectedDimensions) []
      raiseIf (∃ index ∈ List.range expectedCount, indexed.lookup (index : Int) = none)
        (.embedding "embedding_invalid_response")
      raiseIf (promptTokens < 0) (.embedding "embedding_invalid_response")
      pure {
        vectors := (List.range expectedCount).filterMap fun index => indexed.lookup (index : Int)
        model := model, dimensions := expectedDimensions, inputTokens := promptTokens.toNat }

namespace RagEmbeddingPipeline

variable (pipeline : RagEmbeddingPipeline)

/-- `OpenAIEmbeddingsAdapter.embed`. -/
def embed (requestId : PyStr) (texts : List PyStr) (reply : EmbeddingReply) :
    Except Raised EmbeddingBatch := do
  pipeline.validateRequest requestId texts pipeline.embeddingModel pipeline.dimensions
  parseResponse reply texts.length pipeline.embeddingModel pipeline.dimensions

/-- Texts in batches of a size. -/
def batches (texts : List PyStr) : List (List PyStr) :=
  (List.range ((texts.length + pipeline.batchSize - 1) / pipeline.batchSize)).map fun batchNo =>
    (texts.drop (batchNo * pipeline.batchSize)).take pipeline.batchSize

/-- The loop of `_embed_texts` from a batch on; the provider answers each batch. -/
def embedBatches (requestId : PyStr) (replies : Nat → EmbeddingReply) :
    Nat → List (List PyStr) → Except Raised (List Embedding × Nat)
  | _, [] => pure ([], 0)
  | batchNo, batch :: rest => do
      let result ← pipeline.embed (requestId ++ py ":" ++ digits batchNo) batch (replies batchNo)
      raiseIf (result.model ≠ pipeline.embeddingModel ∨ result.dimensions ≠ pipeline.dimensions)
        (.value "embedding adapter returned an incompatible batch")
      let others ← embedBatches requestId replies (batchNo + 1) rest
      pure (result.vectors ++ others.1, result.inputTokens + others.2)

/-- `_embed_texts`. -/
def embedTexts (requestId : PyStr) (texts : List PyStr) (replies : Nat → EmbeddingReply) :
    Except Raised (List Embedding × Nat) := do
  let embedded ← pipeline.embedBatches requestId replies 0 (pipeline.batches texts)
  raiseIf (embedded.1.length ≠ texts.length)
    (.value "embedding adapter returned the wrong number of vectors")
  pure embedded

end RagEmbeddingPipeline

/-- What a retrieval meets on its way: the stores its transactions find, whether the budget
allows it, and what the provider answers. -/
structure Course where
  authorizedIn : Store
  indexVerifiedIn : Store
  budgetAllows : Bool
  replies : Nat → EmbeddingReply
  retrievedIn : Store

/-- A query whose embedding has been paid for: what it is charged, and the arguments it is
retrieved with. -/
structure PaidQuery where
  charge : Option (SourceKey × SpendRecord)
  inputTokens : Nat
  arguments : RetrieveArguments

/-- `RagSearchResult`. -/
structure RagSearchResult where
  chunks : List RetrievedChunk
  embeddingInputTokens : Nat

namespace RagEmbeddingPipeline

variable (pipeline : RagEmbeddingPipeline)

/-- `authorize_ann_index`, if an index scan is configured. -/
def authorizeAnnIndex (store : Store) (sha256 : PyStr → Nat) : Except Raised Unit :=
  if pipeline.annEnabled then
    store.verifyHnswIndex sha256 pipeline.embeddingModel pipeline.dimensions
  else pure ()

/-- The checks before an embedding call that is priced. -/
def authorizeSpend (spendKey : Option SourceKey) (budgetAllows : Bool) : Except Raised Unit :=
  match pipeline.spend with
  | none => pure ()
  | some _ => do
      raiseIf (spendKey = none) (.spendPricing "embedding_spend_key_missing")
      raiseIf (budgetAllows = false) .spendLimitExceeded

/-- The arguments `retrieve` passes to the repository. -/
def arguments (query : PyStr) (queryEmbedding : Embedding) (limit : Option Nat) :
    RetrieveArguments where
  embeddingModel := pipeline.embeddingModel
  queryEmbedding := queryEmbedding
  queryText := if pipeline.retrievalStrategy = .hybrid then some query else none
  limit := limit.getD pipeline.retrievalLimit
  annDimensions := if pipeline.annEnabled then some pipeline.dimensions else none
  hnswEfSearch := if pipeline.annEnabled then some pipeline.hnswEfSearch else none

/-- `retrieve` up to its call of the repository: the query is embedded, and charged under its
key. -/
def payQuery (sha256 : PyStr → Nat) (principal : Principal) (workspaceId : Uuid)
    (query requestId : PyStr) (limit : Option Nat) (spendKey : Option SourceKey)
    (course : Course) : Except Raised PaidQuery := do
  course.authorizedIn.authorizeRetrieve principal workspaceId
  pipeline.authorizeAnnIndex course.indexVerifiedIn sha256
  pipeline.authorizeSpend spendKey course.budgetAllows
  let embedded ← pipeline.embedTexts (requestId ++ py ":query") [query] course.replies
  let vector ← orRaise embedded.1.head? (.runtimeError "tuple index out of range")
  pure {
    charge := spendKey.bind fun key => pipeline.spend.map fun spend => (key, spend.record embedded.2)
    inputTokens := embedded.2
    arguments := pipeline.arguments query vector limit }

/-- `RagEmbeddingPipeline.retrieve`. -/
def retrieve {Distance Rank : Type} [LinearOrder Distance] [LinearOrder Rank]
    (engine : Engine Distance Rank) (principal : Principal) (workspaceId : Uuid)
    (query requestId : PyStr) (limit : Option Nat) (spendKey : Option SourceKey)
    (course : Course) : Except Raised RagSearchResult := do
  let paid ← pipeline.payQuery engine.sha256 principal workspaceId query requestId limit spendKey
    course
  let chunks ← course.retrievedIn.retrieve engine principal workspaceId paid.arguments
  pure ⟨chunks, paid.inputTokens⟩

/-- What the executor's call for a run pays for before the repository is queried. -/
def payRunQuery (sha256 : PyStr → Nat) (principal : Principal) (workspaceId runId : Uuid)
    (inputText : PyStr) (course : Course) : Except Raised PaidQuery :=
  pipeline.payQuery sha256 principal workspaceId inputText
    (py "worker-retrieval:" ++ py (Uuid.text runId)) none (some (.runRetrieval runId)) course

/-- The executor's call of `retrieve` for a run. -/
def retrieveForRun {Distance Rank : Type} [LinearOrder Distance] [LinearOrder Rank]
    (engine : Engine Distance Rank) (principal : Principal) (workspaceId runId : Uuid)
    (inputText : PyStr) (course : Course) : Except Raised RagSearchResult :=
  pipeline.retrieve engine principal workspaceId inputText
    (py "worker-retrieval:" ++ py (Uuid.text runId)) none (some (.runRetrieval runId)) course

end RagEmbeddingPipeline

end Nexora.Knowledge
