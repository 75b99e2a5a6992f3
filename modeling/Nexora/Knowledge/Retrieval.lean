import Nexora.Std.Sorting
import Nexora.Knowledge.Store

/-!
# Retrieval

`RagRepository.retrieve`: the checks of its arguments, and its query. The query ranks the
chunks a principal may see by vector distance and, where a text is given, also by full-text
rank, and fuses the two rankings by reciprocal ranks. Distances, full-text ranks and the
arithmetic of PostgreSQL are parameters; the join of a ranked chunk back to its rows is part
of the ranked passage.
-/

namespace Nexora.Knowledge

open Nexora.Std Nexora.Workspace

/-- `HYBRID_RRF_K`. -/
def hybridRrfK : Nat := 60

/-- `HYBRID_CANDIDATE_MULTIPLIER`. -/
def hybridCandidateMultiplier : Nat := 4

/-- `HYBRID_MAX_CANDIDATES`. -/
def hybridMaxCandidates : Nat := 200

/-- `HYBRID_QUERY_MAX_CHARS`. -/
def hybridQueryMaxChars : Nat := 4096

/-- `MAX_HNSW_VECTOR_DIMENSIONS`. -/
def maxHnswVectorDimensions : Nat := 2000

/-- `HNSW_MAX_EF_SEARCH`. -/
def hnswMaxEfSearch : Nat := 1000

/-- What PostgreSQL and its extensions compute for a query. -/
structure Engine (Distance Rank : Type) where
  /-- The cosine distance `<=>`. -/
  distance : Embedding → Embedding → Distance
  /-- `1 - distance`, read as a float. -/
  similarity : Distance → PyFloat
  /-- `plainto_tsquery('simple', …)` has no lexeme. -/
  isEmptyQuery : PyStr → Bool
  /-- A content matches a text query. -/
  matchesQuery : PyStr → PyStr → Bool
  /-- `ts_rank_cd` of a content for a text query. -/
  lexicalScore : PyStr → PyStr → Rank
  /-- The numeric quotient `1.0 / n`. -/
  reciprocal : Nat → ℚ
  /-- A numeric, read as a float. -/
  double : ℚ → PyFloat
  /-- The chunks of a list an approximate index scan yields, in its order. -/
  hnswScan : {Row : Type} → Nat → (Row → Distance) → List Row → List Row
  /-- SHA-256 of a text. -/
  sha256 : PyStr → Nat

/-- A retrieved chunk. -/
structure RetrievedChunk where
  id : Uuid
  sourceId : Uuid
  sourceKey : PyStr
  sourceVersion : PyStr
  title : PyStr
  chunkIndex : Nat
  startOffset : Nat
  endOffset : Nat
  content : PyStr
  metadata : Json
  score : PyFloat
  deriving DecidableEq

/-- `build_untrusted_context`: retrieved chunks as a block of evidence. -/
def buildUntrustedContext (chunks : List RetrievedChunk) : PyStr :=
  contextHeader ++ chunks.flatMap fun chunk =>
    py "--- BEGIN RETRIEVED EVIDENCE (" ++
      citation chunk.sourceKey chunk.sourceVersion chunk.chunkIndex ++ py ") ---\n" ++
      chunk.content ++ py "\n--- END RETRIEVED EVIDENCE ---\n"

/-- The arguments of `retrieve`. -/
structure RetrieveArguments where
  embeddingModel : PyStr
  queryEmbedding : Embedding
  queryText : Option PyStr
  limit : Nat
  annDimensions : Option Nat
  hnswEfSearch : Option Nat

/-- A query whose arguments have been checked. -/
structure Query where
  embeddingModel : PyStr
  embedding : Embedding
  limit : Nat
  lexicalQuery : PyStr
  efSearch : Option Nat

/-- A float of a vector is no NaN and no infinity. -/
def isFinite : PyFloat → Bool
  | .finite _ => true
  | _ => false

/-- `value != 0`. -/
def isNonzero : PyFloat → Bool
  | .finite value => value.significand ≠ 0
  | _ => true

/-- The checks of `_vector_literal`. -/
def checkVector (vector : Embedding) : Except Raised Unit := do
  raiseIf (¬ (1 ≤ vector.length ∧ vector.length ≤ 4096))
    (.value "embedding dimensions must be between 1 and 4096")
  raiseIf (vector.all isFinite = false) (.value "embedding values must be finite")
  raiseIf (vector.any isNonzero = false)
    (.value "cosine embeddings must not be the zero vector")

/-- `validate_ann_target`: the stripped model. -/
def validateAnnTarget (embeddingModel : PyStr) (dimensions : Nat) : Except Raised PyStr := do
  raiseIf (¬ (1 ≤ (strip embeddingModel).length ∧ (strip embeddingModel).length ≤ 128))
    (.value "embedding_model must be between 1 and 128 characters")
  raiseIf (¬ (1 ≤ dimensions ∧ dimensions ≤ maxHnswVectorDimensions))
    (.value "HNSW vector dimensions must be between 1 and 2000")
  pure (strip embeddingModel)

namespace RetrieveArguments

variable (arguments : RetrieveArguments)

/-- The checks of the index arguments: how far an index scan searches, if one is used. -/
def checkAnn : Except Raised (Option Nat) :=
  match arguments.annDimensions with
  | some annDimensions => do
      let _ ← validateAnnTarget arguments.embeddingModel annDimensions
      raiseIf (annDimensions ≠ arguments.queryEmbedding.length)
        (.value "ANN dimensions must match the query embedding dimensions")
      let efSearch := arguments.hnswEfSearch.getD 100
      raiseIf (¬ (1 ≤ efSearch ∧ efSearch ≤ hnswMaxEfSearch))
        (.value "hnsw_ef_search must be between 1 and 1000")
      pure (some efSearch)
  | none => do
      raiseIf (arguments.hnswEfSearch.isSome = true)
        (.value "hnsw_ef_search requires ann_dimensions")
      pure none

/-- `query_text.strip()`, empty without a query text. -/
def lexicalQuery : PyStr := (arguments.queryText.map strip).getD []

/-- The checks `retrieve` makes before it opens a connection. The dimensions of an index scan
have been checked with its other arguments. -/
def check : Except Raised Query := do
  raiseIf (¬ (1 ≤ arguments.limit ∧ arguments.limit ≤ 50))
    (.value "limit must be between 1 and 50")
  raiseIf (¬ (1 ≤ arguments.embeddingModel.length ∧ arguments.embeddingModel.length ≤ 255))
    (.value "embedding_model must be between 1 and 255 characters")
  checkVector arguments.queryEmbedding
  let efSearch ← arguments.checkAnn
  raiseIf (hybridQueryMaxChars < arguments.lexicalQuery.length)
    (.value "hybrid retrieval query must be at most 4096 characters")
  pure {
    embeddingModel := arguments.embeddingModel, embedding := arguments.queryEmbedding
    limit := arguments.limit, lexicalQuery := arguments.lexicalQuery, efSearch := efSearch }

end RetrieveArguments

/-- A chunk a query may rank, with what the result shows of its source. -/
structure Passage where
  id : Uuid
  chunk : RagChunk
  sourceKey : PyStr
  title : PyStr
  deriving DecidableEq

namespace Passage

/-- The result row of a ranked passage. -/
def retrieved (passage : Passage) (score : PyFloat) : RetrievedChunk where
  id := passage.id
  sourceId := passage.chunk.sourceId
  sourceKey := passage.sourceKey
  sourceVersion := passage.chunk.sourceVersion
  title := passage.title
  chunkIndex := passage.chunk.chunkIndex
  startOffset := passage.chunk.startOffset
  endOffset := passage.chunk.endOffset
  content := passage.chunk.content
  metadata := passage.chunk.metadata
  score := score

/-- The source and the position in it, by which ties are broken. -/
def place (passage : Passage) : Uuid ×ₗ Nat :=
  toLex (passage.chunk.sourceId, passage.chunk.chunkIndex)

end Passage

/-- The passage of a chunk, when the principal may retrieve it for a model and its number of
dimensions. -/
def Store.passage? (store : Store) (principal : Principal) (workspaceId : Uuid)
    (embeddingModel : PyStr) (dimensions : Nat) (id : Uuid) (chunk : RagChunk) : Option Passage :=
  if chunk.workspaceId = workspaceId && chunk.embeddingModel = embeddingModel &&
      chunk.embeddingDimensions = dimensions then
    (store.currentSource principal chunk).map fun source =>
      ⟨id, chunk, source.sourceKey, source.title⟩
  else none

/-- The rows both candidate queries select from. -/
def Store.visible (store : Store) (principal : Principal) (workspaceId : Uuid)
    (embeddingModel : PyStr) (dimensions : Nat) : List Passage :=
  store.chunks.entries.filterMap fun entry =>
    store.passage? principal workspaceId embeddingModel dimensions entry.1 entry.2

section Ranking

variable {Distance Rank : Type} [LinearOrder Distance] [LinearOrder Rank]
  (engine : Engine Distance Rank) (query : Query)

/-- A passage's distance from the query. -/
def vectorDistance (passage : Passage) : Distance :=
  engine.distance passage.chunk.embedding query.embedding

/-- A passage's full-text rank for the query. -/
def lexicalScore (passage : Passage) : Rank :=
  engine.lexicalScore passage.chunk.content query.lexicalQuery

/-- `vector_pool`: the passages nearest to the query. -/
def vectorPool (limit : Nat) (rows : List Passage) : List Passage :=
  match query.efSearch with
  | none => (orderBy (vectorDistance engine query) rows).take limit
  | some efSearch => (engine.hnswScan efSearch (vectorDistance engine query) rows).take limit

/-- The passages of a pool by their distance, ties broken by their place. -/
def byDistance (rows : List Passage) : List Passage :=
  orderBy (fun passage => toLex (vectorDistance engine query passage, passage.place)) rows

/-- The passages of the lexical query by their rank, ties broken by their place. -/
def byLexicalScore (rows : List Passage) : List Passage :=
  orderBy (fun passage => toLex (OrderDual.toDual (lexicalScore engine query passage),
    passage.place)) rows

/-- `lexical_candidates`: the passages that match the query's text best. -/
def lexicalPool (limit : Nat) (rows : List Passage) : List Passage :=
  (byLexicalScore engine query (rows.filter fun passage =>
    !engine.isEmptyQuery query.lexicalQuery &&
      engine.matchesQuery passage.chunk.content query.lexicalQuery)).take limit

/-- What one ranking contributes to a passage's score. -/
def contribution (ranked : List Passage) (passage : Passage) : ℚ :=
  match rowNumber ranked passage with
  | some rank => engine.reciprocal (hybridRrfK + rank)
  | none => 0

/-- The fused score of a passage. -/
def fusedScore (vectorRanked lexicalRanked : List Passage) (passage : Passage) : ℚ :=
  contribution engine vectorRanked passage + contribution engine lexicalRanked passage

/-- `min(HYBRID_MAX_CANDIDATES, max(limit, limit * HYBRID_CANDIDATE_MULTIPLIER))`. -/
def candidateLimit (limit : Nat) : Nat :=
  min hybridMaxCandidates (max limit (limit * hybridCandidateMultiplier))

/-- The hybrid query: both rankings fused, the best passages first. -/
def hybrid (rows : List Passage) : List RetrievedChunk :=
  let vectorRanked :=
    byDistance engine query (vectorPool engine query (candidateLimit query.limit) rows)
  let lexicalRanked := lexicalPool engine query (candidateLimit query.limit) rows
  let score := fusedScore engine vectorRanked lexicalRanked
  let fused := vectorRanked ++ lexicalRanked.filter fun passage => passage ∉ vectorRanked
  ((orderBy (fun passage => toLex (OrderDual.toDual (score passage), passage.place)) fused).take
    query.limit).map fun passage => passage.retrieved (engine.double (score passage))

/-- The vector query: the nearest passages, the nearest first. -/
def vectorOnly (rows : List Passage) : List RetrievedChunk :=
  (byDistance engine query (vectorPool engine query query.limit rows)).map fun passage =>
    passage.retrieved (engine.similarity (vectorDistance engine query passage))

/-- The query on the rows it may rank. -/
def Query.answer (rows : List Passage) : List RetrievedChunk :=
  if query.lexicalQuery = [] then vectorOnly engine query rows else hybrid engine query rows

end Ranking

/-- `hnsw_index_name`, of a stripped model. -/
def hnswIndexName (sha256 : PyStr → Nat) (model : PyStr) (dimensions : Nat) : String :=
  let digits := Nat.toDigits 16 (sha256 model / 16 ^ 52)
  "rag_chunks_hnsw_" ++ toString dimensions ++ "_" ++
    String.ofList (List.replicate (12 - digits.length) '0' ++ digits)

/-- `_verify_hnsw_index`. -/
def Store.verifyHnswIndex (store : Store) (sha256 : PyStr → Nat) (embeddingModel : PyStr)
    (dimensions : Nat) : Except Raised Unit := do
  let model ← validateAnnTarget embeddingModel dimensions
  let indexName := hnswIndexName sha256 model dimensions
  let index ← orRaise (store.hnswIndexes.find? indexName)
    (.runtimeError ("required RAG HNSW index is missing: " ++ indexName))
  raiseIf (index.amname ≠ "hnsw" ∨ index.indisvalid = false ∨ index.indisready = false)
    (.runtimeError ("required RAG HNSW index is not usable: " ++ indexName))
  raiseIf (¬ (py "vector(" ++ digits dimensions ++ py ")" <:+: index.definition ∧
      py "vector_cosine_ops" <:+: index.definition))
    (.runtimeError ("required RAG HNSW index has an unexpected definition: " ++ indexName))

/-- `authorize_retrieve`. -/
def Store.authorizeRetrieve (store : Store) (principal : Principal) (workspaceId : Uuid) :
    Except Raised Unit :=
  ofRequest (scopedMember store.memberships principal workspaceId .read)

/-- The transaction of a checked query. -/
def Store.runQuery {Distance Rank : Type} [LinearOrder Distance] [LinearOrder Rank]
    (store : Store) (engine : Engine Distance Rank) (principal : Principal) (workspaceId : Uuid)
    (query : Query) : Except Raised (List RetrievedChunk) := do
  store.authorizeRetrieve principal workspaceId
  match query.efSearch with
  | some _ => store.verifyHnswIndex engine.sha256 query.embeddingModel query.embedding.length
  | none => pure ()
  pure (query.answer engine (store.visible principal workspaceId query.embeddingModel
    query.embedding.length))

/-- `RagRepository.retrieve`. -/
def Store.retrieve {Distance Rank : Type} [LinearOrder Distance] [LinearOrder Rank]
    (store : Store) (engine : Engine Distance Rank) (principal : Principal) (workspaceId : Uuid)
    (arguments : RetrieveArguments) : Except Raised (List RetrievedChunk) := do
  let query ← arguments.check
  store.runQuery engine principal workspaceId query

end Nexora.Knowledge
