import Nexora.Knowledge.Retrieval

/-!
# What retrieval may depend on

The rows a query ranks are those the principal may see, each once. An exact query orders
them by keys that tell them apart, so its answer is a function of the set of visible rows:
rows a principal may not see take no place in a pool and shift no rank.
-/

namespace Nexora.Knowledge

open Nexora.Std Nexora.Workspace

section Rows

variable {store : Store} {principal : Principal} {workspaceId : Uuid} {embeddingModel : PyStr}
  {dimensions : Nat} {passage : Passage}

/-- A passage shows its own chunk, of the workspace, model and dimensions asked for, whose
source is current and admits the principal. -/
theorem passage?_eq_some {id : Uuid} {chunk : RagChunk} :
    store.passage? principal workspaceId embeddingModel dimensions id chunk = some passage ↔
      chunk.workspaceId = workspaceId ∧ chunk.embeddingModel = embeddingModel ∧
      chunk.embeddingDimensions = dimensions ∧
      ∃ source, store.currentSource principal chunk = some source ∧
        passage = ⟨id, chunk, source.sourceKey, source.title⟩ := by
  unfold Store.passage?
  simp only [Bool.and_eq_true, decide_eq_true_eq, Option.ite_none_right_eq_some,
    Option.map_eq_some_iff, and_assoc, eq_comm (a := passage)]

/-- The rows a query ranks: chunks of the table that the principal may retrieve. -/
theorem mem_visible :
    passage ∈ store.visible principal workspaceId embeddingModel dimensions ↔
      store.chunks.find? passage.id = some passage.chunk ∧
      store.passage? principal workspaceId embeddingModel dimensions passage.id passage.chunk =
        some passage := by
  simp only [Store.visible, List.mem_filterMap, Prod.exists, Table.mem_entries]
  constructor
  · rintro ⟨id, chunk, present, shown⟩
    obtain ⟨_, _, _, _, _, rfl⟩ := passage?_eq_some.mp shown
    exact ⟨present, shown⟩
  · rintro ⟨present, shown⟩
    exact ⟨passage.id, passage.chunk, present, shown⟩

/-- No row is ranked twice. -/
theorem nodup_visible (store : Store) (principal : Principal) (workspaceId : Uuid)
    (embeddingModel : PyStr) (dimensions : Nat) :
    (store.visible principal workspaceId embeddingModel dimensions).Nodup := by
  have entries : store.chunks.entries.Nodup := by
    have keys := store.chunks.nodup_select fun _ _ => true
    simp only [Table.select, List.filter_true] at keys
    exact keys.of_map
  apply entries.filterMap
  intro first second passage firstShown secondShown
  obtain ⟨_, _, _, _, _, rfl⟩ := passage?_eq_some.mp firstShown
  obtain ⟨_, _, _, _, _, same⟩ := passage?_eq_some.mp secondShown
  simp only [Passage.mk.injEq] at same
  exact Prod.ext same.1 same.2.1

/-- A visible row is told apart by its place in its source. -/
theorem place_distinguishes (unique : store.ChunksUnique) :
    Distinguishes Passage.place
      (store.visible principal workspaceId embeddingModel dimensions) := by
  intro left leftVisible right rightVisible same
  obtain ⟨leftPresent, leftShown⟩ := mem_visible.mp leftVisible
  obtain ⟨rightPresent, rightShown⟩ := mem_visible.mp rightVisible
  have places : left.chunk.sourceId = right.chunk.sourceId ∧
      left.chunk.chunkIndex = right.chunk.chunkIndex := by
    simpa [Passage.place] using same
  have sameId : left.id = right.id :=
    unique _ _ _ _ leftPresent rightPresent places.1 places.2
  rw [sameId, rightPresent] at leftPresent
  have sameChunk : left.chunk = right.chunk := (Option.some.inj leftPresent).symm
  rw [sameId, sameChunk, rightShown] at leftShown
  exact (Option.some.inj leftShown).symm

end Rows

variable {arguments : RetrieveArguments}

/-- What a checked query keeps of the arguments it was made from. -/
theorem check_fields {query : Query} (checked : arguments.check = .ok query) :
    query.embeddingModel = arguments.embeddingModel ∧
      query.embedding = arguments.queryEmbedding ∧
      (query.efSearch = none ↔ arguments.annDimensions = none) := by
  simp only [RetrieveArguments.check, bind_eq_ok, raiseIf_eq_ok, pure_eq_ok] at checked
  obtain ⟨_, _, _, _, _, _, efSearch, ann, _, _, rfl⟩ := checked
  refine ⟨rfl, rfl, ?_⟩
  unfold RetrieveArguments.checkAnn at ann
  cases asked : arguments.annDimensions with
  | none =>
    simp only [asked, bind_eq_ok, raiseIf_eq_ok, pure_eq_ok] at ann
    obtain ⟨_, _, rfl⟩ := ann
    simp
  | some dimensions =>
    simp only [asked, bind_eq_ok, raiseIf_eq_ok, pure_eq_ok] at ann
    obtain ⟨_, _, _, _, _, _, rfl⟩ := ann
    simp

section Answers

variable {Distance Rank : Type} [LinearOrder Distance] [LinearOrder Rank]
  {engine : Engine Distance Rank} {query : Query} {rows others : List Passage}

omit [LinearOrder Rank] in
/-- Exact scanning: the vector pool is a function of the set of rows. -/
theorem vectorPool_congr (limit : Nat) (exact_ : query.efSearch = none)
    (distances : Distinguishes (vectorDistance engine query) rows) (same : rows.Perm others) :
    vectorPool engine query limit rows = vectorPool engine query limit others := by
  simp only [vectorPool, exact_]
  rw [orderBy_eq_of_perm distances same]

omit [LinearOrder Distance] in
/-- The lexical pool is a function of the set of rows. -/
theorem lexicalPool_congr (limit : Nat) (places : Distinguishes Passage.place rows)
    (same : rows.Perm others) :
    lexicalPool engine query limit rows = lexicalPool engine query limit others := by
  unfold lexicalPool byLexicalScore
  rw [orderBy_eq_of_perm _ (same.filter _)]
  intro left leftMember right rightMember sameKey
  have samePlace : left.place = right.place := by
    have := congrArg (fun key => (ofLex key).2) sameKey
    exact this
  exact places left (List.mem_filter.mp leftMember).1 right (List.mem_filter.mp rightMember).1
    samePlace

/-- The answer of an exact query is a function of the set of rows. -/
theorem answer_congr (exact_ : query.efSearch = none)
    (distances : Distinguishes (vectorDistance engine query) rows)
    (places : Distinguishes Passage.place rows) (same : rows.Perm others) :
    query.answer engine rows = query.answer engine others := by
  have vectors := fun limit => vectorPool_congr limit exact_ distances same
  have lexemes : ∀ limit, lexicalPool engine query limit rows =
      lexicalPool engine query limit others :=
    fun limit => lexicalPool_congr limit places same
  unfold Query.answer vectorOnly hybrid
  rw [vectors, vectors, lexemes]

/-- Two stores agree on the chunks a principal may retrieve with a query. -/
def AgreeOnVisible (left right : Store) (principal : Principal) (workspaceId : Uuid)
    (arguments : RetrieveArguments) : Prop :=
  ∀ passage,
    passage ∈ left.visible principal workspaceId arguments.embeddingModel
      arguments.queryEmbedding.length ↔
    passage ∈ right.visible principal workspaceId arguments.embeddingModel
      arguments.queryEmbedding.length

/-- The chunks a principal may retrieve are at distinct distances from a query. -/
def DistinctDistances (engine : Engine Distance Rank) (store : Store) (principal : Principal)
    (workspaceId : Uuid) (arguments : RetrieveArguments) : Prop :=
  Distinguishes
    (fun passage : Passage => engine.distance passage.chunk.embedding arguments.queryEmbedding)
    (store.visible principal workspaceId arguments.embeddingModel arguments.queryEmbedding.length)

/-- An exact retrieval answers the same on any two stores that agree on what the principal may
see; before the answer comes nothing but the check of the arguments and of the membership. -/
theorem retrieve_congr {left right : Store} {principal : Principal} {workspaceId : Uuid}
    (unique : left.ChunksUnique)
    (distances : DistinctDistances engine left principal workspaceId arguments)
    (agree : AgreeOnVisible left right principal workspaceId arguments)
    (exact_ : arguments.annDimensions = none) :
    ∃ answer : Query → List RetrievedChunk, ∀ store, store = left ∨ store = right →
      store.retrieve engine principal workspaceId arguments = (do
        let query ← arguments.check
        store.authorizeRetrieve principal workspaceId
        pure (answer query)) := by
  have same : (left.visible principal workspaceId arguments.embeddingModel
      arguments.queryEmbedding.length).Perm (right.visible principal workspaceId
        arguments.embeddingModel arguments.queryEmbedding.length) :=
    (List.perm_ext_iff_of_nodup (nodup_visible ..) (nodup_visible ..)).mpr agree
  refine ⟨fun query => query.answer engine (left.visible principal workspaceId
    arguments.embeddingModel arguments.queryEmbedding.length), ?_⟩
  intro store isOne
  unfold Store.retrieve
  cases checked : arguments.check with
  | error raised => rfl
  | ok query =>
    obtain ⟨model, embedding, scan⟩ := check_fields checked
    have noScan : query.efSearch = none := scan.mpr exact_
    have answers : query.answer engine (store.visible principal workspaceId
        query.embeddingModel query.embedding.length) =
        query.answer engine (left.visible principal workspaceId arguments.embeddingModel
          arguments.queryEmbedding.length) := by
      rw [model, embedding]
      rcases isOne with rfl | rfl
      · rfl
      · refine (answer_congr noScan ?_ (place_distinguishes unique) same).symm
        unfold vectorDistance
        rw [embedding]
        exact distances
    simp only [bind, Except.bind, Store.runQuery, noScan, answers]

end Answers

end Nexora.Knowledge
