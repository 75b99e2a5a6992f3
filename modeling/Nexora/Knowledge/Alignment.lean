import Nexora.Knowledge.Chunking
import Nexora.Knowledge.Resurrection

/-!
# Vectors beside their texts

The texts of a document's chunks go to the provider in batches, its answers are put in the order
of their indices, and the vectors are zipped with chunks that are cut a second time. Through all
of it each vector stays beside the text it was returned for.
-/

namespace Nexora.Knowledge

open Nexora.Std Nexora.Workspace

/-- `RagIndexResult`. -/
structure RagIndexResult where
  sourceId : Uuid
  chunkCount : Nat
  embeddingInputTokens : Nat

/-- `RagEmbeddingPipeline.index_source`: the caller is authorized in the store found first, the
rest is one transaction of the store found last. Of the arguments given, the pipeline overrides
what concerns the embedding. -/
def RagEmbeddingPipeline.indexSource (pipeline : RagEmbeddingPipeline) (sha256 : PyStr → Nat)
    (principal : Principal) (workspaceId : Uuid) (given : IndexArguments) (requestId : PyStr)
    (authorizedIn : Store) (budgetAllows : Bool) (replies : Nat → EmbeddingReply) (store : Store)
    (drawn : Drawn) : Except Raised (Store × RagIndexResult) := do
  ofRequest (scopedMember authorizedIn.memberships principal workspaceId .manageKnowledge)
  raiseIf (pipeline.spend.isSome = true ∧ budgetAllows = false) .spendLimitExceeded
  let chunks ← ofValue (chunkText sha256 given.text given.maxChars given.overlapChars)
  let embedded ← pipeline.embedTexts (requestId ++ py ":index") (chunks.map TextChunk.content)
    replies
  let indexed ← store.indexSource sha256 principal workspaceId
    { given with
      embeddingModel := pipeline.embeddingModel, embeddings := embedded.1
      embeddingInputTokens := some embedded.2, embeddingSpend := pipeline.spend } drawn
  pure (indexed.1, ⟨indexed.2.1, chunks.length, embedded.2⟩)

/-- The items of an answer. -/
def EmbeddingReply.data : EmbeddingReply → List (Int × Embedding)
  | .failed _ => []
  | .body _ data _ => data

/-- What an answer says it is charged for. -/
def EmbeddingReply.promptTokens : EmbeddingReply → Int
  | .failed _ => 0
  | .body _ _ promptTokens => promptTokens

/-- Each index below a count is the index of one item of an answer, and no other is. -/
def EmbeddingReply.Indexes (reply : EmbeddingReply) (count : Nat) : Prop :=
  (reply.data.map Prod.fst).Perm ((List.range count).map Nat.cast)

/-- The items indexed so far have indices of their own, all of them in range. -/
def FitsIn (expectedCount : Nat) (indexed : List (Int × Embedding)) : Prop :=
  (indexed.map Prod.fst).Nodup ∧ ∀ item ∈ indexed, 0 ≤ item.1 ∧ item.1 < expectedCount

/-- Items that were all indexed are kept as they came. -/
theorem FitsIn.fold {expectedCount dimensions : Nat} {data indexed folded : List (Int × Embedding)}
    (fits : FitsIn expectedCount indexed)
    (ok : data.foldlM (indexItem expectedCount dimensions) indexed = .ok folded) :
    folded = indexed ++ data ∧ FitsIn expectedCount folded := by
  induction data generalizing indexed with
  | nil =>
    rw [List.foldlM_nil, pure_eq_ok] at ok
    exact ⟨by rw [List.append_nil, ok], ok ▸ fits⟩
  | cons item rest ih =>
    simp only [List.foldlM_cons, indexItem, bind_eq_ok, raiseIf_eq_ok, pure_eq_ok,
      normalizeVector_eq_ok, not_or, not_not, Bool.not_eq_true, Option.isSome_eq_false_iff,
      Option.isNone_iff_eq_none, List.lookup_eq_none_iff, bne_iff_ne] at ok
    obtain ⟨_, ⟨_, ⟨fresh, range⟩, _, ⟨-, rfl⟩, rfl⟩, others⟩ := ok
    have next : FitsIn expectedCount (indexed ++ [item]) := by
      refine ⟨?_, fun other member => ?_⟩
      · rw [List.map_append, List.map_singleton, List.nodup_append_comm, List.singleton_append,
          List.nodup_cons]
        refine ⟨fun listed => ?_, fits.1⟩
        obtain ⟨other, member, same⟩ := List.mem_map.mp listed
        exact fresh other member same.symm
      · rcases List.mem_append.mp member with earlier | last
        · exact fits.2 other earlier
        · exact List.mem_singleton.mp last ▸ range
    rw [List.append_cons]
    exact ih next others

/-- An accepted answer has each index once, and its vectors stand in the order of the indices. -/
theorem parseResponse_indexes {reply : EmbeddingReply} {expectedCount dimensions : Nat}
    {expectedModel : PyStr} {batch : EmbeddingBatch}
    (parsed : parseResponse reply expectedCount expectedModel dimensions = .ok batch) :
    reply.Indexes expectedCount ∧ batch.vectors.length = expectedCount ∧
      (∀ (index : Nat) vector, batch.vectors[index]? = some vector →
        ((index : Int), vector) ∈ reply.data) ∧
      batch.inputTokens = reply.promptTokens := by
  cases reply with
  | failed raised => cases parsed
  | body model data promptTokens =>
    simp only [parseResponse, bind_eq_ok, raiseIf_eq_ok, pure_eq_ok, List.mem_range] at parsed
    obtain ⟨_, -, indexed, folded, _, complete, _, charged, rfl⟩ := parsed
    have empty : FitsIn expectedCount [] := ⟨List.nodup_nil, by simp⟩
    obtain ⟨same, distinct, inRange⟩ := empty.fold folded
    rw [List.nil_append] at same
    subst same
    push Not at complete charged
    have found : ∀ index < expectedCount, ∃ vector,
        indexed.lookup (index : Int) = some vector ∧ ((index : Int), vector) ∈ indexed := by
      intro index below
      obtain ⟨vector, there⟩ := Option.ne_none_iff_exists'.mp (complete index below)
      obtain ⟨before, after, rfl, -⟩ := List.lookup_eq_some_iff.mp there
      exact ⟨vector, there, by simp⟩
    have inOrder : (List.range expectedCount).filterMap (indexed.lookup <| Nat.cast ·) =
        (List.range expectedCount).map fun index => (indexed.lookup (Nat.cast index)).getD [] := by
      rw [List.filterMap_eq_map_iff_forall_eq_some]
      intro index below
      obtain ⟨vector, there, -⟩ := found index (List.mem_range.mp below)
      rw [there, Option.getD_some]
    simp only [List.bind_eq_flatMap, List.pure_def, ← List.map_eq_flatMap, List.filterMap_map,
      Function.comp_def, inOrder, List.length_map, List.length_range]
    refine ⟨(List.perm_ext_iff_of_nodup distinct
      (List.nodup_range.map Nat.cast_injective)).mpr fun index => ?_, trivial, ?_, ?_⟩
    · rw [List.mem_map, List.mem_map]
      constructor
      · rintro ⟨item, member, rfl⟩
        obtain ⟨low, high⟩ := inRange item member
        exact ⟨item.1.toNat, List.mem_range.mpr (by omega), Int.toNat_of_nonneg low⟩
      · rintro ⟨index, below, rfl⟩
        obtain ⟨vector, -, member⟩ := found index (List.mem_range.mp below)
        exact ⟨_, member, rfl⟩
    · intro index vector stands
      simp only [List.getElem?_map, Option.map_eq_some_iff, List.getElem?_eq_some_iff,
        List.getElem_range, List.length_range] at stands
      obtain ⟨_, ⟨below, rfl⟩, rfl⟩ := stands
      obtain ⟨vector, there, member⟩ := found _ below
      rw [there]
      exact member
    · exact Int.toNat_of_nonneg charged

variable {pipeline : RagEmbeddingPipeline} {requestId : PyStr} {replies : Nat → EmbeddingReply}
  {texts : List PyStr} {embedded : List Embedding × Nat} {sha256 : PyStr → Nat}
  {principal : Principal} {workspaceId sourceId : Uuid} {arguments given : IndexArguments}
  {authorizedIn store next stored : Store} {budgetAllows : Bool} {drawn : Drawn}
  {dimensions count : Nat} {chunkId : Nat → Uuid} {row : RagChunk} {chunks : List TextChunk}

/-- The first batch is a full one, unless the texts end in it. -/
theorem batches_eq_cons (some_ : texts ≠ []) :
    pipeline.batches texts =
      texts.take pipeline.batchSize :: pipeline.batches (texts.drop pipeline.batchSize) := by
  have size := pipeline.batchSize_range.1
  have length := List.length_pos_iff.mpr some_
  have count : (texts.length + pipeline.batchSize - 1) / pipeline.batchSize =
      (texts.length - pipeline.batchSize + pipeline.batchSize - 1) / pipeline.batchSize + 1 := by
    rw [show texts.length + pipeline.batchSize - 1 = texts.length - 1 + pipeline.batchSize by omega,
      Nat.add_div_right _ size]
    rcases Nat.le_total texts.length pipeline.batchSize with short | long
    · rw [Nat.div_eq_of_lt (by omega), Nat.div_eq_of_lt (by omega)]
    · rw [Nat.sub_add_cancel long]
  unfold RagEmbeddingPipeline.batches
  rw [List.length_drop, count, List.range_succ_eq_map, List.map_cons, List.map_map]
  simp only [Nat.zero_mul, List.drop_zero, Function.comp_def, List.drop_drop, Nat.succ_mul,
    Nat.add_comm]

theorem batches_nil (pipeline : RagEmbeddingPipeline) : pipeline.batches [] = [] := by
  have size := pipeline.batchSize_range.1
  have none : (([] : List PyStr).length + pipeline.batchSize - 1) / pipeline.batchSize = 0 :=
    Nat.div_eq_of_lt (by rw [List.length_nil]; omega)
  rw [RagEmbeddingPipeline.batches, none, List.range_zero, List.map_nil]

/-- Texts and the vectors and tokens that came back for them. -/
structure Aligned (pipeline : RagEmbeddingPipeline) (replies : Nat → EmbeddingReply)
    (texts : List PyStr) (embedded : List Embedding × Nat) : Prop where
  /-- Each text is sent once, in order. -/
  sent : (pipeline.batches texts).flatten = texts
  indexes : ∀ batchNo batch, (pipeline.batches texts)[batchNo]? = some batch →
    (replies batchNo).Indexes batch.length
  counted : embedded.1.length = texts.length
  /-- The vector of a text is the item of the answer to its batch whose index is the place of
  the text in the batch. -/
  returned : ∀ index text, texts[index]? = some text → ∃ batchNo place batch vector,
    index = batchNo * pipeline.batchSize + place ∧
    (pipeline.batches texts)[batchNo]? = some batch ∧ batch[place]? = some text ∧
    ((place : Int), vector) ∈ (replies batchNo).data ∧ embedded.1[index]? = some vector
  charged : (embedded.2 : Int) =
    ((List.range (pipeline.batches texts).length).map fun batchNo =>
      (replies batchNo).promptTokens).sum

theorem Aligned.nil (pipeline : RagEmbeddingPipeline) (replies : Nat → EmbeddingReply) :
    Aligned pipeline replies [] ([], 0) := by
  constructor <;> simp [batches_nil]

/-- One batch more, before the others. -/
theorem Aligned.cons {batchNo : Nat} {result : EmbeddingBatch} {others : List Embedding × Nat}
    (some_ : texts ≠ [])
    (parsed : parseResponse (replies batchNo) (texts.take pipeline.batchSize).length
      pipeline.embeddingModel pipeline.dimensions = .ok result)
    (aligned : Aligned pipeline (fun later => replies (batchNo + 1 + later))
      (texts.drop pipeline.batchSize) others) :
    Aligned pipeline (fun later => replies (batchNo + later)) texts
      (result.vectors ++ others.1, result.inputTokens + others.2) := by
  obtain ⟨indexes, counted, returned, charged⟩ := parseResponse_indexes parsed
  have split : pipeline.batches texts = _ := batches_eq_cons some_
  constructor
  case sent => rw [split, List.flatten_cons, aligned.sent, List.take_append_drop]
  case indexes =>
    rintro (_ | later) batch found
    · rw [split, List.getElem?_cons_zero] at found
      cases found
      exact indexes
    · rw [split, List.getElem?_cons_succ] at found
      have := aligned.indexes later batch found
      rwa [Nat.add_right_comm] at this
  case counted =>
    rw [List.length_append, counted, aligned.counted, ← List.length_append, List.take_append_drop]
  case charged =>
    rw [split, List.length_cons, List.range_succ_eq_map, List.map_cons, List.sum_cons, List.map_map]
    push_cast
    rw [charged, aligned.charged]
    simp only [Function.comp_def, Nat.succ_eq_add_one, Nat.add_zero, Nat.add_assoc, Nat.add_comm 1]
  case returned =>
    intro index text found
    rcases Nat.lt_or_ge index pipeline.batchSize with first | further
    · have here : (texts.take pipeline.batchSize)[index]? = some text := by
        rw [List.getElem?_take_of_lt first, found]
      have below := (List.getElem?_eq_some_iff.mp here).1
      rw [← counted] at below
      refine ⟨0, index, _, result.vectors[index], by omega, split ▸ rfl, here,
        returned _ _ (List.getElem?_eq_getElem below), ?_⟩
      rw [List.getElem?_append_left below, List.getElem?_eq_getElem below]
    · have inside := (List.getElem?_eq_some_iff.mp found).1
      have full : result.vectors.length = pipeline.batchSize := by
        rw [counted, List.length_take]
        omega
      obtain ⟨later, place, batch, vector, same, there, placed, item, stands⟩ :=
        aligned.returned (index - pipeline.batchSize) text (by
          rw [List.getElem?_drop, Nat.add_sub_cancel' further, found])
      refine ⟨later + 1, place, batch, vector, ?_, split ▸ there, placed, ?_, ?_⟩
      · rw [Nat.succ_mul]
        omega
      · rwa [Nat.add_right_comm] at item
      · rwa [List.getElem?_append_right (full ▸ further), full]

theorem aligned_of_embedBatches {batchNo : Nat}
    (ok : pipeline.embedBatches requestId replies batchNo (pipeline.batches texts) =
      .ok embedded) :
    Aligned pipeline (fun later => replies (batchNo + later)) texts embedded := by
  induction length : texts.length using Nat.strong_induction_on
    generalizing texts batchNo embedded with
  | h count ih =>
    by_cases none : texts = []
    · subst none
      rw [batches_nil, RagEmbeddingPipeline.embedBatches, pure_eq_ok] at ok
      exact ok ▸ .nil pipeline _
    · have size := pipeline.batchSize_range.1
      have some_ := List.length_pos_iff.mpr none
      simp only [batches_eq_cons none, RagEmbeddingPipeline.embedBatches,
        RagEmbeddingPipeline.embed, bind_eq_ok, raiseIf_eq_ok, pure_eq_ok] at ok
      obtain ⟨result, ⟨_, -, parsed⟩, _, -, others, rest, rfl⟩ := ok
      exact .cons none parsed (ih _ (by rw [List.length_drop]; omega) rest rfl)

theorem aligned_of_embedTexts (ok : pipeline.embedTexts requestId texts replies = .ok embedded) :
    Aligned pipeline replies texts embedded := by
  simp only [RagEmbeddingPipeline.embedTexts, bind_eq_ok, raiseIf_eq_ok, pure_eq_ok] at ok
  obtain ⟨_, answered, _, -, rfl⟩ := ok
  simpa only [Nat.zero_add] using aligned_of_embedBatches answered

/-- A fold of insertions adds the rows it inserts, and keeps the others. -/
theorem exists_row_insertChunks {parts : List (TextChunk × Embedding)}
    (ok : parts.foldlM (fun current part => current.insertChunk (chunkId part.1.chunkIndex)
      (Store.chunkRow workspaceId sourceId arguments dimensions part.1 part.2)) store = .ok next) :
    (∃ id, next.chunks.find? id = some row) ↔ (∃ id, store.chunks.find? id = some row) ∨
      ∃ part ∈ parts, row =
        Store.chunkRow workspaceId sourceId arguments dimensions part.1 part.2 := by
  induction parts generalizing store with
  | nil =>
    rw [List.foldlM_nil, pure_eq_ok] at ok
    simp [ok]
  | cons part rest ih =>
    rw [List.foldlM_cons, bind_eq_ok] at ok
    obtain ⟨between, added, others⟩ := ok
    obtain ⟨-, free, rfl⟩ := insertChunk_ok added
    simp only [ih others, List.mem_cons, exists_eq_or_imp, ← or_assoc]
    refine or_congr_left ⟨?_, ?_⟩
    · rintro ⟨id, found⟩
      simp only [Table.find?_put_eq] at found
      split at found
      · exact .inr (Option.some.inj found).symm
      · exact .inl ⟨id, found⟩
    · rintro (⟨id, found⟩ | rfl)
      · refine ⟨id, ?_⟩
        have other : id ≠ chunkId part.1.chunkIndex := by
          rintro rfl
          rw [free] at found
          cases found
        rwa [Table.find?_put_ne _ _ other]
      · exact ⟨_, Table.find?_put ..⟩

/-- A chunk of a source is stored with a content and a vector. -/
def Stored (store : Store) (workspaceId sourceId : Uuid) (index : Nat) (content : PyStr)
    (vector : Embedding) : Prop :=
  ∃ row, (∃ id, store.chunks.find? id = some row) ∧ row.workspaceId = workspaceId ∧
    row.sourceId = sourceId ∧ row.chunkIndex = index ∧ row.content = content ∧
    row.embedding = vector

/-- The chunks stored of an indexed source are those of its text, each with the vector at its
place. -/
theorem stored_of_indexSource
    (ok : store.indexSource sha256 principal workspaceId arguments drawn =
      .ok (stored, sourceId, count))
    (cut : chunkText sha256 arguments.text arguments.maxChars arguments.overlapChars = .ok chunks)
    (index : Nat) (content : PyStr) (vector : Embedding) :
    Stored stored workspaceId sourceId index content vector ↔
      (chunks.map TextChunk.content)[index]? = some content ∧
        arguments.embeddings[index]? = some vector := by
  simp only [Store.indexSource, bind_eq_ok, pure_eq_ok] at ok
  obtain ⟨prepared, valid, _, -, _, -, written, -, listed, -, filled, chunksOk, completed, jobOk,
    same⟩ := ok
  cases same
  obtain ⟨normalized, normal, again, counted⟩ := prepare_chunks valid
  obtain ⟨bounds, overlap⟩ := chunkText_ok cut
  obtain ⟨_, isCut, chunksOf, -, isCutAgain, -⟩ :=
    @chunkText_lossless sha256 _ _ _ _ bounds overlap normal
  cases cut.symm.trans isCut
  cases again.symm.trans isCutAgain
  have sameChunks : completed.chunks = filled.chunks := by
    unfold Store.completeJob at jobOk
    split at jobOk
    · simp only [bind_eq_ok, Store.updateJob_eq_ok] at jobOk
      obtain ⟨_, -, _, rfl⟩ := jobOk
      rfl
    · cases jobOk
      rfl
  obtain ⟨ledger, isCharged, -⟩ := chargeIndex_ledger completed workspaceId written.2 arguments
  have numbered : ∀ (place : Nat) (part : TextChunk), prepared.chunks[place]? = some part →
      part.chunkIndex = place := by
    intro place part found
    have same := congrArg (fun numbers : List Nat => numbers[place]?) chunksOf.numbered
    simp only [List.getElem?_map, found, Option.map_some,
      List.getElem?_range (List.getElem?_eq_some_iff.mp found).1, Option.some.injEq] at same
    exact same
  simp only [isCharged, Stored, sameChunks, exists_row_insertChunks chunksOk,
    Table.find?_deleteWhere_eq_some, List.getElem?_map, Option.map_eq_some_iff]
  constructor
  · rintro ⟨row, ⟨id, -, other⟩ | ⟨part, member, rfl⟩, ofWorkspace, ofSource, rfl, rfl, rfl⟩
    · simp [ofWorkspace, ofSource] at other
    · obtain ⟨place, found⟩ := List.mem_iff_getElem?.mp member
      obtain ⟨chunk, embedding⟩ := List.getElem?_zip_eq_some.mp found
      cases numbered place _ chunk
      exact ⟨⟨_, chunk, rfl⟩, embedding⟩
  · rintro ⟨⟨part, chunk, rfl⟩, embedding⟩
    refine ⟨_, .inr ⟨(part, vector), List.mem_of_getElem? (List.getElem?_zip_eq_some.mpr
      ⟨chunk, embedding⟩), rfl⟩, rfl, rfl, numbered index part chunk, rfl, rfl⟩

/-- A source as it is stored when its text has been embedded: its chunks, each with the vector
that came back for it. -/
structure IndexedAs (pipeline : RagEmbeddingPipeline) (sha256 : PyStr → Nat)
    (replies : Nat → EmbeddingReply) (workspaceId : Uuid) (given : IndexArguments)
    (chunks : List TextChunk) (stored : Store) (result : RagIndexResult) : Prop where
  cut : chunkText sha256 given.text given.maxChars given.overlapChars = .ok chunks
  count : result.chunkCount = chunks.length
  rows : ∃ vectors, Aligned pipeline replies (chunks.map TextChunk.content)
      (vectors, result.embeddingInputTokens) ∧
    ∀ index content vector, Stored stored workspaceId result.sourceId index content vector ↔
      (chunks.map TextChunk.content)[index]? = some content ∧ vectors[index]? = some vector

/-- The vector stored for a chunk is the one the provider returned for its text, whatever the
size of the batches and the order of the items: each text is sent once, and the tokens are
those of all batches. An answer without each index of its batch once is refused, and nothing
is stored. -/
theorem embeddings_aligned :
    (∀ texts embedded, pipeline.embedTexts requestId texts replies = .ok embedded →
      Aligned pipeline replies texts embedded) ∧
    (∀ stored result, pipeline.indexSource sha256 principal workspaceId given requestId
        authorizedIn budgetAllows replies store drawn = .ok (stored, result) →
      ∃ chunks, IndexedAs pipeline sha256 replies workspaceId given chunks stored result) ∧
    ∀ chunks batchNo batch,
      chunkText sha256 given.text given.maxChars given.overlapChars = .ok chunks →
      (pipeline.batches (chunks.map TextChunk.content))[batchNo]? = some batch →
      ¬ (replies batchNo).Indexes batch.length →
      ∃ raised, pipeline.indexSource sha256 principal workspaceId given requestId authorizedIn
        budgetAllows replies store drawn = .error raised := by
  have indexes : ∀ stored result, pipeline.indexSource sha256 principal workspaceId given
      requestId authorizedIn budgetAllows replies store drawn = .ok (stored, result) →
      ∃ chunks, IndexedAs pipeline sha256 replies workspaceId given chunks stored result := by
    intro stored result ok
    simp only [RagEmbeddingPipeline.indexSource, bind_eq_ok, ofValue_eq_ok, pure_eq_ok] at ok
    obtain ⟨_, -, _, -, chunks, cut, embedded, answered, indexed, ok, same⟩ := ok
    cases same
    exact ⟨chunks, cut, rfl, _, aligned_of_embedTexts answered, stored_of_indexSource ok cut⟩
  refine ⟨fun texts embedded => aligned_of_embedTexts, indexes, ?_⟩
  intro chunks batchNo batch cut found misses
  cases ok : pipeline.indexSource sha256 principal workspaceId given requestId authorizedIn
    budgetAllows replies store drawn with
  | error raised => exact ⟨raised, rfl⟩
  | ok stored =>
    obtain ⟨_, again, -, _, aligned, -⟩ := indexes _ _ ok
    cases cut.symm.trans again
    exact absurd (aligned.indexes batchNo batch found) misses

/-- A text of two chunks is indexed in two batches. -/
def exampleIndexed : Except Raised (Store × RagIndexResult) :=
  exampleDeployment.pipeline.indexSource List.length exampleOwner 1
    ⟨py "k", py "1", py "t", List.replicate 300 0x61, [], [], .workspace, [], .object [], 200, 0,
      none, none, none, none⟩ (py "r") exampleOpening.store true
    (fun batchNo => .body (py "m") [(0, unitVector 1)] batchNo) exampleOpening.store
    ⟨5, fun index => 6 + index, 0, 0⟩

/-- `embeddings_aligned` applies to that text. -/
theorem embeddings_aligned_batches : ∃ given chunks replies stored result,
    IndexedAs exampleDeployment.pipeline List.length replies 1 given chunks stored result ∧
      chunks.length = 2 := by
  have counted : exampleIndexed.toOption.any (fun indexed => indexed.2.chunkCount = 2) = true := by
    decide +kernel
  cases ok : exampleIndexed with
  | error raised =>
    rw [ok] at counted
    cases counted
  | ok indexed =>
    rw [ok] at counted
    obtain ⟨chunks, stands⟩ := embeddings_aligned.2.1 indexed.1 indexed.2 ok
    exact ⟨_, chunks, _, _, _, stands, stands.count.symm.trans (of_decide_eq_true counted)⟩

end Nexora.Knowledge
