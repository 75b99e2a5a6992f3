import Nexora.Knowledge.Pipeline
import Nexora.Knowledge.Visibility

/-!
# Run inputs as queries

The bounds a configuration and a provider's answer are held to cover every check the
repository makes of a query, except the one of the query's text: a run accepts longer inputs
than a hybrid query.
-/

namespace Nexora.Knowledge

open Nexora.Std Nexora.Workspace

variable {text : PyStr} {dimensions : Nat} {vector : Embedding}

/-- A text that is not blank keeps something when it is stripped. -/
theorem strip_ne_nil (point : Fin 0x110000) (member : point ∈ text)
    (visible : isSpace point = false) : strip text ≠ [] := by
  intro blank
  unfold strip trim at blank
  rw [List.rdropWhile_eq_nil_iff] at blank
  have started : (text.dropWhile isSpace) ≠ [] := by
    intro nothing
    have spaces := List.dropWhile_eq_nil_iff.mp nothing point member
    rw [visible] at spaces
    cases spaces
  have first := List.head_dropWhile_not isSpace started
  have space := blank _ (List.head_mem started)
  rw [first] at space
  cases space

/-- What the adapter guarantees of every vector it returns. -/
def Normalized (dimensions : Nat) (vector : Embedding) : Prop :=
  vector.length = dimensions ∧ vector.all isFinite = true ∧ vector.any isNonzero = true

theorem one_lowest : 1 % 2 = 1 ∨ 1 = 0 ∧ (0 : Int) = 0 := .inl rfl

theorem one_range : 1 < 2 ^ 53 ∧ (-1074 : Int) ≤ 0 ∧ (0 : Int) < 1024 := by decide

/-- A vector of one number in every dimension. -/
def unitVector (dimensions : Nat) : Embedding :=
  List.replicate dimensions (.finite ⟨false, 1, 0, one_lowest, one_range⟩)

theorem unitVector_normalized (some_ : 1 ≤ dimensions) :
    Normalized dimensions (unitVector dimensions) := by
  refine ⟨by simp [unitVector], ?_, ?_⟩
  · simp [unitVector, isFinite]
  · simp only [unitVector, List.any_replicate]
    have : dimensions ≠ 0 := by omega
    simp [this, isNonzero]

theorem normalizeVector_eq_ok {values : Embedding} :
    normalizeVector values dimensions = .ok vector ↔
      Normalized dimensions values ∧ values = vector := by
  simp only [normalizeVector, bind_eq_ok, raiseIf_eq_ok, pure_eq_ok, Normalized, not_not,
    Bool.not_eq_false, exists_and_left, exists_const, and_assoc, ne_eq]

/-- Every vector of an accepted response is normalized. -/
theorem parseResponse_ok {reply : EmbeddingReply} {expectedCount : Nat} {expectedModel : PyStr}
    {batch : EmbeddingBatch}
    (parsed : parseResponse reply expectedCount expectedModel dimensions = .ok batch) :
    ∀ vector ∈ batch.vectors, Normalized dimensions vector := by
  cases reply with
  | failed raised => cases parsed
  | body model data promptTokens =>
    simp only [parseResponse, bind_eq_ok, raiseIf_eq_ok, pure_eq_ok] at parsed
    obtain ⟨_, _, indexed, folded, _, _, _, _, rfl⟩ := parsed
    have all : ∀ entry ∈ indexed, Normalized dimensions entry.2 := by
      refine foldlM_invariant (fun listed => ∀ entry ∈ listed, Normalized dimensions entry.2)
        ?_ (by simp) folded
      intro listed item _ next holds added entry member
      simp only [indexItem, bind_eq_ok, raiseIf_eq_ok, pure_eq_ok, normalizeVector_eq_ok] at added
      obtain ⟨_, _, _, ⟨normal, rfl⟩, rfl⟩ := added
      rcases List.mem_append.mp member with earlier | last
      · exact holds entry earlier
      · rw [List.mem_singleton.mp last]
        exact normal
    intro vector member
    obtain ⟨index, _, found⟩ := List.mem_filterMap.mp member
    obtain ⟨before, after, same, _⟩ := List.lookup_eq_some_iff.mp found
    exact all ((index : Int), vector) (by simp [same])

section Pipeline

variable {pipeline : RagEmbeddingPipeline} {requestId : PyStr} {replies : Nat → EmbeddingReply}
  {embedded : List Embedding × Nat}

/-- A text embedded by itself is one batch. -/
theorem batches_single (pipeline : RagEmbeddingPipeline) (text : PyStr) :
    pipeline.batches [text] = [[text]] := by
  have size := pipeline.batchSize_range.1
  have one : ([text].length + pipeline.batchSize - 1) / pipeline.batchSize = 1 := by
    have : [text].length + pipeline.batchSize - 1 = pipeline.batchSize := by simp
    rw [this]
    exact Nat.div_self size
  unfold RagEmbeddingPipeline.batches
  rw [one]
  have taken : [text].take pipeline.batchSize = [text] := by
    apply List.take_of_length_le
    simpa using size
  simp [taken]

/-- Embedding one text is one call of the adapter. -/
theorem embedTexts_single_eq_ok :
    pipeline.embedTexts requestId [text] replies = .ok embedded ↔
      ∃ result, pipeline.embed (requestId ++ py ":" ++ digits 0) [text] (replies 0) = .ok result ∧
        result.model = pipeline.embeddingModel ∧ result.dimensions = pipeline.dimensions ∧
        result.vectors.length = 1 ∧ embedded = (result.vectors, result.inputTokens) := by
  unfold RagEmbeddingPipeline.embedTexts
  rw [batches_single]
  simp only [RagEmbeddingPipeline.embedBatches, bind_eq_ok, raiseIf_eq_ok, pure_eq_ok]
  constructor
  · rintro ⟨_, ⟨result, answered, _, compatible, _, rfl, rfl⟩, _, counted, rfl⟩
    simp only [ne_eq, not_or, not_not, List.append_nil, List.length_singleton] at compatible counted
    exact ⟨result, answered, compatible.1, compatible.2, counted, by simp⟩
  · rintro ⟨result, answered, model, dimensions, counted, rfl⟩
    refine ⟨_, ⟨result, answered, ⟨⟩, by simp [model, dimensions], _, rfl, rfl⟩, ⟨⟩, ?_, ?_⟩
    · simp [counted]
    · simp

/-- A text that was embedded is neither blank nor longer than the adapter admits, and its
vector is normalized. -/
theorem embedTexts_single_ok (ok : pipeline.embedTexts requestId [text] replies = .ok embedded) :
    strip text ≠ [] ∧ text.length ≤ 12000 ∧
      ∀ vector ∈ embedded.1, Normalized pipeline.dimensions vector := by
  obtain ⟨result, answered, _, _, _, rfl⟩ := embedTexts_single_eq_ok.mp ok
  simp only [RagEmbeddingPipeline.embed, bind_eq_ok] at answered
  obtain ⟨_, valid, parsed⟩ := answered
  simp only [RagEmbeddingPipeline.validateRequest, bind_eq_ok, raiseIf_eq_ok] at valid
  obtain ⟨_, _, _, _, _, _, _, _, inputs⟩ := valid
  simp only [List.any_cons, List.any_nil, Bool.or_false, Bool.or_eq_true, decide_eq_true_eq,
    not_or, not_lt] at inputs
  exact ⟨inputs.1, inputs.2, parseResponse_ok parsed⟩

end Pipeline

variable {config : RetrievalConfig} {sha256 : PyStr → Nat} {inputText : PyStr} {store : Store}

/-- What was checked of a retrieval before the repository is queried. -/
theorem payRunQuery_ok {principal : Principal} {workspaceId runId : Uuid} {course : Course}
    {paid : PaidQuery}
    (ok : (buildRetriever config).payRunQuery sha256 principal workspaceId runId inputText
      course = .ok paid) :
    inputText.length ≤ 12000 ∧
      (buildRetriever config).authorizeAnnIndex course.indexVerifiedIn sha256 = .ok () ∧
      ∃ vector, Normalized config.dimensions vector ∧
        paid.arguments = (buildRetriever config).arguments inputText vector none := by
  simp only [RagEmbeddingPipeline.payRunQuery, RagEmbeddingPipeline.payQuery, bind_eq_ok,
    pure_eq_ok, orRaise_eq_ok] at ok
  obtain ⟨_, _, _, indexed, _, _, embedded, answered, vector, first, rfl⟩ := ok
  obtain ⟨_, short, normalized⟩ := embedTexts_single_ok answered
  exact ⟨short, indexed, vector, normalized vector (List.mem_of_head? first), rfl⟩

/-- A vector that is normalized for the configured dimensions can be written. -/
theorem checkVector_ok (normalized : Normalized dimensions vector)
    (range : 1 ≤ dimensions ∧ dimensions ≤ 4096) :
    checkVector vector = .ok () := by
  obtain ⟨length, finite, nonzero⟩ := normalized
  simp [checkVector, length, finite, nonzero, range]

/-- An index scan can be configured for a model whose name Python does not read as blank. -/
def Indexable (config : RetrievalConfig) : Prop :=
  config.ann = none ∨ strip config.model ≠ []

/-- A model with an index scan whose index was verified has a name that is not blank. -/
theorem indexable_of_indexed
    (indexed : (buildRetriever config).authorizeAnnIndex store sha256 = .ok ()) :
    Indexable config := by
  cases configured : config.ann with
  | none => exact .inl configured
  | some efSearch =>
    simp only [RagEmbeddingPipeline.authorizeAnnIndex, buildRetriever, configured,
      Option.isSome_some, if_true, Store.verifyHnswIndex, validateAnnTarget, bind_eq_ok,
      raiseIf_eq_ok] at indexed
    obtain ⟨_, ⟨_, named, _⟩, _⟩ := indexed
    right
    intro blank
    simp [blank] at named

/-- The arguments a configured pipeline passes on are checked against nothing but the length of
a hybrid query's text. -/
theorem check_of_paid (normalized : Normalized config.dimensions vector)
    (indexed : (buildRetriever config).authorizeAnnIndex store sha256 = .ok ()) :
    (∃ query, ((buildRetriever config).arguments inputText vector none).check = .ok query) ↔
      config.strategy = .vector ∨ (strip inputText).length ≤ hybridQueryMaxChars := by
  have ann : ∃ efSearch, ((buildRetriever config).arguments inputText vector none).checkAnn =
      .ok efSearch := by
    unfold RetrieveArguments.checkAnn RagEmbeddingPipeline.arguments
    cases configured : config.ann with
    | none =>
      refine ⟨none, ?_⟩
      simp [buildRetriever, configured]
      rfl
    | some efSearch =>
      have range := (config.ann_range efSearch configured).1
      simp only [RagEmbeddingPipeline.authorizeAnnIndex, buildRetriever, configured,
        Option.isSome_some, if_true, Store.verifyHnswIndex, bind_eq_ok] at indexed
      obtain ⟨model, valid, _⟩ := indexed
      refine ⟨some efSearch, ?_⟩
      simp [buildRetriever, configured, valid, normalized.1, range, hnswMaxEfSearch]
      rfl
  obtain ⟨efSearch, scanned⟩ := ann
  have vectorOk := checkVector_ok normalized config.dimensions_range
  have limit := config.limit_range
  have model := config.model_length
  have text : ((buildRetriever config).arguments inputText vector none).lexicalQuery =
      if config.strategy = .hybrid then strip inputText else [] := by
    unfold RetrieveArguments.lexicalQuery RagEmbeddingPipeline.arguments
    cases strategy : config.strategy <;> simp [buildRetriever, strategy]
  simp only [RetrieveArguments.check, bind_eq_ok, raiseIf_eq_ok, pure_eq_ok, scanned, text]
  simp only [RagEmbeddingPipeline.arguments, buildRetriever, Option.getD_none, vectorOk, limit,
    model]
  cases strategy : config.strategy with
  | vector => simp; omega
  | hybrid => simp [hybridQueryMaxChars]; omega

/-- A store in which a principal owns a workspace and the index a configuration asks for is
there. -/
def preparedStore (config : RetrievalConfig) (sha256 : PyStr → Nat) (principal : Principal)
    (workspaceId : Uuid) : Store :=
  { Store.empty with
    memberships := Table.empty.put (workspaceId, principal) .owner
    hnswIndexes := Table.empty.put
      (hnswIndexName sha256 (strip config.model) config.dimensions)
      ⟨"hnsw", true, true,
        py "vector(" ++ digits config.dimensions ++ py ")" ++ py "vector_cosine_ops"⟩ }

/-- A course on which nothing goes wrong. -/
def preparedCourse (config : RetrievalConfig) (sha256 : PyStr → Nat) (principal : Principal)
    (workspaceId : Uuid) : Course where
  authorizedIn := preparedStore config sha256 principal workspaceId
  indexVerifiedIn := preparedStore config sha256 principal workspaceId
  budgetAllows := true
  replies := fun _ => .body config.model [(0, unitVector config.dimensions)] 0
  retrievedIn := preparedStore config sha256 principal workspaceId

theorem preparedStore_indexed (sha256 : PyStr → Nat) (principal : Principal) (workspaceId : Uuid)
    (indexable : Indexable config) :
    (buildRetriever config).authorizeAnnIndex (preparedStore config sha256 principal workspaceId)
      sha256 = .ok () := by
  unfold RagEmbeddingPipeline.authorizeAnnIndex
  cases configured : config.ann with
  | none => simp [buildRetriever, configured, pure, Except.pure]
  | some efSearch =>
    have dimensions := (config.ann_range efSearch configured).2
    have named : strip config.model ≠ [] := by
      rcases indexable with absent | named
      · rw [absent] at configured
        cases configured
      · exact named
    have positive : 1 ≤ (strip config.model).length := List.length_pos_iff.mpr named
    have short : (strip config.model).length ≤ 128 :=
      (length_trim_le _ _).trans config.model_length.2
    have valid : validateAnnTarget config.model config.dimensions = .ok (strip config.model) := by
      simp only [validateAnnTarget, bind_eq_ok, raiseIf_eq_ok, pure_eq_ok]
      have range := config.dimensions_range
      exact ⟨⟨⟩, by simp [positive, short], ⟨⟩, by simp [maxHnswVectorDimensions]; omega, trivial⟩
    simp only [buildRetriever, configured, Option.isSome_some, if_true, Store.verifyHnswIndex,
      bind_eq_ok, raiseIf_eq_ok, orRaise_eq_ok, valid, preparedStore]
    refine ⟨_, rfl, _, Table.find?_put .., ⟨⟩, by simp, ?_⟩
    simp only [not_not]
    exact ⟨(List.prefix_append _ _).isInfix, (List.suffix_append _ _).isInfix⟩

/-- The adapter embeds a text it admits, when the provider answers with a unit vector. -/
theorem embedTexts_prepared (config : RetrievalConfig) (requestId : PyStr)
    (visible : strip text ≠ []) (short : text.length ≤ 12000)
    (identified : (0x77 : Fin 0x110000) ∈ requestId) :
    (buildRetriever config).embedTexts requestId [text]
      (fun _ => .body config.model [(0, unitVector config.dimensions)] 0) =
        .ok ([unitVector config.dimensions], 0) := by
  have normal := unitVector_normalized config.dimensions_range.1
  have named : strip (requestId ++ (py ":" ++ digits 0)) ≠ [] :=
    strip_ne_nil 0x77 (by simp [identified]) (by decide)
  have valid : (buildRetriever config).validateRequest (requestId ++ py ":" ++ digits 0) [text]
      config.model config.dimensions = .ok () := by
    have long : ¬ 12000 < text.length := by omega
    simp [RagEmbeddingPipeline.validateRequest, buildRetriever, named, visible, long]
  have parsed : parseResponse (.body config.model [(0, unitVector config.dimensions)] 0) 1
      config.model config.dimensions =
        .ok ⟨[unitVector config.dimensions], config.model, config.dimensions, 0⟩ := by
    have kept := normalizeVector_eq_ok.mpr ⟨normal, rfl⟩
    simp [parseResponse, indexItem, kept, List.lookup]
    rfl
  refine embedTexts_single_eq_ok.mpr
    ⟨⟨[unitVector config.dimensions], config.model, config.dimensions, 0⟩, ?_, rfl, rfl, rfl, rfl⟩
  rw [RagEmbeddingPipeline.embed, bind_eq_ok]
  exact ⟨(), valid, parsed⟩

/-- Every text the adapter admits may reach the repository, after it has been paid for. -/
theorem exists_paid (config : RetrievalConfig) (sha256 : PyStr → Nat)
    (visible : strip inputText ≠ []) (short : inputText.length ≤ 12000)
    (indexable : Indexable config) :
    ∃ principal workspaceId runId course paid, (buildRetriever config).payRunQuery sha256
      principal workspaceId runId inputText course = .ok paid := by
  refine ⟨⟨"", ""⟩, 0, 0, preparedCourse config sha256 ⟨"", ""⟩ 0, ?_⟩
  have member : (preparedStore config sha256 ⟨"", ""⟩ 0).authorizeRetrieve ⟨"", ""⟩ 0 =
      .ok () := by
    simp [Store.authorizeRetrieve, preparedStore, grants]
  have indexed := preparedStore_indexed sha256 ⟨"", ""⟩ 0 indexable
  have allowed : (buildRetriever config).authorizeSpend (some (.runRetrieval 0)) true = .ok () := by
    unfold RagEmbeddingPipeline.authorizeSpend
    cases (buildRetriever config).spend <;> rfl
  have embedded := embedTexts_prepared config
    (py "worker-retrieval:" ++ py (Uuid.text 0) ++ py ":query") visible short
    (by simp only [List.mem_append]; exact .inl (.inl (by decide)))
  simp only [RagEmbeddingPipeline.payRunQuery, RagEmbeddingPipeline.payQuery, preparedCourse,
    bind_eq_ok, pure_eq_ok, orRaise_eq_ok]
  exact ⟨_, (), member, (), indexed, (), allowed, _, embedded, _, rfl, rfl⟩

/-- Whatever the retrieval for a run meets: once its query has been paid for, its arguments pass
the checks of the repository. -/
def QueryAccepted (config : RetrievalConfig) (sha256 : PyStr → Nat) (inputText : PyStr) : Prop :=
  ∀ principal workspaceId runId course paid,
    (buildRetriever config).payRunQuery sha256 principal workspaceId runId inputText course =
      .ok paid → ∃ query, paid.arguments.check = .ok query

/-- A run input, as any text, is accepted as a query exactly when the strategy ranks vectors
only, or the text is short enough for the lexical query, or it is not embedded at all: because
it is too long for that, or because no index can exist for the configured model. -/
theorem run_input_accepted_iff (config : RetrievalConfig) (sha256 : PyStr → Nat)
    (inputText : PyStr) :
    QueryAccepted config sha256 inputText ↔
      config.strategy = .vector ∨ (strip inputText).length ≤ 4096 ∨ 12000 < inputText.length ∨
        ¬ Indexable config := by
  constructor
  · intro passes
    by_contra refused
    simp only [not_or, not_le, not_lt, not_not] at refused
    obtain ⟨hybrid, long, short, indexable⟩ := refused
    have visible : strip inputText ≠ [] := by
      intro blank
      rw [blank] at long
      simp at long
    obtain ⟨principal, workspaceId, runId, course, paid, ok⟩ :=
      exists_paid config sha256 visible short indexable
    obtain ⟨_, indexed, vector, normalized, same⟩ := payRunQuery_ok ok
    have checked := passes principal workspaceId runId course paid ok
    rw [same, check_of_paid normalized indexed] at checked
    rcases checked with vectorOnly | fits
    · exact hybrid vectorOnly
    · unfold hybridQueryMaxChars at fits
      omega
  · intro condition principal workspaceId runId course paid ok
    obtain ⟨short, indexed, vector, normalized, same⟩ := payRunQuery_ok ok
    rw [same, check_of_paid normalized indexed]
    rcases condition with vectorOnly | fits | long | blank
    · exact .inl vectorOnly
    · exact .inr fits
    · omega
    · exact absurd (indexable_of_indexed indexed) blank

/-- The shipped configuration: hybrid retrieval without an index scan. -/
def shippedConfig : RetrievalConfig where
  model := py "text-embedding-3-small"
  dimensions := 1536
  strategy := .hybrid
  ann := none
  limit := 8
  batchSize := 128
  inputMicrosPerMillionTokens := none
  model_length := by decide
  dimensions_range := by decide
  ann_range := by simp
  limit_range := by decide
  batchSize_range := by decide

/-- One letter too many for a hybrid query. -/
def longInput : PyStr := List.replicate 4097 0x61

theorem trim_longInput (condition : Fin 0x110000 → Bool) (kept : condition 0x61 = false) :
    trim condition longInput = longInput := by
  have first : longInput = 0x61 :: List.replicate 4096 0x61 := List.replicate_succ
  have last : longInput = List.replicate 4096 0x61 ++ [0x61] := List.replicate_succ'
  have left : longInput.dropWhile condition = longInput := by
    rw [first, List.dropWhile_cons, kept]
    rfl
  unfold trim
  rw [left, last, List.rdropWhile_concat, kept]
  rfl

/-- Both request models admit the input. -/
theorem longInput_accepted : strippedField 1 20000 longInput = some longInput := by
  have letters : longInput.any Json.isSurrogate = false := by
    simp only [longInput, List.any_replicate]
    decide
  have length : longInput.length = 4097 := List.length_replicate
  simp [strippedField, trim_longInput isWhiteSpace (by decide), letters, length, -List.any_eq_true, -List.any_eq_false]

/-- Not every accepted run input is accepted as a query: in the shipped configuration the
retrieval for the long one fails once its embedding has been paid for. -/
theorem long_input_refused :
    ¬ ∀ (config : RetrievalConfig) (sha256 : PyStr → Nat) (given inputText : PyStr),
      RunInput.input given = some inputText ∨ TenantAgentRunInput.input given = some inputText →
        QueryAccepted config sha256 inputText := by
  intro always
  have passes := always shippedConfig (fun _ => 0) longInput longInput (.inl longInput_accepted)
  have length : longInput.length = 4097 := List.length_replicate
  have stripped : strip longInput = longInput := trim_longInput isSpace (by decide)
  have indexable : Indexable shippedConfig := .inl rfl
  have visible : strip longInput ≠ [] := by
    rw [stripped]
    exact List.ne_nil_of_length_eq_add_one length
  obtain ⟨principal, workspaceId, runId, course, paid, ok⟩ :=
    exists_paid shippedConfig (fun _ => 0) visible (by omega) indexable
  obtain ⟨_, indexed, vector, normalized, same⟩ := payRunQuery_ok ok
  have checked := passes principal workspaceId runId course paid ok
  rw [same, check_of_paid normalized indexed, stripped, length] at checked
  rcases checked with vectorOnly | fits
  · cases vectorOnly
  · exact absurd fits (by decide)

end Nexora.Knowledge
