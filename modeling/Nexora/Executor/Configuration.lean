import Nexora.Executor.Journal
import Nexora.Judge.Worker
import Nexora.Std.Walks

/-!
# The configuration of a deployment's workers

`RuntimeConfig` as its validators accept it, with the prices it declares: for every candidate
model, for the embeddings of the retrieval and for those of the semantic answer cache.
-/

namespace Nexora.Executor

open Nexora.Std Nexora.Tools Nexora.Integration Nexora.Judge

/-- Why a configuration is refused. -/
inductive ConfigError where
  /-- A field breaks one of its own constraints. -/
  | field (path : String)
  /-- A `ValueError` of a validator. -/
  | value (text : String)
  deriving DecidableEq

/-- `PROVIDER_NAME` and `TOOL_NAME`, which are one pattern. -/
def isConfigName : String → Bool :=
  matchesShape isLower (fun c => isLower c || isDigit c || c ∈ ['_', '.', '-']) 1 63

/-- `PROFILE_NAME`. -/
def isProfileName : String → Bool :=
  matchesShape (fun c => isLetter c || isDigit c || c ∈ ['.', '_', '-'])
    (fun c => isLetter c || isDigit c || c ∈ ['.', '_', '-']) 0 63

/-- `ModelPrice`, which refuses rates out of range. -/
def modelPrice (input output : Int) : Except ConfigError ModelPrice :=
  if bounded : (0 ≤ input ∧ input ≤ 10 ^ 12) ∧ 0 ≤ output ∧ output ≤ 10 ^ 12 then
    .ok ⟨input.toNat, output.toNat, by omega, by omega⟩
  else .error (.value "model prices must be between 0 and 10^12 micros")

/-- The bounds of a declared rate. -/
def checkRate (path : String) (rate : Option Int) : Except ConfigError Unit :=
  raiseIf (rate.any (fun rate => rate < 0 || 10 ^ 12 < rate) = true) (.field path)

/-- The bounds of a model's name. -/
def checkModel (path model : String) : Except ConfigError Unit :=
  raiseIf (model.length < 1 ∨ 128 < model.length) (.field path)

/-- `ModelCandidateConfig`. -/
structure ModelCandidateConfig where
  provider : String
  model : String
  capabilities : List ModelCapability
  qualityTier : Int
  estimatedCostPerMillionTokens : Int
  inputMicrosPerMillionTokens : Option Int
  outputMicrosPerMillionTokens : Option Int

namespace ModelCandidateConfig

variable (candidate : ModelCandidateConfig)

/-- The constraints of the fields, and `_complete_price`. -/
def validate : Except ConfigError Unit := do
  raiseIf (isConfigName candidate.provider = false) (.field "provider")
  checkModel "model" candidate.model
  raiseIf (candidate.capabilities.length < 1 ∨ 8 < candidate.capabilities.length)
    (.field "capabilities")
  raiseIf (candidate.qualityTier < 1 ∨ 5 < candidate.qualityTier) (.field "quality_tier")
  raiseIf (candidate.estimatedCostPerMillionTokens < 0 ∨
    1000000 < candidate.estimatedCostPerMillionTokens) (.field "estimated_cost_per_million_tokens")
  checkRate "input_micros_per_million_tokens" candidate.inputMicrosPerMillionTokens
  checkRate "output_micros_per_million_tokens" candidate.outputMicrosPerMillionTokens
  raiseIf (candidate.inputMicrosPerMillionTokens.isNone ≠
    candidate.outputMicrosPerMillionTokens.isNone)
    (.value "a model price must declare both input and output rates")

/-- `priced`. -/
def priced : Bool := candidate.inputMicrosPerMillionTokens.isSome

/-- `price`; a rate that is not declared is no integer to `ModelPrice`. -/
def price : Except ConfigError (Option ModelPrice) :=
  match candidate.inputMicrosPerMillionTokens, candidate.outputMicrosPerMillionTokens with
  | none, _ => pure none
  | some input, some output => (modelPrice input output).map some
  | some _, none => .error (.value "model prices must be integers")

/-- `candidate`. -/
def toCandidate : ModelCandidate where
  provider := py candidate.provider
  model := py candidate.model
  capabilities := candidate.capabilities
  qualityTier := candidate.qualityTier
  estimatedCostPerMillionTokens := candidate.estimatedCostPerMillionTokens

end ModelCandidateConfig

/-- `EmbeddingSpend`. -/
structure EmbeddingSpend where
  provider : String
  model : String
  price : ModelPrice

/-- The price of embeddings, which are billed on input tokens only. -/
def embeddingSpend (provider model : String) (rate : Option Int) :
    Except ConfigError (Option EmbeddingSpend) :=
  match rate with
  | none => pure none
  | some input => do
      let price ← modelPrice input 0
      pure (some ⟨provider, model, price⟩)

/-- `RetrievalConfig`: its provider is always the same. -/
structure RetrievalConfig where
  model : String
  dimensions : Int
  efSearch : Option Int
  inputMicrosPerMillionTokens : Option Int

/-- The only provider of embeddings. -/
def embeddingProvider : String := "openai"

namespace RetrievalConfig

variable (retrieval : RetrievalConfig)

/-- The constraints of the fields, and `_ann_dimensions`. -/
def validate : Except ConfigError Unit := do
  checkModel "retrieval.model" retrieval.model
  raiseIf (retrieval.dimensions < 1 ∨ 4096 < retrieval.dimensions) (.field "retrieval.dimensions")
  raiseIf (retrieval.efSearch.any (fun efSearch => efSearch < 1 || 1000 < efSearch) = true)
    (.field "retrieval.ann.ef_search")
  checkRate "retrieval.input_micros_per_million_tokens" retrieval.inputMicrosPerMillionTokens
  raiseIf (retrieval.efSearch.isSome = true ∧ 2000 < retrieval.dimensions)
    (.value "HNSW vector indexing supports at most 2000 dimensions")

/-- `priced`. -/
def priced : Bool := retrieval.inputMicrosPerMillionTokens.isSome

/-- `spend`. -/
def spend : Except ConfigError (Option EmbeddingSpend) :=
  embeddingSpend embeddingProvider retrieval.model retrieval.inputMicrosPerMillionTokens

end RetrievalConfig

/-- `AnswerCacheSemanticConfig`, without its threshold and its timeout. -/
structure AnswerCacheSemanticConfig where
  model : String
  dimensions : Int
  inputMicrosPerMillionTokens : Option Int

namespace AnswerCacheSemanticConfig

variable (semantic : AnswerCacheSemanticConfig)

/-- The constraints of the fields. -/
def validate : Except ConfigError Unit := do
  checkModel "answer_cache_semantic.model" semantic.model
  raiseIf (semantic.dimensions < 1 ∨ 4096 < semantic.dimensions)
    (.field "answer_cache_semantic.dimensions")
  checkRate "answer_cache_semantic.input_micros_per_million_tokens"
    semantic.inputMicrosPerMillionTokens

/-- `priced`. -/
def priced : Bool := semantic.inputMicrosPerMillionTokens.isSome

/-- `spend`. -/
def spend : Except ConfigError (Option EmbeddingSpend) :=
  embeddingSpend embeddingProvider semantic.model semantic.inputMicrosPerMillionTokens

end AnswerCacheSemanticConfig

/-- `RuntimeConfig`: of the MCP servers their keys, without the webhook of the alerts. -/
structure RuntimeConfig where
  modelCandidates : List ModelCandidateConfig
  profiles : List (String × ExecutionProfile)
  retrieval : Option RetrievalConfig
  answerCacheSemantic : Option AnswerCacheSemanticConfig
  evaluationJudge : Option EvaluationJudgeConfig
  mcpServers : List String

namespace RuntimeConfig

variable (config : RuntimeConfig)

/-- Some candidate declares a price. -/
def modelsPriced : Bool := config.modelCandidates.any ModelCandidateConfig.priced

/-- No two candidates are one model. -/
def checkDuplicates : Except ConfigError Unit :=
  raiseIf (¬ (config.modelCandidates.map fun candidate =>
    (candidate.provider, candidate.model)).Nodup) (.value "duplicate model candidate")

/-- The key of an MCP server. -/
def checkServerKey (serverKey : String) : Except ConfigError Unit := do
  raiseIf (isConfigName serverKey = false) (.value s!"invalid MCP server key: {serverKey}")
  raiseIf (serverKey = "connector")
    (.value "connector is a reserved built-in MCP server key")

/-- Either everything has a price or nothing. -/
def checkPrices : Except ConfigError Unit := do
  raiseIf ((config.modelCandidates.map ModelCandidateConfig.priced).dedup.length ≠ 1)
    (.value "model prices must be declared for every candidate or for none")
  raiseIf (config.retrieval.any (fun retrieval => retrieval.priced ≠ config.modelsPriced) = true)
    (.value "retrieval embeddings must be priced exactly when models are priced")
  raiseIf (config.answerCacheSemantic.any
      (fun semantic => semantic.priced ≠ config.modelsPriced) = true)
    (.value "semantic cache embeddings must be priced exactly when models are priced")

/-- The judge's model is a candidate that can judge. -/
def checkJudge : Except ConfigError Unit :=
  match config.evaluationJudge with
  | none => pure ()
  | some judge => do
      let candidate ← orRaise (config.modelCandidates.find? fun candidate =>
          candidate.provider = judge.pinned.provider && candidate.model = judge.pinned.model)
        (.value "evaluation judge model must be a configured candidate")
      raiseIf (¬ ([ModelCapability.text, .structuredOutput].all fun capability =>
          candidate.capabilities.contains capability) = true)
        (.value "evaluation judge model requires text and structured_output")

/-- A profile has a name of its form and allows configured providers only. -/
def checkProfile (entry : String × ExecutionProfile) : Except ConfigError Unit := do
  raiseIf (isProfileName entry.1 = false) (.value s!"invalid profile name: {entry.1}")
  raiseIf (¬ (entry.2.allowedProviders.all fun provider =>
      config.modelCandidates.any fun candidate => py candidate.provider = provider) = true)
    (.value s!"profile {entry.1} allows providers without a model candidate")

/-- `_consistent`. -/
def consistent : Except ConfigError Unit := do
  config.checkDuplicates
  goThrough checkServerKey config.mcpServers
  config.checkPrices
  config.checkJudge
  goThrough config.checkProfile config.profiles

/-- The validators in their order: of the parts, of the lengths, and `_consistent`. -/
def validate : Except ConfigError Unit := do
  goThrough ModelCandidateConfig.validate config.modelCandidates
  raiseIf (config.modelCandidates.length < 1 ∨ 32 < config.modelCandidates.length)
    (.field "model_candidates")
  raiseIf (config.profiles.length < 1 ∨ 16 < config.profiles.length) (.field "profiles")
  goThrough RetrievalConfig.validate config.retrieval.toList
  goThrough AnswerCacheSemanticConfig.validate config.answerCacheSemantic.toList
  raiseIf (32 < config.mcpServers.length) (.field "mcp_servers")
  config.consistent

/-- `candidates`. -/
def candidates : ModelRouter := config.modelCandidates.map ModelCandidateConfig.toCandidate

/-- The price of a candidate that has one, under its provider and model. -/
def priceOf (candidate : ModelCandidateConfig) :
    Except ConfigError (Option ((String × String) × ModelPrice)) := do
  let price ← candidate.price
  pure (price.map fun price => ((candidate.provider, candidate.model), price))

/-- `spend_policy`: a dictionary, in which no two candidates of an accepted configuration share a
key. -/
def spendPolicy : Except ConfigError (Option SpendPolicy) := do
  let prices ← config.modelCandidates.mapM priceOf
  let prices := prices.reduceOption
  pure (if prices = [] then none else some ⟨prices⟩)

/-- `embedding_spend`. -/
def embeddingSpend : Except ConfigError (Option EmbeddingSpend) :=
  match config.retrieval with
  | none => pure none
  | some retrieval => retrieval.spend

/-- `semantic_cache_spend`. -/
def semanticCacheSpend : Except ConfigError (Option EmbeddingSpend) :=
  match config.answerCacheSemantic with
  | none => pure none
  | some semantic => semantic.spend

end RuntimeConfig

/-! ## Prices of an accepted configuration -/

theorem checkRate_eq_ok {path : String} {rate : Option Int} :
    checkRate path rate = .ok () ↔ ∀ value, rate = some value → 0 ≤ value ∧ value ≤ 10 ^ 12 := by
  rw [checkRate, raiseIf_eq_ok]
  cases rate with
  | none => simp
  | some value => simp

theorem modelPrice_ok {input output : Int} (inputBounds : 0 ≤ input ∧ input ≤ 10 ^ 12)
    (outputBounds : 0 ≤ output ∧ output ≤ 10 ^ 12) : ∃ price, modelPrice input output = .ok price := by
  unfold modelPrice
  rw [dif_pos ⟨inputBounds, outputBounds⟩]
  exact ⟨_, rfl⟩

/-- A candidate that is accepted has a price exactly if it declares one. -/
theorem ModelCandidateConfig.price_ok {candidate : ModelCandidateConfig}
    (valid : candidate.validate = .ok ()) :
    ∃ price, candidate.price = .ok price ∧ price.isSome = candidate.priced := by
  simp only [ModelCandidateConfig.validate, bind_check_eq_ok, checkRate_eq_ok, raiseIf_eq_ok,
    not_not] at valid
  obtain ⟨-, -, -, -, -, inputs, outputs, complete⟩ := valid
  unfold price priced
  cases input : candidate.inputMicrosPerMillionTokens with
  | none => exact ⟨none, rfl, rfl⟩
  | some inputRate =>
    cases output : candidate.outputMicrosPerMillionTokens with
    | none =>
      rw [input, output] at complete
      cases complete
    | some outputRate =>
      obtain ⟨price, isPrice⟩ := modelPrice_ok (inputs inputRate input)
        (outputs outputRate output)
      exact ⟨some price, by simp [isPrice, Except.map], rfl⟩

/-- Embeddings with a rate in its bounds have a price exactly if the rate is declared. -/
theorem embeddingSpend_ok {provider model path : String} {rate : Option Int}
    (valid : checkRate path rate = .ok ()) :
    ∃ spend, embeddingSpend provider model rate = .ok spend ∧ spend.isSome = rate.isSome ∧
      ∀ priced, spend = some priced → priced.provider = provider ∧ priced.model = model := by
  cases declared : rate with
  | none => exact ⟨none, rfl, rfl, by simp⟩
  | some value =>
    obtain ⟨price, isPrice⟩ := modelPrice_ok (checkRate_eq_ok.mp valid value declared)
      ⟨le_refl 0, by decide⟩
    refine ⟨some ⟨provider, model, price⟩, ?_, rfl, ?_⟩
    · simp [embeddingSpend, isPrice, Bind.bind, Except.bind, pure, Except.pure]
    · rintro _ ⟨⟩
      exact ⟨rfl, rfl⟩

namespace RuntimeConfig

/-- What the validators have checked of prices. -/
structure Consistent (config : RuntimeConfig) : Prop where
  candidates : ∀ candidate ∈ config.modelCandidates, candidate.validate = .ok ()
  some : config.modelCandidates ≠ []
  uniform : ∀ candidate ∈ config.modelCandidates, candidate.priced = config.modelsPriced
  retrieval : ∀ retrieval ∈ config.retrieval,
    checkRate "retrieval.input_micros_per_million_tokens" retrieval.inputMicrosPerMillionTokens =
      .ok () ∧ retrieval.priced = config.modelsPriced
  semantic : ∀ semantic ∈ config.answerCacheSemantic,
    checkRate "answer_cache_semantic.input_micros_per_million_tokens"
      semantic.inputMicrosPerMillionTokens = .ok () ∧ semantic.priced = config.modelsPriced
  judge : ∀ judge ∈ config.evaluationJudge, ∃ candidate ∈ config.modelCandidates,
    candidate.provider = judge.pinned.provider ∧ candidate.model = judge.pinned.model

/-- Flags of which there is one only are all alike. -/
theorem uniform_of_dedup {α : Type} {items : List α} {flag : α → Bool}
    (one : (items.map flag).dedup.length = 1) : ∀ item ∈ items, flag item = items.any flag := by
  obtain ⟨value, only⟩ := List.length_eq_one_iff.mp one
  have alike : ∀ item ∈ items, flag item = value := by
    intro item member
    have listed : flag item ∈ (items.map flag).dedup :=
      List.mem_dedup.mpr (List.mem_map_of_mem member)
    rw [only] at listed
    exact List.mem_singleton.mp listed
  intro item member
  rw [alike item member]
  cases value with
  | true => exact (List.any_eq_true.mpr ⟨item, member, alike item member⟩).symm
  | false =>
    symm
    rw [List.any_eq_false]
    intro other listed
    rw [alike other listed]
    exact Bool.false_ne_true

theorem consistent_of_validate {config : RuntimeConfig} (accepted : config.validate = .ok ()) :
    config.Consistent := by
  simp only [validate, consistent, checkPrices, bind_check_eq_ok, goThrough_eq_ok, raiseIf_eq_ok,
    not_not, not_or, not_lt, Option.mem_toList] at accepted
  obtain ⟨candidates, ⟨fewest, -⟩, -, retrieval, semantic, -, -, -, ⟨one, forRetrieval, forCache⟩,
    judge, -⟩ := accepted
  refine ⟨candidates, ?_, uniform_of_dedup one, ?_, ?_, ?_⟩
  · intro empty
    rw [empty] at fewest
    cases fewest
  · intro configured member
    have valid := retrieval configured member
    simp only [RetrievalConfig.validate, bind_check_eq_ok] at valid
    obtain ⟨-, -, -, rate, -⟩ := valid
    rw [Option.mem_def.mp member] at forRetrieval
    exact ⟨rate, by simpa using forRetrieval⟩
  · intro configured member
    have valid := semantic configured member
    simp only [AnswerCacheSemanticConfig.validate, bind_check_eq_ok] at valid
    obtain ⟨-, -, rate⟩ := valid
    rw [Option.mem_def.mp member] at forCache
    exact ⟨rate, by simpa using forCache⟩
  · intro configured member
    unfold checkJudge at judge
    rw [Option.mem_def.mp member] at judge
    simp only [bind_eq_ok, orRaise_eq_ok] at judge
    obtain ⟨candidate, isFirst, -⟩ := judge
    have same := List.find?_some isFirst
    simp only [Bool.and_eq_true, decide_eq_true_eq] at same
    exact ⟨candidate, List.mem_of_find?_eq_some isFirst, same⟩

end RuntimeConfig

end Nexora.Executor
