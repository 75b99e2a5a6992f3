import Nexora.Std.Traces
import Nexora.Executor.Configuration
import Nexora.Executor.Results

/-!
# No priced deployment meets an unpriced model

A deployment's workers send four kinds of paid requests: a model step of an agent run, a judge's
scoring of a case, the embeddings of a retrieval or an ingestion, and those of a lookup in the
semantic answer cache. Each operation is given by the requests it sends and the rows it records,
for whatever its surroundings answer.
-/

namespace Nexora.Executor

open Nexora.Std Nexora.Tools Nexora.Integration Nexora.Judge

/-- Why an operation stops. -/
inductive Stop where
  /-- `SpendPricingError` with its code. -/
  | pricing (code : String)
  /-- Any other exception. -/
  | other
  deriving DecidableEq

/-- What an operation leaves behind. -/
inductive SpendEvent where
  /-- A request went to a provider for one of its models. -/
  | called (provider model : String)
  /-- A row of the ledger was committed. -/
  | recorded (record : Run.SpendRecord)
  deriving DecidableEq

/-- An operation by what it leaves behind and how it ends. -/
abbrev Charging := Traced SpendEvent Stop

/-- `SpendPolicy.cost_micros`, as the row it prices. -/
def charge (policy : SpendPolicy) (provider model : String) (inputTokens outputTokens : Int) :
    Except Stop Run.SpendRecord := do
  let costMicros ← (policy.costMicros provider model inputTokens.toNat outputTokens.toNat).mapError
    fun _ => .pricing "model_price_not_configured"
  raiseIf (inputTokens < 0 ∨ outputTokens < 0) .other
  pure ⟨provider, model, inputTokens.toNat, outputTokens.toNat, costMicros⟩

/-- `EmbeddingSpend.cost_micros`, as the row it prices. -/
def EmbeddingSpend.charge (spend : EmbeddingSpend) (inputTokens : Int) :
    Except Stop Run.SpendRecord := do
  raiseIf (inputTokens < 0) .other
  pure ⟨spend.provider, spend.model, inputTokens.toNat, 0,
    spend.price.costMicros inputTokens.toNat 0⟩

/-- What an operation meets: whether the budget admits it, what the provider answers to each of
its requests, and whether its transaction commits. -/
structure Surroundings (Answer : Type) where
  admitted : Bool
  answers : List (Option Answer)
  commits : Bool

/-- The budget is asked where calls are priced. -/
def authorizeSpend (priced admitted : Bool) : Charging Unit :=
  .lift (raiseIf (priced = true ∧ admitted = false) .other)

/-- Requests that go out one after the other; one without an answer stops the operation. -/
def sendRequests {Answer : Type} (provider model : String) :
    List (Option Answer) → Charging (List Answer)
  | [] => pure []
  | answer :: rest => do
      .emit (.called provider model)
      let first ← .lift (orRaise answer .other)
      let others ← sendRequests provider model rest
      pure (first :: others)

/-- What is paid for is priced, and then recorded in the transaction that keeps it. -/
def saveCharged (commits : Bool) (price : Except Stop (Option Run.SpendRecord)) :
    Charging Unit := do
  let price ← .lift price
  .lift (raiseIf (commits = false) .other)
  match price with
  | none => pure ()
  | some record => .emit (.recorded record)

/-- The price of a call, if there is a policy. -/
def priceOf (policy : Option SpendPolicy) (provider model : String)
    (inputTokens outputTokens : Int) : Except Stop (Option Run.SpendRecord) :=
  match policy with
  | none => pure none
  | some policy => (charge policy provider model inputTokens outputTokens).map some

/-- The price of embeddings, if they have one. -/
def embeddingPrice (spend : Option EmbeddingSpend) (inputTokens : Int) :
    Except Stop (Option Run.SpendRecord) :=
  match spend with
  | none => pure none
  | some spend => (spend.charge inputTokens).map some

/-- What the operations have in common: the budget, the requests, and the price of the answers. -/
def payFor {Answer : Type} (priced : Bool) (provider model : String)
    (around : Surroundings Answer) (price : List Answer → Except Stop (Option Run.SpendRecord)) :
    Charging Unit := do
  authorizeSpend priced around.admitted
  let answers ← sendRequests provider model around.answers
  saveCharged around.commits (price answers)

/-- The price of what a model took in and gave out. -/
def usagePrice (policy : Option SpendPolicy) (provider model : String) (usage : List (Int × Int)) :
    Except Stop (Option Run.SpendRecord) :=
  priceOf policy provider model (usage.map Prod.fst).sum (usage.map Prod.snd).sum

/-- What `worker_service` builds of a configuration: the executor's store and its router, the
retriever, the semantic answer cache and the judge's worker. -/
structure Workers where
  spend : Option SpendPolicy
  router : ModelRouter
  /-- The retriever's model, and what it costs. -/
  retriever : Option (String × Option EmbeddingSpend)
  /-- The cache's model, and what it costs. -/
  semanticCache : Option (String × Option EmbeddingSpend)
  judge : Option EvaluationJudgeConfig

/-- `build_worker`, `build_retriever`, `build_semantic_answer_cache` and
`build_evaluation_judge_worker`, as far as they read prices. -/
def RuntimeConfig.build (config : RuntimeConfig) : Except ConfigError Workers := do
  let spend ← config.spendPolicy
  let embedding ← config.embeddingSpend
  let semantic ← config.semanticCacheSpend
  pure {
    spend := spend, router := config.candidates
    retriever := config.retrieval.map fun retrieval => (retrieval.model, embedding)
    semanticCache := config.answerCacheSemantic.map fun cache => (cache.model, semantic)
    judge := config.evaluationJudge }

/-- The paid work of a deployment's workers. -/
inductive Operation where
  /-- A model step that is routed, generated and saved. -/
  | step (health : PyStr → ProviderHealth) (required : List ModelCapability)
      (allowedProviders : List PyStr) (around : Surroundings (Int × Int))
  /-- A lookup in the semantic answer cache. -/
  | lookup (around : Surroundings Int)
  /-- `RagEmbeddingPipeline.retrieve`, to be charged under a key. -/
  | retrieve (spendKey : Option String) (around : Surroundings Int)
  /-- `RagEmbeddingPipeline.index_source`. -/
  | index (around : Surroundings Int)
  /-- The judge's scoring of a case, and of its baseline. -/
  | score (around : Surroundings (Int × Int))

namespace Workers

variable (workers : Workers)

/-- A step: `route`, `authorize_spend`, `generate` and `save`. -/
def step (health : PyStr → ProviderHealth) (required : List ModelCapability)
    (allowedProviders : List PyStr) (around : Surroundings (Int × Int)) : Charging Unit := do
  let decision ← .lift ((workers.router.route health required allowedProviders).mapError
    fun _ => Stop.other)
  let provider := spellText decision.candidate.provider
  let model := spellText decision.candidate.model
  payFor workers.spend.isSome provider model around (usagePrice workers.spend provider model)

/-- `authorize_semantic_cache_spend`, `embed` and `record_semantic_cache_embedding`. -/
def lookup (around : Surroundings Int) : Charging Unit :=
  match workers.semanticCache with
  | none => pure ()
  | some (model, spend) =>
    payFor spend.isSome embeddingProvider model around fun tokens =>
      embeddingPrice spend tokens.sum

/-- `retrieve`: without a key the query is not embedded where embeddings are priced. -/
def retrieve (spendKey : Option String) (around : Surroundings Int) : Charging Unit :=
  match workers.retriever with
  | none => pure ()
  | some (model, spend) => do
      .lift (raiseIf (spend.isSome = true ∧ spendKey = none) (.pricing "embedding_spend_key_missing"))
      payFor spend.isSome embeddingProvider model around fun tokens =>
        embeddingPrice spend tokens.sum

/-- `index_source`. -/
def index (around : Surroundings Int) : Charging Unit :=
  match workers.retriever with
  | none => pure ()
  | some (model, spend) =>
    payFor spend.isSome embeddingProvider model around fun tokens =>
      embeddingPrice spend tokens.sum

/-- `_assert_budget`, `_score` and `_save_case`. -/
def score (around : Surroundings (Int × Int)) : Charging Unit :=
  match workers.judge with
  | none => pure ()
  | some judge =>
    payFor workers.spend.isSome judge.pinned.provider judge.pinned.model around
      (usagePrice workers.spend judge.pinned.provider judge.pinned.model)

/-- An operation of the workers. -/
def run : Operation → Charging Unit
  | .step health required allowedProviders around =>
    workers.step health required allowedProviders around
  | .lookup around => workers.lookup around
  | .retrieve spendKey around => workers.retrieve spendKey around
  | .index around => workers.index around
  | .score around => workers.score around

end Workers

/-- The deployment declares a price somewhere. -/
def RuntimeConfig.Declares (config : RuntimeConfig) : Prop :=
  (∃ candidate ∈ config.modelCandidates, candidate.priced = true) ∨
    (∃ retrieval ∈ config.retrieval, retrieval.priced = true) ∨
      ∃ semantic ∈ config.answerCacheSemantic, semantic.priced = true

/-- A policy has a price for a provider's model. -/
def HasPrice (spend : Option SpendPolicy) (provider model : String) : Prop :=
  ∃ policy price, spend = some policy ∧ policy.prices.lookup (provider, model) = some price

/-- Embeddings of a model have a price. -/
def EmbeddingPriced (entry : String × Option EmbeddingSpend) : Prop :=
  ∃ spend, entry.2 = some spend ∧ spend.provider = embeddingProvider ∧ spend.model = entry.1

/-- Every model the workers call has a price, and no operation ends over a missing price after a
request went to a provider. -/
structure Priced (workers : Workers) : Prop where
  accounts : workers.spend.isSome = true
  routed : ∀ health required allowedProviders decision,
    workers.router.route health required allowedProviders = .ok decision →
      HasPrice workers.spend (spellText decision.candidate.provider)
        (spellText decision.candidate.model)
  judged : ∀ judge ∈ workers.judge,
    HasPrice workers.spend judge.pinned.provider judge.pinned.model
  retrieved : ∀ entry ∈ workers.retriever, EmbeddingPriced entry
  cached : ∀ entry ∈ workers.semanticCache, EmbeddingPriced entry
  beforeCalls : ∀ operation code, (workers.run operation).result = .error (.pricing code) →
    ∀ provider model, .called provider model ∉ (workers.run operation).events

/-- There is no policy and no price, and no operation records anything. -/
structure Unaccounted (workers : Workers) : Prop where
  models : workers.spend = none
  retrieved : ∀ entry ∈ workers.retriever, entry.2 = none
  cached : ∀ entry ∈ workers.semanticCache, entry.2 = none
  nothing : ∀ operation record, .recorded record ∉ (workers.run operation).events

/-! ## What the workers are built with -/

section Building

variable {config : RuntimeConfig}

theorem route_mem {router : ModelRouter} {health : PyStr → ProviderHealth}
    {required : List ModelCapability} {allowedProviders : List PyStr} {decision : RoutingDecision}
    (routed : router.route health required allowedProviders = .ok decision) :
    decision.candidate ∈ router := by
  simp only [ModelRouter.route, bind_eq_ok, orRaise_eq_ok, pure_eq_ok] at routed
  obtain ⟨_, -, selected, first, rfl⟩ := routed
  have member := (mem_orderBy _).mp (List.mem_of_mem_head? first)
  exact List.mem_of_mem_filter (List.mem_of_mem_filter member)

/-- The prices of candidates that are accepted: one for each that declares one. -/
theorem prices_ok {candidates : List ModelCandidateConfig}
    (valid : ∀ candidate ∈ candidates, candidate.validate = .ok ()) :
    ∃ prices, candidates.mapM RuntimeConfig.priceOf = .ok prices ∧
      (∀ candidate ∈ candidates, candidate.priced = true →
        ∃ price, some ((candidate.provider, candidate.model), price) ∈ prices) ∧
      ((∀ candidate ∈ candidates, candidate.priced = false) → prices.reduceOption = []) := by
  induction candidates with
  | nil => exact ⟨[], rfl, by simp, fun _ => rfl⟩
  | cons candidate rest ih =>
    obtain ⟨own, others⟩ := List.forall_mem_cons.mp valid
    obtain ⟨price, isPrice, declared⟩ := ModelCandidateConfig.price_ok own
    obtain ⟨prices, arePrices, listed, unlisted⟩ := ih others
    have first : RuntimeConfig.priceOf candidate =
        .ok (price.map fun price => ((candidate.provider, candidate.model), price)) := by
      rw [RuntimeConfig.priceOf, isPrice]
      rfl
    refine ⟨(price.map fun price => ((candidate.provider, candidate.model), price)) :: prices,
      ?_, ?_, ?_⟩
    · rw [List.mapM_cons, first, arePrices]
      rfl
    · intro other member priced
      rcases List.mem_cons.mp member with rfl | member
      · rw [priced, Option.isSome_iff_exists] at declared
        obtain ⟨value, rfl⟩ := declared
        exact ⟨value, List.mem_cons_self⟩
      · obtain ⟨value, inside⟩ := listed other member priced
        exact ⟨value, List.mem_cons_of_mem _ inside⟩
    · intro none
      obtain ⟨ownNone, othersNone⟩ := List.forall_mem_cons.mp none
      rw [ownNone, Option.isSome_eq_false_iff, Option.isNone_iff_eq_none] at declared
      rw [declared]
      exact unlisted othersNone

/-- A key that is listed is found, if perhaps not with the value listed. -/
theorem lookup_of_mem {Key Value : Type} [BEq Key] [LawfulBEq Key] {entries : List (Key × Value)}
    {key : Key} {value : Value} (member : (key, value) ∈ entries) :
    ∃ found, entries.lookup key = some found := by
  induction entries with
  | nil => cases member
  | cons entry rest ih =>
    rw [List.lookup_cons]
    by_cases same : key == entry.1
    · exact ⟨entry.2, by rw [same]⟩
    · rcases List.mem_cons.mp member with rfl | later
      · exact absurd (beq_self_eq_true key) same
      · obtain ⟨found, isFound⟩ := ih later
        exact ⟨found, by simp [same, isFound]⟩

/-- What is built of an accepted configuration. -/
structure Built (config : RuntimeConfig) (workers : Workers) : Prop where
  router : workers.router = config.candidates
  judge : workers.judge = config.evaluationJudge
  priced : config.modelsPriced = true → ∀ candidate ∈ config.modelCandidates,
    HasPrice workers.spend candidate.provider candidate.model
  free : config.modelsPriced = false → workers.spend = none
  retrieved : ∀ entry ∈ workers.retriever,
    (config.modelsPriced = true → EmbeddingPriced entry) ∧
      (config.modelsPriced = false → entry.2 = none)
  cached : ∀ entry ∈ workers.semanticCache,
    (config.modelsPriced = true → EmbeddingPriced entry) ∧
      (config.modelsPriced = false → entry.2 = none)

theorem spendPolicy_ok (consistent : config.Consistent) :
    ∃ spend, config.spendPolicy = .ok spend ∧
      (config.modelsPriced = true → ∀ candidate ∈ config.modelCandidates,
        HasPrice spend candidate.provider candidate.model) ∧
      (config.modelsPriced = false → spend = none) := by
  obtain ⟨prices, arePrices, listed, unlisted⟩ := prices_ok consistent.candidates
  refine ⟨if prices.reduceOption = [] then none else some ⟨prices.reduceOption⟩, ?_, ?_, ?_⟩
  · rw [RuntimeConfig.spendPolicy, arePrices]
    rfl
  · intro priced candidate member
    obtain ⟨price, inside⟩ := listed candidate member
      ((consistent.uniform candidate member).trans priced)
    have kept := List.reduceOption_mem_iff.mpr inside
    obtain ⟨value, isFound⟩ := lookup_of_mem kept
    rw [if_neg (List.ne_nil_of_mem kept)]
    exact ⟨_, value, rfl, isFound⟩
  · intro free
    have none : prices.reduceOption = [] := unlisted fun candidate member =>
      (consistent.uniform candidate member).trans free
    rw [if_pos none]

/-- The embeddings of a section that is priced as the models are. -/
theorem embedding_built {model path : String} {rate : Option Int} {priced : Bool}
    (valid : checkRate path rate = .ok () ∧ rate.isSome = priced) :
    ∃ spend, embeddingSpend embeddingProvider model rate = .ok spend ∧
      (priced = true → EmbeddingPriced (model, spend)) ∧ (priced = false → spend = none) := by
  obtain ⟨spend, isSpend, declared, about⟩ := @embeddingSpend_ok embeddingProvider model path rate valid.1
  refine ⟨spend, isSpend, ?_, ?_⟩
  · intro isPriced
    rw [valid.2, isPriced, Option.isSome_iff_exists] at declared
    obtain ⟨value, rfl⟩ := declared
    exact ⟨value, rfl, about value rfl⟩
  · intro isFree
    rw [valid.2, isFree, Option.isSome_eq_false_iff, Option.isNone_iff_eq_none] at declared
    exact declared

theorem build_ok (consistent : config.Consistent) :
    ∃ workers, config.build = .ok workers ∧ Built config workers := by
  obtain ⟨spend, isSpend, priced, free⟩ := spendPolicy_ok consistent
  have retrieval : ∃ embedding, config.embeddingSpend = .ok embedding ∧
      ∀ retrieval ∈ config.retrieval,
        (config.modelsPriced = true → EmbeddingPriced (retrieval.model, embedding)) ∧
          (config.modelsPriced = false → embedding = none) := by
    unfold RuntimeConfig.embeddingSpend
    cases given : config.retrieval with
    | none => exact ⟨none, rfl, by simp⟩
    | some retrieval =>
      obtain ⟨embedding, isEmbedding, about⟩ :=
        @embedding_built retrieval.model _ _ _ (consistent.retrieval retrieval given)
      refine ⟨embedding, isEmbedding, ?_⟩
      rintro _ ⟨⟩
      exact about
  have semantic : ∃ embedding, config.semanticCacheSpend = .ok embedding ∧
      ∀ semantic ∈ config.answerCacheSemantic,
        (config.modelsPriced = true → EmbeddingPriced (semantic.model, embedding)) ∧
          (config.modelsPriced = false → embedding = none) := by
    unfold RuntimeConfig.semanticCacheSpend
    cases given : config.answerCacheSemantic with
    | none => exact ⟨none, rfl, by simp⟩
    | some semantic =>
      obtain ⟨embedding, isEmbedding, about⟩ :=
        @embedding_built semantic.model _ _ _ (consistent.semantic semantic given)
      refine ⟨embedding, isEmbedding, ?_⟩
      rintro _ ⟨⟩
      exact about
  obtain ⟨embedding, isEmbedding, retrieved⟩ := retrieval
  obtain ⟨cache, isCache, cached⟩ := semantic
  refine ⟨_, by rw [RuntimeConfig.build, isSpend, isEmbedding, isCache]; rfl, rfl, rfl, priced, free,
    ?_, ?_⟩
  · intro entry member
    obtain ⟨configured, given, rfl⟩ := Option.map_eq_some_iff.mp (Option.mem_def.mp member)
    exact retrieved configured given
  · intro entry member
    obtain ⟨configured, given, rfl⟩ := Option.map_eq_some_iff.mp (Option.mem_def.mp member)
    exact cached configured given

end Building

/-! ## What the operations do -/

section Operating

/-- A missing price. -/
def Stop.IsPricing (stop : Stop) : Prop := ∃ code, stop = .pricing code

/-- A row of the ledger. -/
def SpendEvent.IsRecord (event : SpendEvent) : Prop := ∃ record, event = .recorded record

/-- A price that is known is no missing one. -/
def KnownPrice (price : Except Stop (Option Run.SpendRecord)) : Prop :=
  Spares Stop.IsPricing price

theorem other_not_pricing : ¬ Stop.other.IsPricing := by
  rintro ⟨code, same⟩
  cases same

theorem authorizeSpend_spares (priced admitted : Bool) :
    Traced.Spares Stop.IsPricing (authorizeSpend priced admitted) := by
  apply Traced.Spares.lift
  exact Spares.raiseIf fun bad => absurd bad other_not_pricing

variable {Answer : Type}

theorem sendRequests_spares (provider model : String) (answers : List (Option Answer)) :
    Traced.Spares Stop.IsPricing (sendRequests provider model answers) := by
  induction answers with
  | nil => exact Traced.Spares.pure _
  | cons answer rest ih =>
    apply Traced.Spares.bind (Traced.Spares.emit _)
    intro _ _
    apply Traced.Spares.bind (Traced.Spares.lift (Spares.orRaise other_not_pricing))
    intro _ _
    apply Traced.Spares.bind ih
    intro _ _
    exact Traced.Spares.pure _

theorem saveCharged_spares {commits : Bool} {price : Except Stop (Option Run.SpendRecord)}
    (known : KnownPrice price) : Traced.Spares Stop.IsPricing (saveCharged commits price) := by
  apply Traced.Spares.bind (Traced.Spares.lift known)
  intro found _
  apply Traced.Spares.bind
  · exact Traced.Spares.lift (Spares.raiseIf fun bad => absurd bad other_not_pricing)
  · intro _ _
    cases found with
    | none => exact Traced.Spares.pure _
    | some record => exact Traced.Spares.emit _

theorem known_of_spares {charged : Except Stop Run.SpendRecord}
    (spares : Spares Stop.IsPricing charged) : KnownPrice (charged.map some) := by
  cases charged with
  | error raised =>
    intro _ failed
    cases failed
    exact spares raised rfl
  | ok record => exact Spares.ok _

theorem embeddingPrice_known (spend : Option EmbeddingSpend) (inputTokens : Int) :
    KnownPrice (embeddingPrice spend inputTokens) := by
  cases spend with
  | none => exact Spares.ok _
  | some spend =>
    apply known_of_spares
    apply Spares.bind
    · exact Spares.raiseIf fun bad => absurd bad other_not_pricing
    · intro _ _
      exact Spares.pure _

variable {provider model : String} {price : List Answer → Except Stop (Option Run.SpendRecord)}
  {around : Surroundings Answer}

/-- A model that has a price is charged by it. -/
theorem priceOf_known {spend : Option SpendPolicy} (priced : HasPrice spend provider model)
    (inputTokens outputTokens : Int) :
    KnownPrice (priceOf spend provider model inputTokens outputTokens) := by
  obtain ⟨policy, price, rfl, isPrice⟩ := priced
  apply known_of_spares
  unfold charge SpendPolicy.costMicros
  rw [isPrice]
  apply Spares.bind (Spares.ok _)
  intro _ _
  apply Spares.bind
  · exact Spares.raiseIf fun bad => absurd bad other_not_pricing
  · intro _ _
    exact Spares.pure _

/-- Without a price a transaction records nothing. -/
theorem saveCharged_avoids (commits : Bool) :
    Traced.Avoids SpendEvent.IsRecord (saveCharged commits (.ok none)) := by
  apply Traced.Avoids.bind (Traced.Avoids.lift _)
  rintro _ ⟨⟩
  apply Traced.Avoids.bind (Traced.Avoids.lift _)
  intro _ _
  exact Traced.Avoids.pure _

theorem sendRequests_avoids (provider model : String) (answers : List (Option Answer)) :
    Traced.Avoids SpendEvent.IsRecord (sendRequests provider model answers) := by
  induction answers with
  | nil => exact Traced.Avoids.pure _
  | cons answer rest ih =>
    apply Traced.Avoids.bind
    · apply Traced.Avoids.emit
      rintro ⟨record, same⟩
      cases same
    intro _ _
    apply Traced.Avoids.bind (Traced.Avoids.lift _)
    intro _ _
    apply Traced.Avoids.bind ih
    intro _ _
    exact Traced.Avoids.pure _

theorem payFor_spares {priced : Bool} (known : ∀ found, KnownPrice (price found)) :
    Traced.Spares Stop.IsPricing (payFor priced provider model around price) := by
  apply Traced.Spares.bind (authorizeSpend_spares _ _)
  intro _ _
  apply Traced.Spares.bind (sendRequests_spares _ _ _)
  intro found _
  exact saveCharged_spares (known found)

theorem payFor_avoids {priced : Bool} (free : ∀ found, price found = .ok none) :
    Traced.Avoids SpendEvent.IsRecord (payFor priced provider model around price) := by
  apply Traced.Avoids.bind (Traced.Avoids.lift _)
  intro _ _
  apply Traced.Avoids.bind (sendRequests_avoids _ _ _)
  intro found _
  rw [free found]
  exact saveCharged_avoids _

variable {workers : Workers}

/-- An operation of a deployment in which every price is known ends over a missing price before
its first request, if at all. -/
theorem run_beforeCalls
    (routed : ∀ health required allowedProviders decision,
      workers.router.route health required allowedProviders = .ok decision →
        HasPrice workers.spend (spellText decision.candidate.provider)
          (spellText decision.candidate.model))
    (judged : ∀ judge ∈ workers.judge,
      HasPrice workers.spend judge.pinned.provider judge.pinned.model)
    (operation : Operation) :
    Traced.Spares Stop.IsPricing (workers.run operation) ∨ (workers.run operation).events = [] := by
  cases operation with
  | step health required allowedProviders around =>
    left
    apply Traced.Spares.bind
    · apply Traced.Spares.lift
      intro raised failed
      cases result : workers.router.route health required allowedProviders with
      | error stopped =>
        rw [result] at failed
        cases failed
        exact other_not_pricing
      | ok decision =>
        rw [result] at failed
        cases failed
    · intro decision isDecision
      have decided : workers.router.route health required allowedProviders = .ok decision :=
        (mapError_eq_ok _ _ _).mp isDecision
      exact payFor_spares fun usage => priceOf_known (routed _ _ _ _ decided) _ _
  | lookup around =>
    left
    change Traced.Spares Stop.IsPricing (workers.lookup around)
    unfold Workers.lookup
    split
    · exact Traced.Spares.pure _
    · exact payFor_spares fun tokens => embeddingPrice_known _ _
  | retrieve spendKey around =>
    change Traced.Spares Stop.IsPricing (workers.retrieve spendKey around) ∨
      (workers.retrieve spendKey around).events = []
    unfold Workers.retrieve
    split
    · exact .inl (Traced.Spares.pure _)
    · rename_i model spend _
      by_cases unkeyed : spend.isSome = true ∧ spendKey = none
      · right
        simp [Bind.bind, Traced.lift, raiseIf, unkeyed]
      · left
        apply Traced.Spares.bind
        · exact Traced.Spares.lift (Spares.raiseIf fun _ => unkeyed)
        · intro _ _
          exact payFor_spares fun tokens => embeddingPrice_known _ _
  | index around =>
    left
    change Traced.Spares Stop.IsPricing (workers.index around)
    unfold Workers.index
    split
    · exact Traced.Spares.pure _
    · exact payFor_spares fun tokens => embeddingPrice_known _ _
  | score around =>
    left
    change Traced.Spares Stop.IsPricing (workers.score around)
    unfold Workers.score
    split
    · exact Traced.Spares.pure _
    · rename_i judge isJudge
      exact payFor_spares fun usage => priceOf_known (judged judge isJudge) _ _

/-- Where nothing has a price no operation records anything. -/
theorem run_avoids (models : workers.spend = none)
    (retrieved : ∀ entry ∈ workers.retriever, entry.2 = none)
    (cached : ∀ entry ∈ workers.semanticCache, entry.2 = none) (operation : Operation) :
    Traced.Avoids SpendEvent.IsRecord (workers.run operation) := by
  have noUsage : ∀ provider model usage, usagePrice workers.spend provider model usage = .ok none := by
    intro provider model usage
    rw [models]
    rfl
  cases operation with
  | step health required allowedProviders around =>
    apply Traced.Avoids.bind (Traced.Avoids.lift _)
    intro decision _
    exact payFor_avoids (noUsage _ _)
  | lookup around =>
    change Traced.Avoids SpendEvent.IsRecord (workers.lookup around)
    unfold Workers.lookup
    split
    · exact Traced.Avoids.pure _
    · rename_i model spend given
      obtain rfl : spend = none := cached _ given
      exact payFor_avoids fun _ => rfl
  | retrieve spendKey around =>
    change Traced.Avoids SpendEvent.IsRecord (workers.retrieve spendKey around)
    unfold Workers.retrieve
    split
    · exact Traced.Avoids.pure _
    · rename_i model spend given
      obtain rfl : spend = none := retrieved _ given
      apply Traced.Avoids.bind (Traced.Avoids.lift _)
      intro _ _
      exact payFor_avoids fun _ => rfl
  | index around =>
    change Traced.Avoids SpendEvent.IsRecord (workers.index around)
    unfold Workers.index
    split
    · exact Traced.Avoids.pure _
    · rename_i model spend given
      obtain rfl : spend = none := retrieved _ given
      exact payFor_avoids fun _ => rfl
  | score around =>
    change Traced.Avoids SpendEvent.IsRecord (workers.score around)
    unfold Workers.score
    split
    · exact Traced.Avoids.pure _
    · exact payFor_avoids (noUsage _ _)

end Operating

/-- The models are priced exactly if something is. -/
theorem declares_iff {config : RuntimeConfig} (consistent : config.Consistent) :
    config.Declares ↔ config.modelsPriced = true := by
  constructor
  · rintro (⟨candidate, member, priced⟩ | ⟨retrieval, member, priced⟩ | ⟨semantic, member, priced⟩)
    · exact (consistent.uniform candidate member).symm.trans priced
    · exact (consistent.retrieval retrieval member).2.symm.trans priced
    · exact (consistent.semantic semantic member).2.symm.trans priced
  · intro priced
    exact .inl (List.any_eq_true.mp priced)

/-- Workers of a configuration that is accepted either know every price they need or ask for
none. -/
theorem accepted_config_prices (config : RuntimeConfig) (accepted : config.validate = .ok ()) :
    ∃ workers, config.build = .ok workers ∧ (config.Declares → Priced workers) ∧
      (¬ config.Declares → Unaccounted workers) := by
  have consistent := RuntimeConfig.consistent_of_validate accepted
  obtain ⟨workers, isBuilt, built⟩ := build_ok consistent
  refine ⟨workers, isBuilt, ?_, ?_⟩
  · intro declares
    have priced := built.priced ((declares_iff consistent).mp declares)
    have routed : ∀ health required allowedProviders decision,
        workers.router.route health required allowedProviders = .ok decision →
          HasPrice workers.spend (spellText decision.candidate.provider)
            (spellText decision.candidate.model) := by
      intro health required allowedProviders decision decided
      have member := route_mem decided
      rw [built.router] at member
      obtain ⟨candidate, listed, same⟩ := List.mem_map.mp member
      rw [← same]
      simpa [ModelCandidateConfig.toCandidate] using priced candidate listed
    have judged : ∀ judge ∈ workers.judge,
        HasPrice workers.spend judge.pinned.provider judge.pinned.model := by
      intro judge isJudge
      rw [built.judge] at isJudge
      obtain ⟨candidate, listed, provider, model⟩ := consistent.judge judge isJudge
      rw [← provider, ← model]
      exact priced candidate listed
    refine ⟨?_, routed, judged, fun entry member => (built.retrieved entry member).1
      ((declares_iff consistent).mp declares), fun entry member => (built.cached entry member).1
      ((declares_iff consistent).mp declares), ?_⟩
    · obtain ⟨candidate, rest, given⟩ := List.exists_cons_of_ne_nil consistent.some
      obtain ⟨policy, -, isPolicy, -⟩ := priced candidate (by simp [given])
      rw [isPolicy]
      rfl
    · intro operation code missing provider model sent
      rcases run_beforeCalls routed judged operation with spares | none
      · exact spares _ missing ⟨code, rfl⟩
      · rw [none] at sent
        cases sent
  · intro free
    have unpriced : config.modelsPriced = false := by
      rw [← Bool.not_eq_true]
      exact fun priced => free ((declares_iff consistent).mpr priced)
    have retrieved := fun entry member => (built.retrieved entry member).2 unpriced
    have cached := fun entry member => (built.cached entry member).2 unpriced
    refine ⟨built.free unpriced, retrieved, cached, ?_⟩
    intro operation record recorded
    exact run_avoids (built.free unpriced) retrieved cached operation _ recorded ⟨record, rfl⟩

/-- A candidate whose rates are given, or not. -/
def exampleCandidate (provider model : String) (rate : Option Int) : ModelCandidateConfig where
  provider := provider
  model := model
  capabilities := [.text, .structuredOutput]
  qualityTier := 1
  estimatedCostPerMillionTokens := 0
  inputMicrosPerMillionTokens := rate
  outputMicrosPerMillionTokens := rate

/-- A configuration with every section, at a rate or without prices. -/
def exampleConfig (rate : Option Int) : RuntimeConfig where
  modelCandidates := [exampleCandidate "provider" "small" rate, exampleCandidate "provider" "large" rate]
  profiles := [("default", (exampleDeployment.profiles []).get rfl)]
  retrieval := some ⟨"embedding", 1536, some 100, rate⟩
  answerCacheSemantic := some ⟨"embedding", 256, rate⟩
  evaluationJudge := some ⟨⟨"provider", "large", "nexora-eval-judge-v1"⟩, [1], 70000⟩
  mcpServers := ["search"]

/-- `accepted_config_prices` applies to a configuration with prices and to one without. -/
theorem accepted_config_prices_both :
    (∃ workers, (exampleConfig (some 5)).build = .ok workers ∧ Priced workers) ∧
      ∃ workers, (exampleConfig none).build = .ok workers ∧ Unaccounted workers := by
  constructor
  · obtain ⟨workers, built, priced, -⟩ :=
      accepted_config_prices (exampleConfig (some 5)) (by decide +kernel)
    exact ⟨workers, built, priced (.inl ⟨_, List.mem_cons_self, rfl⟩)⟩
  · obtain ⟨workers, built, -, free⟩ :=
      accepted_config_prices (exampleConfig none) (by decide +kernel)
    refine ⟨workers, built, free ?_⟩
    rintro (⟨candidate, member, priced⟩ | ⟨_, ⟨⟩, priced⟩ | ⟨_, ⟨⟩, priced⟩)
    · simp only [exampleConfig, List.mem_cons, List.not_mem_nil, or_false] at member
      rcases member with rfl | rfl
      · cases priced
      · cases priced
    · cases priced
    · cases priced

end Nexora.Executor
