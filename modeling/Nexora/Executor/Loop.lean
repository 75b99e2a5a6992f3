import Nexora.Run.Successes
import Nexora.Executor.CacheKeys
import Nexora.Executor.Journal

/-!
# The executor's loop

`DurableAgentExecutor._execute` as the local state of an attempt between two of its
transactions. Each function below is a stretch of the loop's body from one transaction to the
next; it gives the attempt's next state, or ends the attempt.
-/

namespace Nexora.Executor

open Nexora.Std Nexora.Workspace Nexora.Tools Json

/-- What a deployment's workers run with. -/
structure Deployment where
  platform : Run.Platform
  unicode : Unicode
  profiles : PyStr → Option ExecutionProfile
  router : ModelRouter
  /-- The providers there is an adapter for. -/
  providers : List PyStr
  /-- There is a retriever. -/
  retrieves : Bool
  /-- There is a semantic cache. -/
  semanticCache : Bool

/-- A lookup in the answer cache. -/
inductive Lookup where
  | exact
  | semantic
  deriving DecidableEq, Repr

/-- Where an attempt stands in the loop. -/
inductive Place where
  /-- The tools are listed; the evidence is still to be retrieved. -/
  | retrieving
  /-- At the head of the loop. -/
  | looping
  /-- Past the checks at the head of the loop. -/
  | checked
  /-- The step is not journalled; some lookups in the cache are still to be made. -/
  | routed (decision : RoutingDecision) (lookups : List Lookup)
  /-- The provider has answered. -/
  | answered (decision : RoutingDecision) (response : ProviderResponse)
  /-- The step's response is journalled. -/
  | responded (response : ProviderResponse)
  /-- Calls of the response are still to be invoked, the first of them under an index. -/
  | calling (index : Nat) (calls : List ProviderToolCall)
  /-- The first of them has passed its checks. -/
  | permitted (index : Nat) (calls : List ProviderToolCall)
  /-- The first of them is with the gateway. -/
  | invoking (index : Nat) (calls : List ProviderToolCall)
  deriving DecidableEq

/-- The local variables of `_execute`. -/
structure Attempt where
  profile : ExecutionProfile
  advertised : List ProviderTool
  messages : List ProviderMessage
  evidenceHash : Option Nat
  stepNo : Nat
  totalTokens : Int
  place : Place

/-- The name a run's tool is advertised under. -/
def publicName (context : Run.ExecutionContext) (name : PyStr) : PyStr :=
  (((context.toolAliases.getD []).reverse.find? fun entry => entry.2 = name).map
    Prod.fst).getD name

/-- `executable`: the run may call the tool. -/
def executable (context : Run.ExecutionContext) (profile : ExecutionProfile)
    (tool : Run.ToolDefinition) : Bool :=
  let name := publicName context tool.name
  !((context.toolAliases.getD []).any fun entry => entry.1 = name && entry.2 ≠ tool.name) &&
    (context.allowedTools.all fun allowed => allowed.any fun other => other = name) &&
    (profile.allowedTools.any (fun other => other = name) ||
      profile.allowedServerKeys.contains tool.serverKey)

/-- `list_tools`, for a caller who may read the workspace. -/
def listTools (store : Run.Store) (workspaceId : Uuid) (limit : Nat) : List Run.ToolDefinition :=
  ((orderBy (fun entry => entry.2.name) (store.toolDefinitions.select fun _ tool =>
    tool.workspaceId = workspaceId)).take limit).map Prod.snd

/-- The tools a run is shown. -/
def advertise (context : Run.ExecutionContext) (profile : ExecutionProfile)
    (tools : List Run.ToolDefinition) : List ProviderTool :=
  (tools.filter fun tool => tool.enabled && executable context profile tool).map fun tool =>
    ⟨publicName context tool.name, tool.inputSchema⟩

/-- The exception an error of a transaction leaves the executor as. -/
def raised {α : Type} (result : Except Run.Raised α) : Except Outcome α :=
  result.mapError .ofRaised

/-- The characters of the messages. -/
def messageChars (messages : List ProviderMessage) : Nat :=
  (messages.map fun message => message.content.length).sum

variable (deployment : Deployment)

/-- `_execute` up to the retrieval. -/
def begin (store : Run.Store) (context : Run.ExecutionContext) (clock : Instant) :
    Except Outcome Attempt := do
  let profile ← orRaise ((context.modelProfile.bind deployment.profiles).filter fun profile =>
    profile.allowedWorkspaces.contains context.workspaceId)
    (.terminal "model_profile_not_authorized")
  let run ← raised (store.executableRun context clock)
  raised (Run.ofRequest (scopedMember store.memberships run.requestedBy context.workspaceId .read))
  let tools := listTools store context.workspaceId 101
  let advertised := advertise context profile tools
  raiseIf (100 < tools.length ∨ 32 < advertised.length) (.terminal "tool_limit_exceeded")
  let instructions ← orRaise context.instructions .crashed
  pure {
    profile := profile, advertised := advertised
    messages := [.plain .system instructions, .plain .user context.inputText]
    evidenceHash := none, stepNo := 0, totalTokens := 0, place := .retrieving }

/-- `_execute` from the retrieval to the loop; `evidence` is the text of the run's snapshot. -/
def Attempt.retrieved (attempt : Attempt) (evidence : PyStr) : Except Outcome Attempt := do
  if deployment.retrieves then do
    raiseIf ((attempt.profile.maxContextChars : Int) - messageChars attempt.messages <
      evidence.length) (.terminal "context_limit_exceeded")
    pure { attempt with
      messages := attempt.messages ++ (if evidence = [] then [] else [.plain .user evidence])
      evidenceHash := some (deployment.platform.runtime.sha256 evidence), place := .looping }
  else pure { attempt with place := .looping }

/-- The head of the loop, up to `load`. -/
def Attempt.check (attempt : Attempt) (store : Run.Store) (context : Run.ExecutionContext)
    (clock : Instant) : Except Outcome Attempt := do
  raiseIf (attempt.profile.maxSteps ≤ attempt.stepNo) (.terminal "step_limit_exceeded")
  let _ ← raised (store.executableRun context clock)
  raiseIf (attempt.profile.maxContextChars < messageChars attempt.messages)
    (.terminal "context_limit_exceeded")
  pure { attempt with place := .checked }

/-- `answer_cache_enabled`. -/
def Attempt.caches (attempt : Attempt) : Bool :=
  0 < attempt.profile.answerCacheTtlSeconds && attempt.advertised = []

/-- The lookups to make before the provider is asked. -/
def Attempt.lookups (attempt : Attempt) : List Lookup :=
  if attempt.stepNo = 0 && attempt.caches then
    .exact :: (if deployment.semanticCache then [.semantic] else [])
  else []

/-- `load`, and the routing of a step that is not journalled. -/
def Attempt.load (attempt : Attempt) (store : Run.Store) (context : Run.ExecutionContext)
    (health : PyStr → ProviderHealth) (clock : Instant) : Except Outcome Attempt := do
  let _ ← raised (store.executableRun context clock)
  match store.modelSteps.find? (context.runId, attempt.stepNo) with
  | some row => do
      let response ← orRaise (decodeResponse row.response) .crashed
      pure { attempt with place := .responded response }
  | none => do
      let decision ← deployment.router.route health
        (.text :: (if attempt.advertised = [] then [] else [.tools]))
        attempt.profile.allowedProviders
      pure { attempt with place := .routed decision (attempt.lookups deployment) }

/-- The provider's answer, before it is saved. -/
def Attempt.receive (attempt : Attempt) (decision : RoutingDecision)
    (response : ProviderResponse) : Except Outcome Attempt := do
  raiseIf (deployment.providers.any (fun provider => provider = decision.candidate.provider) =
    false) (.terminal "provider_not_configured")
  response.validate deployment.platform.runtime
  pure { attempt with place := .answered decision response }

/-- What the loop makes of a step's response. -/
def Attempt.judge (attempt : Attempt) (response : ProviderResponse) : Except Outcome Attempt := do
  response.validate deployment.platform.runtime
  let totalTokens := attempt.totalTokens +
    (response.usage.inputTokens.value + response.usage.outputTokens.value)
  raiseIf (attempt.profile.maxTotalTokens < totalTokens) (.terminal "token_budget_exceeded")
  if (response.finishReason = "stop" ∨ response.finishReason = "refusal") ∧
      response.toolCalls = [] then do
    raiseIf (response.text.getD [] = []) (.terminal "empty_model_response")
    .error .succeeded
  else do
    raiseIf (response.finishReason ≠ "tool_call" ∨ response.toolCalls = [])
      (.terminal "model_response_incomplete")
    raiseIf (totalTokens = attempt.profile.maxTotalTokens) (.terminal "token_budget_exceeded")
    pure { attempt with totalTokens := totalTokens, place := .calling 0 response.toolCalls }

/-- The checks before a call goes to the gateway. -/
def Attempt.permit (attempt : Attempt) (index : Nat) (call : ProviderToolCall)
    (rest : List ProviderToolCall) (store : Run.Store) (context : Run.ExecutionContext)
    (clock : Instant) : Except Outcome Attempt := do
  raiseIf (attempt.advertised.any (fun tool => tool.name = call.name) = false)
    (.terminal "model_tool_not_allowed")
  let _ ← raised (store.executableRun context clock)
  pure { attempt with place := .permitted index (call :: rest) }

/-- The key of a step's tool call. -/
def stepCallKey (stepNo index : Nat) : PyStr := py s!"step:{stepNo}:tool:{index}"

/-- A call's result becomes part of the conversation. -/
def Attempt.resume (attempt : Attempt) (index : Nat) (call : ProviderToolCall)
    (rest : List ProviderToolCall) (result : Json) : Attempt :=
  let messages := attempt.messages ++
    [⟨.assistant, [], some call, none⟩,
      ⟨.tool, spelled deployment.platform.runtime result, none, some call.id⟩]
  if rest = [] then
    { attempt with messages := messages, stepNo := attempt.stepNo + 1, place := .looping }
  else { attempt with messages := messages, place := .calling (index + 1) rest }

/-- The key an answer is cached under. -/
def Attempt.cacheKey (attempt : Attempt) (context : Run.ExecutionContext)
    (decision : RoutingDecision) : String :=
  spellText (hexDigest (answerCacheKey deployment.platform.runtime deployment.unicode context
    decision attempt.evidenceHash))

/-- The row `save` adds to the journal. -/
def savedStep (decision : RoutingDecision) (response : ProviderResponse) : Run.ModelStep where
  provider := spellText decision.candidate.provider
  model := spellText decision.candidate.model
  routingReason := decision.reason
  response := response.asDict

/-- The answer `save` puts into the cache, if it may be reused. -/
def Attempt.cachedAnswer (attempt : Attempt) (context : Run.ExecutionContext)
    (decision : RoutingDecision) (response : ProviderResponse) (now : Instant) :
    Option (String × Run.CachedAnswer) :=
  if attempt.stepNo = 0 && attempt.caches && cacheableResponse response then
    some (attempt.cacheKey deployment context decision, {
      provider := spellText decision.candidate.provider
      model := spellText decision.candidate.model
      response := ProviderResponse.asDict { response with usage := ⟨.int 0, .int 0⟩ }
      expiresAt := now + Run.seconds attempt.profile.answerCacheTtlSeconds })
  else none

end Nexora.Executor
