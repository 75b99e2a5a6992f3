import Nexora.Std.Sorting
import Nexora.Knowledge.Text
import Nexora.Connector.Contracts

/-!
# What the executor exchanges with a model

Messages, requests and responses as a provider adapter takes and returns them, the routing of
a request to a candidate, and the bounds an operator's profile puts on a run.
-/

namespace Nexora.Executor

open Nexora.Std Nexora.Tools Json

/-- `ModelCapability`. -/
inductive ModelCapability where
  | text
  | tools
  | structuredOutput
  | streaming
  deriving DecidableEq, Repr

/-- `ProviderHealth`. -/
inductive ProviderHealth where
  | healthy
  | degraded
  | unhealthy
  deriving DecidableEq, Repr

/-- `ModelCandidate`. -/
structure ModelCandidate where
  provider : PyStr
  model : PyStr
  capabilities : List ModelCapability
  qualityTier : Int
  estimatedCostPerMillionTokens : Int
  deriving DecidableEq

/-- `RoutingDecision`. -/
structure RoutingDecision where
  candidate : ModelCandidate
  reason : String
  deriving DecidableEq

/-- How an attempt ends, or why one of its steps raises. -/
inductive Outcome where
  /-- The run's answer stands. -/
  | succeeded
  /-- `TerminalExecutionError` with its code. -/
  | terminal (code : String)
  /-- `RetryableExecutionError` with its code. -/
  | retryable (code : String)
  /-- Any other exception. -/
  | crashed
  deriving DecidableEq, Repr

/-- `ProviderError`, as `execute` passes it on. -/
def Outcome.provider (code : String) (retryable : Bool) : Outcome :=
  if retryable then .retryable code else .terminal code

/-- An exception of a transaction, as `execute` passes it on. -/
def Outcome.ofRaised : Run.Raised → Outcome
  | .contract (.toolContract code) => .terminal code
  | _ => .crashed

/-- `ModelRouter`: its candidates. The health of providers changes while it is used. -/
abbrev ModelRouter := List ModelCandidate

/-- `ModelRouter.route` for a request without bounds on quality and cost. -/
def ModelRouter.route (router : ModelRouter) (health : PyStr → ProviderHealth)
    (required : List ModelCapability) (allowedProviders : List PyStr) :
    Except Outcome RoutingDecision := do
  let policyEligible := router.filter fun candidate =>
    allowedProviders.any (fun provider => provider = candidate.provider) &&
      required.all (fun capability => candidate.capabilities.contains capability)
  raiseIf (policyEligible = []) (.provider "no_compatible_model" false)
  let eligible := policyEligible.filter fun candidate => health candidate.provider ≠ .unhealthy
  let selected ← orRaise (orderBy (fun candidate : ModelCandidate =>
      toLex (decide (health candidate.provider ≠ .healthy), toLex (-candidate.qualityTier,
        toLex (candidate.estimatedCostPerMillionTokens,
          toLex (candidate.provider, candidate.model))))) eligible).head?
    (.provider "no_healthy_provider" true)
  pure {
    candidate := selected
    reason :=
      if health selected.provider = .healthy then "capabilities_policy_health_quality_cost"
      else "capabilities_policy_degraded_fallback_quality_cost" }

/-- `ProviderToolCall`. -/
structure ProviderToolCall where
  id : PyStr
  name : PyStr
  arguments : Json
  deriving DecidableEq

/-- An instance of Python's `int`, of which the booleans are some. -/
inductive PyInt where
  | int (value : Int)
  | bool (value : Bool)
  deriving DecidableEq

/-- The number it stands for. -/
def PyInt.value : PyInt → Int
  | .int value => value
  | .bool value => if value then 1 else 0

/-- `ProviderUsage`. -/
structure ProviderUsage where
  inputTokens : PyInt
  outputTokens : PyInt
  deriving DecidableEq

/-- `ProviderResponse`. -/
structure ProviderResponse where
  text : Option PyStr
  toolCalls : List ProviderToolCall
  structuredOutput : Option Json
  usage : ProviderUsage
  finishReason : String
  deriving DecidableEq

/-- Who speaks in a message. -/
inductive Role where
  | system
  | user
  | assistant
  | tool
  deriving DecidableEq, Repr

/-- `ProviderMessage`. -/
structure ProviderMessage where
  role : Role
  content : PyStr
  toolCall : Option ProviderToolCall
  toolCallId : Option PyStr
  deriving DecidableEq

/-- A message of a speaker that says nothing of tools. -/
def ProviderMessage.plain (role : Role) (content : PyStr) : ProviderMessage :=
  ⟨role, content, none, none⟩

/-- `ProviderTool`, without its description. -/
structure ProviderTool where
  name : PyStr
  inputSchema : Json
  deriving DecidableEq

/-- `ProviderRequest`. -/
structure ProviderRequest where
  requestId : PyStr
  messages : List ProviderMessage
  tools : List ProviderTool
  maxOutputTokens : Int
  deriving DecidableEq

/-- `ExecutionProfile` with the bounds its constructor checks, without the timeout. -/
structure ExecutionProfile where
  allowedWorkspaces : List Uuid
  allowedProviders : List PyStr
  allowedTools : List PyStr
  allowedServerKeys : List String
  maxSteps : Nat
  maxOutputTokens : Nat
  maxTotalTokens : Nat
  maxContextChars : Nat
  answerCacheTtlSeconds : Nat
  maxSteps_range : 1 ≤ maxSteps ∧ maxSteps ≤ 32
  maxOutputTokens_range : 1 ≤ maxOutputTokens ∧ maxOutputTokens ≤ 16384
  maxTotalTokens_range : 1 ≤ maxTotalTokens ∧ maxTotalTokens ≤ 1000000
  maxContextChars_range : 1000 ≤ maxContextChars ∧ maxContextChars ≤ 200000
  answerCacheTtlSeconds_range : answerCacheTtlSeconds ≤ 2592000

mutual

/-- `json.dumps(value, ensure_ascii=False)`. -/
def spelled (runtime : Runtime) : Json → PyStr
  | .array items => py "[" ++ ((spelledItems runtime items).intersperse (py ", ")).flatten ++ py "]"
  | .object members =>
    py "\x7b" ++ ((spelledMembers runtime members).intersperse (py ", ")).flatten ++ py "\x7d"
  | value => dumps runtime value

/-- The texts of an array's items. -/
def spelledItems (runtime : Runtime) : List Json → List PyStr
  | [] => []
  | item :: rest => spelled runtime item :: spelledItems runtime rest

/-- The texts of an object's members. -/
def spelledMembers (runtime : Runtime) : List (PyStr × Json) → List PyStr
  | [] => []
  | (key, value) :: rest =>
    (quoted key ++ py ": " ++ spelled runtime value) :: spelledMembers runtime rest

end

/-- `_validate`. -/
def ProviderResponse.validate (runtime : Runtime) (response : ProviderResponse) :
    Except Outcome Unit := do
  raiseIf (16 < response.toolCalls.length ∨ ¬ (response.toolCalls.map fun call => call.id).Nodup ∨
      response.toolCalls.any (fun call => call.id = [] || 200 < call.id.length || call.name = []) =
        true ∨
      100000 < (response.text.getD []).length ∨ response.usage.inputTokens.value < 0 ∨
      response.usage.outputTokens.value < 0) (.terminal "invalid_model_response")
  raiseIf (100000 < ((spelled runtime (.array (response.toolCalls.map fun call =>
      call.arguments))).flatMap Connector.asciiPoint).length)
    (.terminal "model_arguments_too_large")

/-- `_cacheable_response`. -/
def cacheableResponse (response : ProviderResponse) : Bool :=
  response.finishReason = "stop" && response.text.any (fun text => text ≠ []) &&
    response.toolCalls.isEmpty && response.structuredOutput.isNone

end Nexora.Executor
