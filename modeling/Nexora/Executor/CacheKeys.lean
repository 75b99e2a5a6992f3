import Nexora.Tools.Printing
import Nexora.Executor.Provider

/-!
# The keys of cached answers

An answer is cached under the digest of a document that names whom and what it was given for,
the question and the evidence.
-/

namespace Nexora.Executor

open Nexora.Std Nexora.Tools Json

/-- What Python knows of Unicode: `normalize("NFKC", …)` and `casefold`. -/
structure Unicode where
  nfkc : PyStr → PyStr
  casefold : PyStr → PyStr

/-- `str.split()`. -/
def splitWords (text : PyStr) : List PyStr :=
  (text.splitOnP Knowledge.isSpace).filter fun word => word ≠ []

/-- `_normalize_cache_question`. -/
def normalizeCacheQuestion (unicode : Unicode) (value : PyStr) : PyStr :=
  unicode.casefold (((splitWords (unicode.nfkc value)).intersperse (py " ")).flatten)

/-- `hexdigest()` of a digest, which has 64 digits. -/
def hexDigest (digest : Nat) : PyStr :=
  let digits := Nat.toDigits 16 digest
  py (String.ofList (List.replicate (64 - digits.length) '0' ++ digits))

/-- The text of an agent's kind. -/
def agentKindText : Run.AgentKind → PyStr
  | .custom => py "custom"
  | .standard => py "standard"

/-- The part of a cached answer's document that names whom and what it was given for. -/
def scopeMembers (runtime : Runtime) (context : Run.ExecutionContext)
    (decision : RoutingDecision) : List (PyStr × Json) :=
  [(py "version", .int 1), (py "workspace_id", .str (py context.workspaceId.text)),
    (py "agent_id", .str (py context.agentId.text)),
    (py "agent_kind", .str (agentKindText context.agentKind)),
    (py "model_profile", (context.modelProfile.map .str).getD .null),
    (py "provider", .str decision.candidate.provider),
    (py "model", .str decision.candidate.model),
    (py "instructions_sha256",
      .str (hexDigest (runtime.sha256 (context.instructions.getD []))))]

/-- The part that names the evidence, if there is a retriever. -/
def evidenceMembers (retrievalContextHash : Option Nat) : List (PyStr × Json) :=
  (retrievalContextHash.map fun digest =>
    (py "retrieval_context_sha256", Json.str (hexDigest digest))).toList

/-- `_answer_cache_scope_key`. -/
def answerCacheScopeKey (runtime : Runtime) (context : Run.ExecutionContext)
    (decision : RoutingDecision) (retrievalContextHash : Option Nat) : Nat :=
  runtime.sha256 (dumps runtime (.object (scopeMembers runtime context decision ++
    evidenceMembers retrievalContextHash)))

/-- `_answer_cache_key`. -/
def answerCacheKey (runtime : Runtime) (unicode : Unicode) (context : Run.ExecutionContext)
    (decision : RoutingDecision) (retrievalContextHash : Option Nat) : Nat :=
  runtime.sha256 (dumps runtime (.object (scopeMembers runtime context decision ++
    [(py "question", .str (normalizeCacheQuestion unicode context.inputText))] ++
    evidenceMembers retrievalContextHash)))

end Nexora.Executor
