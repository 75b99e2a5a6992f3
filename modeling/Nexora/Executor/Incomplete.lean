import Nexora.Connector.Storing
import Nexora.Executor.Results

/-!
# Responses that are incomplete

The adapter of the Responses API reads a document into a response: the texts of its messages, its
calls, and a reason for its end that a refusal and a call settle before the document's own status.
The executor judges the response by that reason.
-/

namespace Nexora.Executor

open Nexora.Std Nexora.Tools Nexora.Connector Json

/-- The libraries the adapter calls: `json.loads`, and `str` of a value that is no text. -/
structure DocumentLibrary where
  loads : PyStr → Loaded
  str : Json → String

variable (library : DocumentLibrary)

/-- An error of the provider that is not retried. -/
def providerFault {α : Type} (code : String) : Except Outcome α := .error (.provider code false)

/-- What a JSON text must hold: an object, or an error. -/
def loadsObject (text : PyStr) (code : String) : Except Outcome Json :=
  match library.loads text with
  | .value (.object members) => pure (.object members)
  | .value _ => providerFault code
  | .decodeError => providerFault code
  | .raised => .error .crashed

/-- `_parse_tool_call`. -/
def parseToolCall (item : List (PyStr × Json)) : Except Outcome ProviderToolCall := do
  let (callId, name, arguments) ← orRaise
    (match lookup (py "call_id") item, lookup (py "name") item, lookup (py "arguments") item with
    | some (.str callId), some (.str name), some (.str arguments) => some (callId, name, arguments)
    | _, _, _ => none) (.provider "provider_invalid_response" false)
  let parsed ← loadsObject library arguments "provider_invalid_tool_arguments"
  pure ⟨callId, name, parsed⟩

/-- `_parse_usage`. -/
def parseUsage (usage : List (PyStr × Json)) : Except Outcome ProviderUsage := do
  let inputTokens ← orRaise ((lookup (py "input_tokens") usage).bind pyInt?)
    (.provider "provider_invalid_response" false)
  let outputTokens ← orRaise ((lookup (py "output_tokens") usage).bind pyInt?)
    (.provider "provider_invalid_response" false)
  pure ⟨inputTokens, outputTokens⟩

/-- What was read of a document's output. -/
structure Gathered where
  texts : List PyStr
  calls : List ProviderToolCall
  refusal : Bool
  deriving DecidableEq

/-- What a message's part says, and whether it refuses. -/
def partText? (part : List (PyStr × Json)) : Option (PyStr × Bool) :=
  if lookup (py "type") part = some (.str (py "output_text")) then
    (lookup (py "text") part).bind fun text => (Run.string? text).map fun text => (text, false)
  else if lookup (py "type") part = some (.str (py "refusal")) then
    (lookup (py "refusal") part).bind fun text => (Run.string? text).map fun text => (text, true)
  else none

/-- One part of a message. -/
def parsePart (gathered : Gathered) (part : Json) : Except Outcome Gathered :=
  match part with
  | .object members => pure (match partText? members with
      | some (text, refuses) => { gathered with
          texts := gathered.texts ++ [text], refusal := gathered.refusal || refuses }
      | none => gathered)
  | _ => providerFault "provider_invalid_response"

/-- One item of a document's output. -/
def parseItem (gathered : Gathered) (item : Json) : Except Outcome Gathered :=
  match item with
  | .object members =>
    if lookup (py "type") members = some (.str (py "message")) then
      match (lookup (py "content") members).getD (.array []) with
      | .array parts => parts.foldlM parsePart gathered
      | _ => providerFault "provider_invalid_response"
    else if lookup (py "type") members = some (.str (py "function_call")) then do
      let call ← parseToolCall library members
      pure { gathered with calls := gathered.calls ++ [call] }
    else pure gathered
  | _ => providerFault "provider_invalid_response"

/-- `str(status or "unknown")`. -/
def statusReason (status : Json) : String :=
  match status with
  | .null | .bool false | .int 0 | .str [] | .array [] | .object [] => "unknown"
  | .str text => spellText text
  | other => library.str other

/-- Why a document's response ended. -/
def finishReasonOf (gathered : Gathered) (status : Json) : String :=
  if gathered.refusal = true then "refusal"
  else if gathered.calls ≠ [] then "tool_call"
  else if status = .str (py "incomplete") then "incomplete"
  else if status = .str (py "completed") then "stop"
  else statusReason library status

/-- What the text of a response holds when the request asks for structured output. -/
def structuredOutputOf (structured : Bool) (text : Option PyStr) : Except Outcome (Option Json) :=
  match text, structured with
  | some text, true => (loadsObject library text "provider_invalid_structured_output").map some
  | _, _ => pure none

/-- `_parse_response`. -/
def parseResponse (structured : Bool) (data : List (PyStr × Json)) :
    Except Outcome ProviderResponse := do
  let status := (lookup (py "status") data).getD .null
  raiseIf (status = .str (py "failed")) (.provider "provider_failed" false)
  let (items, usage) ← orRaise
    (match lookup (py "output") data, lookup (py "usage") data with
    | some (.array items), some (.object usage) => some (items, usage)
    | _, _ => none) (.provider "provider_invalid_response" false)
  let gathered ← items.foldlM (parseItem library) ⟨[], [], false⟩
  let text := if gathered.texts.flatten = [] then none else some gathered.texts.flatten
  let structuredOutput ← structuredOutputOf library structured text
  let read ← parseUsage usage
  pure {
    text := text, toolCalls := gathered.calls, structuredOutput := structuredOutput
    usage := read, finishReason := finishReasonOf library gathered status }

/-! ## What a document says -/

/-- The items of a document's output. -/
def documentItems (data : List (PyStr × Json)) : List Json :=
  ((lookup (py "output") data).bind items?).getD []

/-- What a part of a message says. -/
def partOf (part : Json) : Option (PyStr × Bool) :=
  match part with
  | .object members => partText? members
  | _ => none

/-- What the parts of an item say, if it is a message. -/
def itemParts (item : Json) : List (PyStr × Bool) :=
  if item.get? (py "type") = some (.str (py "message")) then
    (((item.get? (py "content")).bind items?).getD []).filterMap partOf
  else []

/-- An item asks for a call. -/
def IsCall (item : Json) : Prop := item.get? (py "type") = some (.str (py "function_call"))

/-- The call an item asks for. -/
def callOf (item : Json) : Option ProviderToolCall :=
  match item with
  | .object members =>
    if lookup (py "type") members = some (.str (py "function_call")) then
      (parseToolCall library members).toOption
    else none
  | _ => none

/-- The calls a document asks for. -/
def documentCalls (data : List (PyStr × Json)) : List ProviderToolCall :=
  (documentItems data).filterMap (callOf library)

/-- A message refuses. -/
def Refuses (item : Json) : Prop := ∃ part ∈ itemParts item, part.2 = true

/-- All that a document's messages say. -/
def documentText (data : List (PyStr × Json)) : PyStr :=
  ((documentItems data).flatMap itemParts).flatMap Prod.fst

/-- The tokens a document reports. -/
def tokensOf (data : List (PyStr × Json)) : Option (Int × Int) := do
  let usage ← lookup (py "usage") data
  let inputTokens ← (usage.get? (py "input_tokens")).bind pyInt?
  let outputTokens ← (usage.get? (py "output_tokens")).bind pyInt?
  pure (inputTokens.value, outputTokens.value)

/-- Calls that `_validate` accepts. -/
structure CallsValid (runtime : Runtime) (calls : List ProviderToolCall) : Prop where
  few : calls.length ≤ 16
  distinct : (calls.map fun call => call.id).Nodup
  named : ∀ call ∈ calls, call.id ≠ [] ∧ call.id.length ≤ 200 ∧ call.name ≠ []
  short : ((spelled runtime (.array (calls.map fun call =>
    call.arguments))).flatMap Connector.asciiPoint).length ≤ 100000

/-- A document that asks for calls exactly if it refuses, and whose calls, text and tokens the
executor accepts. -/
structure PlainlyIncomplete (deployment : Deployment) (attempt : Attempt)
    (data : List (PyStr × Json)) : Prop where
  settled : (∃ item ∈ documentItems data, IsCall item) ↔
    ∃ item ∈ documentItems data, Refuses item
  calls : CallsValid deployment.platform.runtime (documentCalls library data)
  text : (documentText data).length ≤ 100000
  tokens : ∃ inputTokens outputTokens, tokensOf data = some (inputTokens, outputTokens) ∧
    0 ≤ inputTokens ∧ 0 ≤ outputTokens ∧
      attempt.totalTokens + (inputTokens + outputTokens) ≤ attempt.profile.maxTotalTokens

/-- The executor dispatches no call of a response and does not take it for an answer: it ends the
run over it. -/
structure WithoutEffect (deployment : Deployment) (attempt : Attempt)
    (response : ProviderResponse) : Prop where
  notDispatched : ∀ next, attempt.judge deployment response ≠ .ok next
  notSucceeded : attempt.judge deployment response ≠ .error .succeeded
  ends : attempt.judge deployment response = .error (.terminal "model_response_incomplete")

/-! ## What is read of a document -/

variable {library} {gathered next : Gathered} {data : List (PyStr × Json)}

/-- What is read after something else. -/
structure Gathered.Extends (before after : Gathered) (parts : List (PyStr × Bool)) : Prop where
  texts : after.texts = before.texts ++ parts.map Prod.fst
  refusal : after.refusal = true ↔ before.refusal = true ∨ ∃ part ∈ parts, part.2 = true

theorem Gathered.Extends.trans {first second third : Gathered} {parts others : List (PyStr × Bool)}
    (left : first.Extends second parts) (right : second.Extends third others) :
    first.Extends third (parts ++ others) where
  texts := by rw [right.texts, left.texts, List.map_append, List.append_assoc]
  refusal := by
    rw [right.refusal, left.refusal, or_assoc]
    apply or_congr_right
    simp only [List.mem_append, or_and_right, exists_or]

theorem Gathered.Extends.refl (gathered : Gathered) : gathered.Extends gathered [] :=
  ⟨by simp, by simp⟩

theorem parsePart_extends {part : Json} (ok : parsePart gathered part = .ok next) :
    gathered.Extends next (partOf part).toList ∧ next.calls = gathered.calls := by
  unfold parsePart at ok
  split at ok
  case h_2 => cases ok
  case h_1 members =>
    have isPart : partOf (.object members) = partText? members := rfl
    rw [isPart]
    cases said : partText? members with
    | none =>
      rw [said, pure_eq_ok] at ok
      subst ok
      exact ⟨.refl _, rfl⟩
    | some part =>
      rw [said, pure_eq_ok] at ok
      subst ok
      exact ⟨⟨rfl, by simp⟩, rfl⟩

theorem parseParts_extends {parts : List Json} (ok : parts.foldlM parsePart gathered = .ok next) :
    gathered.Extends next (parts.filterMap partOf) ∧ next.calls = gathered.calls := by
  induction parts generalizing gathered with
  | nil =>
    rw [List.foldlM_nil, pure_eq_ok] at ok
    subst ok
    exact ⟨.refl _, rfl⟩
  | cons part rest ih =>
    rw [List.foldlM_cons, bind_eq_ok] at ok
    obtain ⟨middle, first, later⟩ := ok
    obtain ⟨one, calls⟩ := parsePart_extends first
    obtain ⟨others, same⟩ := ih later
    refine ⟨?_, same.trans calls⟩
    have both := one.trans others
    cases said : partOf part with
    | none =>
      rw [said] at both
      rwa [List.filterMap_cons_none said]
    | some text =>
      rw [said] at both
      rwa [List.filterMap_cons_some said]

theorem parseItem_extends {item : Json} (ok : parseItem library gathered item = .ok next) :
    gathered.Extends next (itemParts item) ∧
      next.calls = gathered.calls ++ (callOf library item).toList ∧
        ((callOf library item).isSome = true ↔ IsCall item) := by
  unfold parseItem at ok
  split at ok
  case h_2 => cases ok
  case h_1 members =>
    have asked : callOf library (.object members) =
        if lookup (py "type") members = some (.str (py "function_call")) then
          (parseToolCall library members).toOption
        else none := rfl
    unfold itemParts IsCall
    rw [get?, get?, asked]
    split at ok
    case isTrue message =>
      have noCall : ¬ lookup (py "type") members = some (.str (py "function_call")) := by
        rw [message]
        simp [py]
      rw [if_pos message, if_neg noCall]
      split at ok
      case h_2 => cases ok
      case h_1 parts content =>
        obtain ⟨extends_, calls⟩ := parseParts_extends ok
        have same : ((lookup (py "content") members).bind items?).getD [] = parts := by
          cases given : lookup (py "content") members with
          | none =>
            rw [given] at content
            cases content
            rfl
          | some value =>
            rw [given] at content
            cases content
            rfl
        rw [same]
        exact ⟨extends_, by simp [calls], by simp [noCall]⟩
    case isFalse message =>
      rw [if_neg message]
      split at ok
      case isTrue call =>
        rw [bind_eq_ok] at ok
        obtain ⟨parsed, isCall, ok⟩ := ok
        rw [pure_eq_ok] at ok
        subst ok
        rw [if_pos call, isCall]
        exact ⟨⟨by simp, by simp⟩, rfl, by simp [call, Except.toOption]⟩
      case isFalse call =>
        rw [pure_eq_ok] at ok
        subst ok
        rw [if_neg call]
        exact ⟨⟨by simp, by simp⟩, by simp, by simp [call]⟩

theorem parseItems_extends {items : List Json}
    (ok : items.foldlM (parseItem library) gathered = .ok next) :
    gathered.Extends next (items.flatMap itemParts) ∧
      next.calls = gathered.calls ++ items.filterMap (callOf library) ∧
        ∀ item ∈ items, (callOf library item).isSome = true ↔ IsCall item := by
  induction items generalizing gathered with
  | nil =>
    rw [List.foldlM_nil, pure_eq_ok] at ok
    subst ok
    exact ⟨.refl _, by simp, by simp⟩
  | cons item rest ih =>
    rw [List.foldlM_cons, bind_eq_ok] at ok
    obtain ⟨middle, first, later⟩ := ok
    obtain ⟨one, call, own⟩ := parseItem_extends first
    obtain ⟨others, more, each⟩ := ih later
    refine ⟨one.trans others, ?_, List.forall_mem_cons.mpr ⟨own, each⟩⟩
    rw [more, call, List.append_assoc]
    cases isCall : callOf library item with
    | none => rw [List.filterMap_cons_none isCall, Option.toList_none, List.nil_append]
    | some found =>
      rw [List.filterMap_cons_some isCall, Option.toList_some, List.singleton_append]

/-- What a response holds of the document it was read from. -/
structure Reads (library : DocumentLibrary) (data : List (PyStr × Json))
    (response : ProviderResponse) : Prop where
  text : response.text.getD [] = documentText data
  calls : response.toolCalls = documentCalls library data
  called : (∃ item ∈ documentItems data, IsCall item) ↔ response.toolCalls ≠ []
  tokens : tokensOf data =
    some (response.usage.inputTokens.value, response.usage.outputTokens.value)
  reason : ∃ gathered : Gathered, gathered.calls = response.toolCalls ∧
    (gathered.refusal = true ↔ ∃ item ∈ documentItems data, Refuses item) ∧
      response.finishReason =
        finishReasonOf library gathered ((lookup (py "status") data).getD .null)

theorem tokensOf_of_parseUsage {data usage : List (PyStr × Json)} {read : ProviderUsage}
    (given : lookup (py "usage") data = some (.object usage))
    (parsed : parseUsage usage = .ok read) :
    tokensOf data = some (read.inputTokens.value, read.outputTokens.value) := by
  simp only [parseUsage, bind_eq_ok, orRaise_eq_ok, pure_eq_ok] at parsed
  obtain ⟨inputTokens, isInput, outputTokens, isOutput, rfl⟩ := parsed
  simp [tokensOf, given, get?, isInput, isOutput]

theorem reads_of_parseResponse {structured : Bool} {response : ProviderResponse}
    (parsed : parseResponse library structured data = .ok response) :
    Reads library data response := by
  unfold parseResponse at parsed
  simp only [bind_eq_ok, raiseIf_eq_ok, orRaise_eq_ok, pure_eq_ok] at parsed
  obtain ⟨_, _, ⟨items, usage⟩, given, gathered, read, structuredOutput, _, tokens, counted, rfl⟩ :=
    parsed
  split at given
  case h_2 => cases given
  case h_1 _ _ output reported =>
    cases given
    have items_ : documentItems data = items := by
      unfold documentItems
      rw [output]
      rfl
    obtain ⟨extends_, calls, each⟩ := parseItems_extends read
    rw [List.nil_append] at calls
    have refusals : gathered.refusal = true ↔ ∃ item ∈ documentItems data, Refuses item := by
      rw [extends_.refusal, items_]
      simp only [Bool.false_eq_true, false_or, List.mem_flatMap, Refuses]
      constructor
      · rintro ⟨part, ⟨item, member, inside⟩, refuses⟩
        exact ⟨item, member, part, inside, refuses⟩
      · rintro ⟨item, member, part, inside, refuses⟩
        exact ⟨part, ⟨item, member, inside⟩, refuses⟩
    refine ⟨?_, ?_, ?_, tokensOf_of_parseUsage reported counted, gathered, rfl, refusals, rfl⟩
    · have said : gathered.texts.flatten = documentText data := by
        rw [extends_.texts, documentText, items_]
        simp [List.flatMap]
      rw [← said]
      split
      case isTrue empty =>
        rw [empty]
        rfl
      case isFalse => rfl
    · rw [documentCalls, items_]
      exact calls
    · rw [items_]
      change _ ↔ gathered.calls ≠ []
      rw [calls, Ne, List.filterMap_eq_nil_iff]
      push Not
      apply exists_congr
      intro item
      apply and_congr_right
      intro member
      rw [← each item member, Option.isSome_iff_ne_none]

/-- `_validate` looks at the calls, the text and the usage of a response. -/
theorem validate_eq_ok {runtime : Runtime} {response : ProviderResponse} :
    response.validate runtime = .ok () ↔
      CallsValid runtime response.toolCalls ∧ (response.text.getD []).length ≤ 100000 ∧
        0 ≤ response.usage.inputTokens.value ∧ 0 ≤ response.usage.outputTokens.value := by
  have named : response.toolCalls.any (fun call =>
      call.id = [] || 200 < call.id.length || call.name = []) = false ↔
        ∀ call ∈ response.toolCalls, call.id ≠ [] ∧ call.id.length ≤ 200 ∧ call.name ≠ [] := by
    rw [List.any_eq_false]
    apply forall₂_congr
    intro call _
    simp only [Bool.or_eq_true, decide_eq_true_eq, not_or, not_lt, and_assoc]
  simp only [ProviderResponse.validate, bind_eq_ok, raiseIf_eq_ok, not_or, not_lt, not_not,
    exists_and_left, exists_const, Bool.not_eq_true, named]
  constructor
  · rintro ⟨⟨few, distinct, each, text, inputTokens, outputTokens⟩, short⟩
    exact ⟨⟨few, distinct, each, short⟩, text, inputTokens, outputTokens⟩
  · rintro ⟨⟨few, distinct, each, short⟩, text, inputTokens, outputTokens⟩
    exact ⟨⟨few, distinct, each, text, inputTokens, outputTokens⟩, short⟩

/-! ## What the executor makes of it -/

section Judging

variable {deployment : Deployment} {attempt : Attempt} {response : ProviderResponse}

/-- The executor takes a response for the run's answer. -/
def ProviderResponse.Answers (response : ProviderResponse) : Prop :=
  (response.finishReason = "stop" ∨ response.finishReason = "refusal") ∧ response.toolCalls = []

/-- The executor dispatches a response's calls. -/
def ProviderResponse.Calls (response : ProviderResponse) : Prop :=
  response.finishReason = "tool_call" ∧ response.toolCalls ≠ []

theorem validate_spares {runtime : Runtime} :
    Spares (· = Outcome.terminal "model_response_incomplete") (response.validate runtime) := by
  unfold ProviderResponse.validate
  apply Spares.bind
  · exact .raiseIf (by simp)
  · intro _ _
    exact .raiseIf (by simp)

theorem judge_incomplete_iff :
    attempt.judge deployment response = .error (.terminal "model_response_incomplete") ↔
      response.validate deployment.platform.runtime = .ok () ∧
        attempt.totalTokens + (response.usage.inputTokens.value +
          response.usage.outputTokens.value) ≤ attempt.profile.maxTotalTokens ∧
        ¬ response.Answers ∧ ¬ response.Calls := by
  have other : response.validate deployment.platform.runtime ≠
      .error (.terminal "model_response_incomplete") :=
    fun failed => validate_spares _ failed rfl
  have unfolded : attempt.judge deployment response =
      .error (.terminal "model_response_incomplete") ↔
        response.validate deployment.platform.runtime = .ok () ∧
          ¬ (attempt.profile.maxTotalTokens : Int) < attempt.totalTokens +
            (response.usage.inputTokens.value + response.usage.outputTokens.value) ∧
          ¬ response.Answers ∧
          (response.finishReason ≠ "tool_call" ∨ response.toolCalls = []) := by
    unfold Attempt.judge ProviderResponse.Answers
    by_cases answers : (response.finishReason = "stop" ∨ response.finishReason = "refusal") ∧
        response.toolCalls = []
    · simp [bind_eq_error, raiseIf_eq_error, other, answers]
    · have same : (∃ result, response.validate deployment.platform.runtime = .ok result) ↔
          response.validate deployment.platform.runtime = .ok () :=
        ⟨fun ⟨_, ok⟩ => ok, fun ok => ⟨(), ok⟩⟩
      simp only [bind_eq_error, raiseIf_eq_error, other, answers, false_or]
      simp [bind_eq_error, raiseIf_eq_error, pure, Except.pure, same]
  rw [unfolded, not_lt, ProviderResponse.Calls, not_and_or, not_not]

/-- The executor ends a run over a response to an incomplete document exactly if the document
refuses and asks for calls, or does neither. -/
theorem settled_iff (reads : Reads library data response)
    (incomplete : lookup (py "status") data = some (.str (py "incomplete"))) :
    ¬ response.Answers ∧ ¬ response.Calls ↔
      ((∃ item ∈ documentItems data, IsCall item) ↔
        ∃ item ∈ documentItems data, Refuses item) := by
  obtain ⟨gathered, calls, refusal, reason⟩ := reads.reason
  rw [reads.called, ← refusal, ← calls]
  unfold ProviderResponse.Answers ProviderResponse.Calls
  rw [reason, incomplete, ← calls, Option.getD_some, finishReasonOf]
  by_cases refuses : gathered.refusal = true
  · simp [refuses]
  · by_cases none : gathered.calls = []
    · simp [refuses, none]
    · simp [refuses, none]

/-- An incomplete document has no effect exactly if it is plainly incomplete. -/
theorem incomplete_without_effect_iff {structured : Bool} {data : List (PyStr × Json)}
    (incomplete : lookup (py "status") data = some (.str (py "incomplete")))
    (parsed : parseResponse library structured data = .ok response) :
    WithoutEffect deployment attempt response ↔
      PlainlyIncomplete library deployment attempt data := by
  have reads := reads_of_parseResponse parsed
  have onlyEnds : WithoutEffect deployment attempt response ↔
      attempt.judge deployment response = .error (.terminal "model_response_incomplete") := by
    constructor
    · exact WithoutEffect.ends
    · intro ends
      refine ⟨?_, ?_, ends⟩
      · rw [ends]
        simp
      · rw [ends]
        simp
  rw [onlyEnds, judge_incomplete_iff, validate_eq_ok, settled_iff reads incomplete, reads.text,
    reads.calls]
  constructor
  · rintro ⟨⟨calls, text, inputTokens, outputTokens⟩, budget, settled⟩
    exact ⟨settled, calls, text, _, _, reads.tokens, inputTokens, outputTokens, budget⟩
  · rintro ⟨settled, calls, text, inputTokens, outputTokens, tokens, inputs, outputs, budget⟩
    rw [reads.tokens] at tokens
    cases tokens
    exact ⟨⟨calls, text, inputs, outputs⟩, budget, settled⟩

end Judging

/-- Libraries that read every text as an empty object. -/
def exampleLibrary : DocumentLibrary := ⟨fun _ => .value (.object []), fun _ => "other"⟩

/-- An incomplete document with some output. -/
def incompleteDocument (output : List Json) : List (PyStr × Json) :=
  [(py "status", .str (py "incomplete")), (py "output", .array output),
    (py "usage", .object [(py "input_tokens", .int 3), (py "output_tokens", .int 4)])]

/-- A message with one part. -/
def messageItem (part : List (PyStr × Json)) : Json :=
  .object [(py "type", .str (py "message")), (py "content", .array [.object part])]

/-- A message that says something. -/
def sayingItem : Json :=
  messageItem [(py "type", .str (py "output_text")), (py "text", .str (py "The answer"))]

/-- A message that refuses. -/
def refusingItem : Json :=
  messageItem [(py "type", .str (py "refusal")), (py "refusal", .str (py "I can"))]

/-- A call of a tool. -/
def callingItem : Json :=
  .object [(py "type", .str (py "function_call")), (py "call_id", .str (py "call")),
    (py "name", .str (py "tool")), (py "arguments", .str (py "\x7b\x7d"))]

theorem opening_profiled : (exampleDeployment.profiles []).isSome = true := rfl

/-- An attempt at its first step. -/
def openingAttempt : Attempt where
  profile := (exampleDeployment.profiles []).get opening_profiled
  advertised := []
  messages := []
  evidenceHash := none
  stepNo := 0
  totalTokens := 0
  place := .looping

/-- `incomplete_without_effect_iff` applies to a document that was cut off in its text. -/
theorem incomplete_without_effect_iff_cut :
    ∃ response, response.finishReason = "incomplete" ∧
      (WithoutEffect exampleDeployment openingAttempt response ↔
        PlainlyIncomplete exampleLibrary exampleDeployment openingAttempt
          (incompleteDocument [sayingItem])) := by
  have parsed : parseResponse exampleLibrary false (incompleteDocument [sayingItem]) =
      .ok ⟨some (py "The answer"), [], none, ⟨.int 3, .int 4⟩, "incomplete"⟩ := by
    rfl
  exact ⟨_, rfl, incomplete_without_effect_iff (by decide) parsed⟩

/-- A call of an incomplete document is dispatched, and its refusal is a run's answer. -/
theorem incomplete_takes_effect :
    (∃ response next,
      parseResponse exampleLibrary false (incompleteDocument [callingItem]) = .ok response ∧
        openingAttempt.judge exampleDeployment response = .ok next) ∧
    ∃ response,
      parseResponse exampleLibrary false (incompleteDocument [refusingItem]) = .ok response ∧
        openingAttempt.judge exampleDeployment response = .error .succeeded := by
  constructor
  · exact ⟨⟨none, [⟨py "call", py "tool", .object []⟩], none, ⟨.int 3, .int 4⟩, "tool_call"⟩,
      { openingAttempt with
        totalTokens := 7, place := .calling 0 [⟨py "call", py "tool", .object []⟩] }, rfl, rfl⟩
  · exact ⟨⟨some (py "I can"), [], none, ⟨.int 3, .int 4⟩, "refusal"⟩, rfl, rfl⟩

end Nexora.Executor
