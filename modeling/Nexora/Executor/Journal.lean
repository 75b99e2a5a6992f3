import Nexora.Run.State
import Nexora.Executor.Provider

/-!
# How a response is journalled

A response is stored as the object `asdict` makes of it, and `jsonb` gives an object's members
back in an order of its own. The executor reads the row again through `decode_response`; that
reading gives the response back, but for the JSON inside it, which is as `jsonb` keeps it.
-/

namespace Nexora.Executor

open Nexora.Std Nexora.Tools Json

/-- A list is read when each of its items is. -/
theorem mapM_eq_some {α β : Type} {read : α → Option β} {value : α → β} {items : List α}
    (each : ∀ item ∈ items, read item = some (value item)) :
    items.mapM read = some (items.map value) := by
  induction items with
  | nil => rfl
  | cons item rest ih =>
    have others := ih fun other member => each other (List.mem_cons_of_mem _ member)
    rw [List.mapM_cons, each item List.mem_cons_self, others]
    rfl

/-- A list with an item that cannot be read is not read. -/
theorem mapM_eq_none {α β : Type} {read : α → Option β} {item : α} {items : List α}
    (member : item ∈ items) (unread : read item = none) : items.mapM read = none := by
  induction items with
  | nil => cases member
  | cons first rest ih =>
    rw [List.mapM_cons]
    rcases List.mem_cons.mp member with rfl | later
    · rw [unread]
      rfl
    · cases read first with
      | none => rfl
      | some value =>
        rw [ih later]
        rfl

/-- The `str` a code point sequence without surrogates spells. -/
def spellText (text : PyStr) : String := String.ofList (text.map fun point => Char.ofNat point.val)

@[simp]
theorem spellText_py (text : String) : spellText (py text) = text := by
  simp [spellText, py, Function.comp_def]

/-- `asdict` of a tool call. -/
def ProviderToolCall.asDict (call : ProviderToolCall) : Json :=
  .object [(py "id", .str call.id), (py "name", .str call.name),
    (py "arguments", call.arguments)]

/-- A number as JSON. -/
def PyInt.asJson : PyInt → Json
  | .int value => .int value
  | .bool value => .bool value

/-- `asdict` of a usage. -/
def ProviderUsage.asDict (usage : ProviderUsage) : Json :=
  .object [(py "input_tokens", usage.inputTokens.asJson),
    (py "output_tokens", usage.outputTokens.asJson)]

/-- `asdict` of a response. -/
def ProviderResponse.asDict (response : ProviderResponse) : Json :=
  .object [(py "text", (response.text.map Json.str).getD .null),
    (py "tool_calls", .array (response.toolCalls.map ProviderToolCall.asDict)),
    (py "structured_output", response.structuredOutput.getD .null),
    (py "usage", response.usage.asDict), (py "finish_reason", .str (py response.finishReason))]

/-- The instance of `int` a value is. -/
def pyInt? : Json → Option PyInt
  | .int value => some (.int value)
  | .bool value => some (.bool value)
  | _ => none

/-- A text, or none where the value is `null`. -/
def optionalText? : Json → Option (Option PyStr)
  | .null => some none
  | .str text => some (some text)
  | _ => none

/-- A value, or none where it is `null`. -/
def optional : Json → Option Json
  | .null => none
  | value => some value

/-- The items of an array. -/
def items? : Json → Option (List Json)
  | .array items => some items
  | _ => none

/-- The members of an object that has the named ones and no others. -/
def exactly? (names : List String) : Json → Option (List (PyStr × Json))
  | .object members =>
    if members.all fun member => names.any fun name => member.1 = py name then some members
    else none
  | _ => none

/-- `ProviderToolCall(**call)`. -/
def decodeCall (value : Json) : Option ProviderToolCall := do
  let members ← exactly? ["id", "name", "arguments"] value
  let id ← (lookup (py "id") members).bind Run.string?
  let name ← (lookup (py "name") members).bind Run.string?
  let arguments ← lookup (py "arguments") members
  pure ⟨id, name, arguments⟩

/-- `ProviderUsage(**usage)`. -/
def decodeUsage (value : Json) : Option ProviderUsage := do
  let members ← exactly? ["input_tokens", "output_tokens"] value
  let inputTokens ← (lookup (py "input_tokens") members).bind pyInt?
  let outputTokens ← (lookup (py "output_tokens") members).bind pyInt?
  pure ⟨inputTokens, outputTokens⟩

/-- `decode_response`. -/
def decodeResponse (value : Json) : Option ProviderResponse := do
  let text ← (value.get? (py "text")).bind optionalText?
  let toolCalls ← ((value.get? (py "tool_calls")).bind items?).bind fun items =>
    items.mapM decodeCall
  let structuredOutput ← value.get? (py "structured_output")
  let usage ← (value.get? (py "usage")).bind decodeUsage
  let finishReason ← (value.get? (py "finish_reason")).bind Run.string?
  pure ⟨text, toolCalls, optional structuredOutput, usage, spellText finishReason⟩

@[simp]
theorem pyInt?_asJson (number : PyInt) : pyInt? number.asJson = some number := by
  cases number <;> rfl

/-- What `jsonb` keeps of a value: texts, integers, booleans and `null` as they are, the items
of an array in their order, and the members of an object under their names. -/
structure KeepsValues (jsonb : Json → Json) : Prop where
  null : jsonb .null = .null
  int (value : Int) : jsonb (.int value) = .int value
  bool (value : Bool) : jsonb (.bool value) = .bool value
  str (text : PyStr) : jsonb (.str text) = .str text
  array (items : List Json) : jsonb (.array items) = .array (items.map jsonb)
  object (members : List (PyStr × Json)) : ∃ stored, jsonb (.object members) = .object stored ∧
    ∀ key, lookup key stored = (lookup key members).map jsonb

theorem keepsValues_id : KeepsValues id :=
  ⟨rfl, fun _ => rfl, fun _ => rfl, fun _ => rfl, fun items => by simp,
    fun members => ⟨members, rfl, by simp⟩⟩

/-- A tool call as the journal gives it back. -/
def ProviderToolCall.kept (jsonb : Json → Json) (call : ProviderToolCall) : ProviderToolCall :=
  { call with arguments := jsonb call.arguments }

/-- A response as the journal gives it back. -/
def ProviderResponse.kept (jsonb : Json → Json) (response : ProviderResponse) :
    ProviderResponse :=
  { response with
    toolCalls := response.toolCalls.map (ProviderToolCall.kept jsonb)
    structuredOutput := optional (jsonb (response.structuredOutput.getD .null)) }

variable {members : List (PyStr × Json)}

/-- A member of an object is found under its name. -/
theorem isSome_lookup {member : PyStr × Json} (present : member ∈ members) :
    (lookup member.1 members).isSome := by
  induction members with
  | nil => cases present
  | cons first rest ih =>
    rw [lookup]
    split
    · rfl
    · rcases List.mem_cons.mp present with rfl | later
      · contradiction
      · exact ih later

/-- What is found under a name is a member of the object. -/
theorem exists_of_lookup {key : PyStr} (isThere : (lookup key members).isSome) :
    ∃ member ∈ members, member.1 = key := by
  induction members with
  | nil => cases isThere
  | cons first rest ih =>
    rw [lookup] at isThere
    split at isThere
    case isTrue same => exact ⟨first, List.mem_cons_self, same⟩
    case isFalse =>
      obtain ⟨member, present, same⟩ := ih isThere
      exact ⟨member, List.mem_cons_of_mem _ present, same⟩

namespace KeepsValues

variable {jsonb : Json → Json} (keeps : KeepsValues jsonb)

include keeps

/-- An object is read back member by member. -/
theorem get?_object (members : List (PyStr × Json)) (key : PyStr) :
    (jsonb (.object members)).get? key = (lookup key members).map jsonb := by
  obtain ⟨stored, same, found⟩ := keeps.object members
  rw [same]
  exact found key

/-- A number comes back as it was. -/
theorem pyInt (number : PyInt) : jsonb number.asJson = number.asJson := by
  cases number with
  | int value => exact keeps.int value
  | bool value => exact keeps.bool value

/-- An object comes back with the members it was written with. -/
theorem exactly?_object (names : List String) (members : List (PyStr × Json))
    (named : ∀ member ∈ members, ∃ name ∈ names, member.1 = py name) :
    ∃ stored, exactly? names (jsonb (.object members)) = some stored ∧
      ∀ key, lookup key stored = (lookup key members).map jsonb := by
  obtain ⟨stored, same, found⟩ := keeps.object members
  refine ⟨stored, ?_, found⟩
  have every : stored.all fun member => names.any fun name => member.1 = py name := by
    rw [List.all_eq_true]
    intro member present
    have isThere : (lookup member.1 stored).isSome := isSome_lookup present
    rw [found, Option.isSome_map] at isThere
    obtain ⟨written, wrote, same⟩ := exists_of_lookup isThere
    obtain ⟨name, listed, spelled⟩ := named written wrote
    exact List.any_eq_true.mpr ⟨name, listed, decide_eq_true (same.symm.trans spelled)⟩
  rw [same, exactly?, if_pos every]

/-- A tool call is decoded as it was written, its arguments as the journal keeps them. -/
theorem decodeCall_asDict (call : ProviderToolCall) :
    decodeCall (jsonb call.asDict) = some (call.kept jsonb) := by
  obtain ⟨stored, read, found⟩ := keeps.exactly?_object ["id", "name", "arguments"]
    [(py "id", .str call.id), (py "name", .str call.name), (py "arguments", call.arguments)]
    (by simp)
  have id : lookup (py "id") stored = some (.str call.id) := by
    rw [found, lookup, if_pos rfl, Option.map_some, keeps.str]
  have name : lookup (py "name") stored = some (.str call.name) := by
    rw [found, lookup, if_neg (by decide), lookup, if_pos rfl, Option.map_some, keeps.str]
  have arguments : lookup (py "arguments") stored = some (jsonb call.arguments) := by
    rw [found, lookup, if_neg (by decide), lookup, if_neg (by decide), lookup, if_pos rfl,
      Option.map_some]
  simp [decodeCall, ProviderToolCall.asDict, read, id, name, arguments, Run.string?,
    ProviderToolCall.kept]

/-- A usage is decoded as it was written. -/
theorem decodeUsage_asDict (usage : ProviderUsage) :
    decodeUsage (jsonb usage.asDict) = some usage := by
  obtain ⟨stored, read, found⟩ := keeps.exactly?_object ["input_tokens", "output_tokens"]
    [(py "input_tokens", usage.inputTokens.asJson),
      (py "output_tokens", usage.outputTokens.asJson)] (by simp)
  have inputTokens : lookup (py "input_tokens") stored = some usage.inputTokens.asJson := by
    rw [found, lookup, if_pos rfl, Option.map_some, keeps.pyInt]
  have outputTokens : lookup (py "output_tokens") stored = some usage.outputTokens.asJson := by
    rw [found, lookup, if_neg (by decide), lookup, if_pos rfl, Option.map_some, keeps.pyInt]
  simp [decodeUsage, ProviderUsage.asDict, read, inputTokens, outputTokens, pyInt?_asJson]

/-- The members a journalled response is read back with. -/
theorem get?_asDict (response : ProviderResponse) :
    (jsonb response.asDict).get? (py "text") =
        some ((response.text.map Json.str).getD .null) ∧
      (jsonb response.asDict).get? (py "tool_calls") =
        some (.array (response.toolCalls.map fun call => jsonb call.asDict)) ∧
      (jsonb response.asDict).get? (py "structured_output") =
        some (jsonb (response.structuredOutput.getD .null)) ∧
      (jsonb response.asDict).get? (py "usage") = some (jsonb response.usage.asDict) ∧
      (jsonb response.asDict).get? (py "finish_reason") =
        some (.str (py response.finishReason)) := by
  have text : jsonb ((response.text.map Json.str).getD .null) =
      (response.text.map Json.str).getD .null := by
    cases response.text with
    | none => exact keeps.null
    | some text => exact keeps.str text
  simp only [ProviderResponse.asDict, keeps.get?_object]
  refine ⟨?_, ?_, ?_, ?_, ?_⟩
  · rw [lookup, if_pos rfl, Option.map_some, text]
  · rw [lookup, if_neg (by decide), lookup, if_pos rfl, Option.map_some, keeps.array,
      List.map_map]
    rfl
  · rw [lookup, if_neg (by decide), lookup, if_neg (by decide), lookup, if_pos rfl,
      Option.map_some]
  · rw [lookup, if_neg (by decide), lookup, if_neg (by decide), lookup, if_neg (by decide),
      lookup, if_pos rfl, Option.map_some]
  · rw [lookup, if_neg (by decide), lookup, if_neg (by decide), lookup, if_neg (by decide),
      lookup, if_neg (by decide), lookup, if_pos rfl, Option.map_some, keeps.str]

/-- A response is decoded as it was written, but for the JSON in it. -/
theorem decodeResponse_asDict (response : ProviderResponse) :
    decodeResponse (jsonb response.asDict) = some (response.kept jsonb) := by
  obtain ⟨text, toolCalls, structuredOutput, usage, finishReason⟩ := keeps.get?_asDict response
  have texts : optionalText? ((response.text.map Json.str).getD .null) = some response.text := by
    cases response.text <;> rfl
  have calls : (response.toolCalls.map fun call => jsonb call.asDict).mapM decodeCall =
      some (response.toolCalls.map (ProviderToolCall.kept jsonb)) := by
    rw [List.mapM_map]
    exact mapM_eq_some fun call _ => keeps.decodeCall_asDict call
  simp [decodeResponse, text, toolCalls, structuredOutput, usage, finishReason, texts, items?,
    calls, keeps.decodeUsage_asDict, Run.string?, ProviderResponse.kept]

end KeepsValues

end Nexora.Executor
