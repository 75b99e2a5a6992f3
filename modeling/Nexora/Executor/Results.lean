import Nexora.Executor.Runs

/-!
# What a run's requester reads of it

`get_result` validates every journalled response by a schema of its own before it sums a run
up. It and `_validate` agree on a response, with two exceptions: the schema bounds the length of
a tool's name by 200 characters, and takes no boolean for a number of tokens.
-/

namespace Nexora.Executor

open Nexora.Std Nexora.Workspace Nexora.Tools Json

/-- `_ToolSelection.model_validate`: the name of a call. -/
def selection? (value : Json) : Option PyStr :=
  ((value.get? (py "name")).bind Run.string?).filter fun name =>
    1 ≤ name.length ∧ name.length ≤ 200

/-- The integer a value is, if it is no boolean. -/
def int? : Json → Option Int
  | .int value => some value
  | _ => none

/-- `_Usage` of the results. -/
structure RecordedUsage where
  inputTokens : Int
  outputTokens : Int
  deriving DecidableEq

/-- `_Usage.model_validate`, which is strict. -/
def usage? (value : Json) : Option RecordedUsage := do
  let inputTokens ← (value.get? (py "input_tokens")).bind int?
  let outputTokens ← (value.get? (py "output_tokens")).bind int?
  guard (0 ≤ inputTokens ∧ 0 ≤ outputTokens)
  pure ⟨inputTokens, outputTokens⟩

/-- `_Response` of the results. -/
structure RecordedResponse where
  text : Option PyStr
  toolCalls : List PyStr
  usage : RecordedUsage
  finishReason : PyStr
  deriving DecidableEq

/-- `_Response.model_validate`. -/
def recorded? (value : Json) : Option RecordedResponse := do
  let text ← ((value.get? (py "text")).bind optionalText?).filter fun text =>
    (text.getD []).length ≤ 100000
  let items ← ((value.get? (py "tool_calls")).bind items?).filter fun items => items.length ≤ 16
  let toolCalls ← items.mapM selection?
  let usage ← (value.get? (py "usage")).bind usage?
  let finishReason ← (value.get? (py "finish_reason")).bind Run.string?
  pure ⟨text, toolCalls, usage, finishReason⟩

/-- `RecordedModelStep`. -/
structure RecordedModelStep where
  stepNo : Nat
  provider : String
  model : String
  finishReason : PyStr
  inputTokens : Int
  outputTokens : Int
  deriving DecidableEq

/-- `AgentRunResult`. -/
structure AgentRunResult where
  runId : Uuid
  workspaceId : Uuid
  agentId : Uuid
  traceId : Uuid
  status : Run.RunStatus
  outputText : Option PyStr
  finishReason : Option PyStr
  failureCode : Option PyStr
  recordedInputTokens : Int
  recordedOutputTokens : Int
  selectedTools : List PyStr
  modelSteps : List RecordedModelStep
  deriving DecidableEq

/-- The step of a row whose response is valid. -/
def recordedStep (row : Nat × Run.ModelStep) (response : RecordedResponse) :
    RecordedModelStep where
  stepNo := row.1
  provider := row.2.provider
  model := row.2.model
  finishReason := response.finishReason
  inputTokens := response.usage.inputTokens
  outputTokens := response.usage.outputTokens

/-- The output and the reason a run ended with, read off its last response. -/
def outputOf (status : Run.RunStatus) (last : Option RecordedResponse) :
    Except Failure (Option PyStr × Option PyStr) :=
  if status = .succeeded then do
    let last ← orRaise (last.filter fun response =>
      (response.finishReason = py "stop" ∨ response.finishReason = py "refusal") ∧
        response.toolCalls = []) (.valueError "run_result_unavailable")
    raiseIf (last.text.getD [] = []) (.valueError "run_result_unavailable")
    pure (last.text, some last.finishReason)
  else pure (none, none)

/-- `summarize_result`. -/
def summarizeResult (runId : Uuid) (run : Run.AgentRun) (rows : List (Nat × Run.ModelStep)) :
    Except Failure AgentRunResult := do
  raiseIf (run.status.isTerminal = false) (.valueError "run_result_not_ready")
  raiseIf (32 < rows.length ∨ rows.map Prod.fst ≠ List.range rows.length)
    (.valueError "run_result_unavailable")
  let responses ← orRaise (rows.mapM fun row => recorded? row.2.response)
    (.valueError "validation error for _Response")
  let (outputText, finishReason) ← outputOf run.status responses.getLast?
  let steps := List.zipWith recordedStep rows responses
  pure {
    runId := runId, workspaceId := run.workspaceId, agentId := run.target.agentId
    traceId := run.traceId, status := run.status, outputText := outputText
    finishReason := finishReason, failureCode := run.failureCode
    recordedInputTokens := (steps.map RecordedModelStep.inputTokens).sum
    recordedOutputTokens := (steps.map RecordedModelStep.outputTokens).sum
    selectedTools := orderBy id (responses.flatMap RecordedResponse.toolCalls).dedup
    modelSteps := steps }

/-- The steps of a run's journal in order. -/
def journalOf (store : Run.Store) (runId : Uuid) : List (Nat × Run.ModelStep) :=
  orderBy Prod.fst ((store.modelSteps.select fun key _ => key.1 = runId).map fun entry =>
    (entry.1.2, entry.2))

/-- `get_result`. -/
def getResult (store : Run.Store) (principal : Principal) (workspaceId runId : Uuid) :
    Except Failure AgentRunResult := do
  scopedMember store.memberships principal workspaceId .read
  let run ← found ((store.runIn workspaceId runId).filter fun run => run.requestedBy = principal)
  raiseIf (run.status.isTerminal = false) (.http 409 (some "run_result_not_ready"))
  (summarizeResult runId run ((journalOf store runId).take 33)).mapError fun _ =>
    .http 409 (some "run_result_unavailable")

/-- What results ask of a response beyond `_validate`: names of at most 200 characters, and
numbers of tokens that are no booleans. -/
structure ProviderResponse.Fits (response : ProviderResponse) : Prop where
  names : ∀ call ∈ response.toolCalls, call.name.length ≤ 200
  inputTokens : ∀ value, response.usage.inputTokens ≠ .bool value
  outputTokens : ∀ value, response.usage.outputTokens ≠ .bool value

/-- The responses in a run's journal fit. -/
def JournalFits (store : Run.Store) (runId : Uuid) : Prop :=
  ∀ stepNo row response, store.modelSteps.find? (runId, stepNo) = some row →
    decodeResponse row.response = some response → response.Fits

/-- The last step of a run's journal. -/
def LastStep (store : Run.Store) (runId : Uuid) (response : ProviderResponse) : Prop :=
  ∃ stepNo row, store.modelSteps.find? (runId, stepNo) = some row ∧
    decodeResponse row.response = some response ∧
    ∀ later row, store.modelSteps.find? (runId, later) = some row → later ≤ stepNo

/-- The requester of a run reads its result: never `run_result_unavailable`, and the text of the
last step of a run that succeeded. -/
structure Readable (store : Run.Store) (workspaceId runId : Uuid) (run : Run.AgentRun) : Prop where
  available : getResult store run.requestedBy workspaceId runId ≠
    .error (.http 409 (some "run_result_unavailable"))
  read : scopedMember store.memberships run.requestedBy workspaceId .read = .ok () →
    ∃ result, getResult store run.requestedBy workspaceId runId = .ok result ∧
      (run.status = .succeeded → ∃ response, LastStep store runId response ∧
        response.toolCalls = [] ∧
        (response.finishReason = "stop" ∨ response.finishReason = "refusal") ∧
        result.outputText = response.text)

section Reading

variable {jsonb : Json → Json} {store : Run.Store} {runId : Uuid} {written : ProviderResponse}
  {row : Run.ModelStep} {entry : Nat × Run.ModelStep} {response : ProviderResponse}

theorem mem_journalOf {stepNo : Nat} :
    (stepNo, row) ∈ journalOf store runId ↔ store.modelSteps.find? (runId, stepNo) = some row := by
  simp only [journalOf, mem_orderBy, List.mem_map]
  constructor
  · rintro ⟨⟨key, other⟩, member, same⟩
    obtain ⟨rfl, rfl⟩ := Prod.mk.inj same
    obtain ⟨found, same⟩ := (Table.mem_select _ _ _ _).mp member
    rw [← of_decide_eq_true same]
    exact found
  · intro found
    refine ⟨((runId, stepNo), row), ?_, rfl⟩
    rw [Table.mem_select]
    exact ⟨found, by simp⟩

/-- The steps of a run are numbered without gaps from 0 on. -/
theorem journalOf_numbers (chained : Chained jsonb store) :
    (journalOf store runId).map Prod.fst = List.range (journalOf store runId).length := by
  have sorted : ((journalOf store runId).map Prod.fst).Pairwise (· ≤ ·) :=
    List.pairwise_map.mpr (orderBy_sorted Prod.fst _)
  have listedOnce : ((journalOf store runId).map Prod.fst).Nodup := by
    have perm := (orderBy_perm Prod.fst ((store.modelSteps.select fun key _ =>
      key.1 = runId).map fun entry => (entry.1.2, entry.2))).map Prod.fst
    rw [journalOf, perm.nodup_iff, List.map_map]
    refine (List.nodup_map_iff_inj_on ?_).mpr ?_
    · exact (Table.nodup_select _ _).of_map _
    · rintro ⟨⟨first, firstNo⟩, row⟩ member ⟨⟨second, secondNo⟩, other⟩ otherMember same
      obtain ⟨found, firstIs⟩ := (Table.mem_select _ _ _ _).mp member
      obtain ⟨also, secondIs⟩ := (Table.mem_select _ _ _ _).mp otherMember
      obtain rfl : first = runId := of_decide_eq_true firstIs
      obtain rfl : second = first := of_decide_eq_true secondIs
      obtain rfl : firstNo = secondNo := same
      rw [found] at also
      cases also
      rfl
  have rising : ((journalOf store runId).map Prod.fst).Pairwise (· < ·) :=
    sorted.and listedOnce |>.imp fun both => lt_of_le_of_ne both.1 both.2
  have closed : ∀ number, number + 1 ∈ (journalOf store runId).map Prod.fst →
      number ∈ (journalOf store runId).map Prod.fst := by
    intro number member
    obtain ⟨⟨_, row⟩, listed, rfl⟩ := List.mem_map.mp member
    obtain ⟨response, ⟨earlier, found, _⟩, _⟩ :=
      chained.previous runId number row (mem_journalOf.mp listed)
    exact List.mem_map.mpr ⟨(number, earlier), mem_journalOf.mpr found, rfl⟩
  simpa using eq_range_of_closed rising closed

theorem length_journalOf (chained : Chained jsonb store) :
    (journalOf store runId).length ≤ 32 := by
  by_contra longer
  have member : 32 ∈ (journalOf store runId).map Prod.fst := by
    rw [journalOf_numbers chained, List.mem_range]
    omega
  obtain ⟨⟨_, row⟩, listed, rfl⟩ := List.mem_map.mp member
  have before := (chained.rows runId 32 row (mem_journalOf.mp listed)).1
  omega

/-- What is recorded of a response that fits. -/
def ProviderResponse.recorded (response : ProviderResponse) : RecordedResponse where
  text := response.text
  toolCalls := response.toolCalls.map ProviderToolCall.name
  usage := ⟨response.usage.inputTokens.value, response.usage.outputTokens.value⟩
  finishReason := py response.finishReason

theorem int?_asJson (number : PyInt) :
    (∃ value, number = .bool value) ∧ int? number.asJson = none ∨
      (∀ value, number ≠ .bool value) ∧ int? number.asJson = some number.value := by
  cases number with
  | int value => exact .inr ⟨by simp, rfl⟩
  | bool value => exact .inl ⟨⟨value, rfl⟩, rfl⟩

/-- A usage is recorded exactly when its numbers are no booleans. -/
theorem usage?_asDict (keeps : KeepsValues jsonb) {usage : ProviderUsage}
    (input : 0 ≤ usage.inputTokens.value) (output : 0 ≤ usage.outputTokens.value) :
    ((∀ value, usage.inputTokens ≠ .bool value) → (∀ value, usage.outputTokens ≠ .bool value) →
      usage? (jsonb usage.asDict) = some ⟨usage.inputTokens.value, usage.outputTokens.value⟩) ∧
    ((∃ value, usage.inputTokens = .bool value) ∨ (∃ value, usage.outputTokens = .bool value) →
      usage? (jsonb usage.asDict) = none) := by
  have inputIs : (jsonb usage.asDict).get? (py "input_tokens") =
      some usage.inputTokens.asJson := by
    rw [ProviderUsage.asDict, keeps.get?_object, lookup, if_pos rfl, Option.map_some, keeps.pyInt]
  have outputIs : (jsonb usage.asDict).get? (py "output_tokens") =
      some usage.outputTokens.asJson := by
    rw [ProviderUsage.asDict, keeps.get?_object, lookup, if_neg (by decide), lookup, if_pos rfl,
      Option.map_some, keeps.pyInt]
  rcases int?_asJson usage.inputTokens with ⟨⟨value, bool⟩, none_⟩ | ⟨notBool, some_⟩
  · refine ⟨fun no _ => absurd bool (no value), fun _ => ?_⟩
    simp [usage?, inputIs, none_]
  · rcases int?_asJson usage.outputTokens with ⟨⟨value, bool⟩, none_⟩ | ⟨also, someToo⟩
    · refine ⟨fun _ no => absurd bool (no value), fun _ => ?_⟩
      simp [usage?, inputIs, outputIs, some_, none_]
    · refine ⟨fun _ _ => ?_, ?_⟩
      · simp [usage?, inputIs, outputIs, some_, someToo, input, output]
      · rintro (⟨value, bool⟩ | ⟨value, bool⟩)
        · exact absurd bool (notBool value)
        · exact absurd bool (also value)

/-- The names of a response's calls are recorded exactly when they fit. -/
theorem selections_asDict (keeps : KeepsValues jsonb) (accepted : response.Accepted) :
    ((∀ call ∈ response.toolCalls, call.name.length ≤ 200) →
      (response.toolCalls.map fun call => jsonb call.asDict).mapM selection? =
        some (response.toolCalls.map ProviderToolCall.name)) ∧
    ((∃ call ∈ response.toolCalls, 200 < call.name.length) →
      (response.toolCalls.map fun call => jsonb call.asDict).mapM selection? = none) := by
  have named : ∀ call ∈ response.toolCalls, selection? (jsonb call.asDict) =
      if call.name.length ≤ 200 then some call.name else none := by
    intro call member
    have name : (jsonb call.asDict).get? (py "name") = some (.str call.name) := by
      rw [ProviderToolCall.asDict, keeps.get?_object, lookup, if_neg (by decide), lookup,
        if_pos rfl, Option.map_some, keeps.str]
    have some_ : 1 ≤ call.name.length := List.length_pos_of_ne_nil (accepted.named call member)
    simp [selection?, name, Run.string?, Option.filter, some_]
  rw [List.mapM_map]
  constructor
  · intro fits
    refine mapM_eq_some fun call member => ?_
    rw [Function.comp_apply, named call member, if_pos (fits call member)]
  · rintro ⟨call, member, long⟩
    refine mapM_eq_none member ?_
    rw [Function.comp_apply, named call member, if_neg (by omega)]

/-- A response that was accepted is recorded exactly when it fits. -/
theorem recorded?_asDict (keeps : KeepsValues jsonb) (accepted : response.Accepted) :
    (response.Fits → recorded? (jsonb response.asDict) = some response.recorded) ∧
    (¬ response.Fits → recorded? (jsonb response.asDict) = none) := by
  obtain ⟨text, toolCalls, _, usage, finishReason⟩ := keeps.get?_asDict response
  have texts : optionalText? ((response.text.map Json.str).getD .null) = some response.text := by
    cases response.text <;> rfl
  have textFits : (some response.text).filter (fun text => (text.getD []).length ≤ 100000) =
      some response.text :=
    Option.filter_eq_some_iff.mpr ⟨rfl, decide_eq_true accepted.text⟩
  have callsFit : (some (response.toolCalls.map fun call => jsonb call.asDict)).filter
      (fun items => items.length ≤ 16) =
        some (response.toolCalls.map fun call => jsonb call.asDict) :=
    Option.filter_eq_some_iff.mpr ⟨rfl, decide_eq_true ((List.length_map _).trans_le accepted.calls)⟩
  obtain ⟨named, unnamed⟩ := selections_asDict keeps accepted
  obtain ⟨counted, uncounted⟩ := usage?_asDict keeps accepted.inputTokens accepted.outputTokens
  constructor
  · intro fits
    simp only [recorded?, text, toolCalls, usage, finishReason, Option.bind_some, texts, items?,
      textFits, callsFit, named fits.names, counted fits.inputTokens fits.outputTokens,
      Run.string?, Option.bind_eq_bind, Option.pure_def, ProviderResponse.recorded]
  · intro unfit
    by_cases names : ∀ call ∈ response.toolCalls, call.name.length ≤ 200
    · have isBool : (∃ value, response.usage.inputTokens = .bool value) ∨
          ∃ value, response.usage.outputTokens = .bool value := by
        by_contra neither
        simp only [not_or, not_exists] at neither
        exact unfit ⟨names, neither.1, neither.2⟩
      simp only [recorded?, text, toolCalls, usage, Option.bind_some, texts, items?, textFits,
        callsFit, named names, uncounted isBool, Option.bind_eq_bind, Option.bind_none]
    · simp only [not_forall, not_le] at names
      obtain ⟨call, member, long⟩ := names
      simp only [recorded?, text, toolCalls, Option.bind_some, texts, items?, textFits, callsFit,
        unnamed ⟨call, member, long⟩, Option.bind_eq_bind, Option.bind_none]

/-- What the journal keeps of a response fits exactly when the response does. -/
theorem ProviderResponse.kept_fits (jsonb : Json → Json) (response : ProviderResponse) :
    (response.kept jsonb).Fits ↔ response.Fits := by
  have names : (∀ call ∈ (response.kept jsonb).toolCalls, call.name.length ≤ 200) ↔
      ∀ call ∈ response.toolCalls, call.name.length ≤ 200 :=
    List.forall_mem_map
  constructor
  · rintro ⟨named, input, output⟩
    exact ⟨names.mp named, input, output⟩
  · rintro ⟨named, input, output⟩
    exact ⟨names.mpr named, input, output⟩

/-- Every row of a sound journal is of an accepted response. -/
theorem response_of_mem (chained : Chained jsonb store) (listed : entry ∈ journalOf store runId) :
    ∃ response : ProviderResponse,
    entry.2.response = jsonb response.asDict ∧ response.Accepted :=
  (chained.rows runId entry.1 entry.2 (mem_journalOf.mp listed)).2

/-- A journal with a response that does not fit is not read. -/
theorem unread_of_unfit (keeps : KeepsValues jsonb) (chained : Chained jsonb store)
    (unfit : ¬ JournalFits store runId) :
    (journalOf store runId).mapM (fun entry => recorded? entry.2.response) = none := by
  simp only [JournalFits, not_forall] at unfit
  obtain ⟨stepNo, row, response, found, decoded, unfit⟩ := unfit
  have listed : (stepNo, row) ∈ journalOf store runId := mem_journalOf.mpr found
  obtain ⟨written, holds, accepted⟩ := response_of_mem chained listed
  refine mapM_eq_none listed ?_
  rw [holds, keeps.decodeResponse_asDict] at decoded
  cases decoded
  rw [holds]
  exact (recorded?_asDict keeps accepted).2 fun fits => unfit ((written.kept_fits jsonb).mpr fits)

/-- What the results record of a row's response. -/
def recordedRow (entry : Nat × Run.ModelStep) : RecordedResponse :=
  (recorded? entry.2.response).getD ⟨none, [], ⟨0, 0⟩, []⟩

/-- A journal whose responses fit is read. -/
theorem read_of_fit (keeps : KeepsValues jsonb) (chained : Chained jsonb store)
    (fits : JournalFits store runId) :
    (journalOf store runId).mapM (fun entry => recorded? entry.2.response) =
      some ((journalOf store runId).map recordedRow) := by
  refine mapM_eq_some fun entry listed => ?_
  obtain ⟨written, holds, accepted⟩ := response_of_mem chained listed
  have found : store.modelSteps.find? (runId, entry.1) = some entry.2 := mem_journalOf.mp listed
  have decoded := keeps.decodeResponse_asDict written
  rw [← holds] at decoded
  have writtenFits : written.Fits := (written.kept_fits jsonb).mp (fits _ _ _ found decoded)
  have read := (recorded?_asDict keeps accepted).1 writtenFits
  rw [recordedRow, holds, read]
  rfl

/-- The steps before a journalled one are journalled. -/
theorem Chained.before (chained : Chained jsonb store) {stepNo earlier : Nat}
    (found : store.modelSteps.find? (runId, stepNo) = some row) (le : earlier ≤ stepNo) :
    ∃ row, store.modelSteps.find? (runId, earlier) = some row := by
  induction stepNo generalizing row with
  | zero => exact ⟨row, Nat.le_zero.mp le ▸ found⟩
  | succ number ih =>
    rcases Nat.le_succ_iff.mp le with within | rfl
    · obtain ⟨_, ⟨previous, there, _⟩, _⟩ := chained.previous runId number row found
      exact ih there within
    · exact ⟨row, found⟩

/-- A step that is followed by another has calls. -/
theorem Chained.calls_of_followed (keeps : KeepsValues jsonb) (chained : Chained jsonb store)
    {stepNo later : Nat} (journalled : Journalled jsonb store runId stepNo written)
    (found : store.modelSteps.find? (runId, later) = some row) (follows : stepNo < later) :
    written.toolCalls ≠ [] := by
  obtain ⟨next, there⟩ := chained.before found follows
  obtain ⟨response, ⟨same, also, holdsToo⟩, calls⟩ := chained.previous runId stepNo next there
  obtain ⟨row, found, holds⟩ := journalled
  rw [found] at also
  cases also
  have decodedToo := keeps.decodeResponse_asDict response
  rw [← holdsToo, holds, keeps.decodeResponse_asDict] at decodedToo
  have alike : (written.kept jsonb).toolCalls = (response.kept jsonb).toolCalls :=
    congrArg ProviderResponse.toolCalls (Option.some.inj decodedToo)
  intro none
  rw [(written.kept_alike jsonb).calls.mpr none] at alike
  exact calls ((response.kept_alike jsonb).calls.mp alike.symm)

/-- The last step of a run that has been answered is the answer. -/
theorem last_of_answered (keeps : KeepsValues jsonb) (chained : Chained jsonb store)
    (answered : Answered jsonb store runId) :
    ∃ (entry : Nat × Run.ModelStep) (written : ProviderResponse),
      (journalOf store runId).getLast? = some entry ∧
      entry.2.response = jsonb written.asDict ∧ written.Final ∧
      LastStep store runId (written.kept jsonb) := by
  obtain ⟨stepNo, written, ⟨row, found, holds⟩, final⟩ := answered
  have decoded := keeps.decodeResponse_asDict written
  rw [← holds] at decoded
  have last : ∀ later other, store.modelSteps.find? (runId, later) = some other →
      later ≤ stepNo := by
    intro later other there
    by_contra after
    exact chained.calls_of_followed keeps ⟨row, found, holds⟩ there (by omega) final.calls
  have listed : (stepNo, row) ∈ journalOf store runId := mem_journalOf.mpr found
  obtain ⟨entry, isLast⟩ : ∃ entry, (journalOf store runId).getLast? = some entry :=
    ⟨_, List.getLast?_eq_some_getLast (List.ne_nil_of_mem listed)⟩
  have there : store.modelSteps.find? (runId, entry.1) = some entry.2 :=
    mem_journalOf.mp (List.mem_of_getLast? isLast)
  have number : entry.1 = (journalOf store runId).length - 1 := by
    have ofMap : ((journalOf store runId).map Prod.fst).getLast? = some entry.1 := by
      rw [List.getLast?_map, isLast, Option.map_some]
    rw [journalOf_numbers chained, List.getLast?_range] at ofMap
    split at ofMap
    · cases ofMap
    · exact (Option.some.inj ofMap).symm
  have inside : stepNo < (journalOf store runId).length := by
    have member : stepNo ∈ (journalOf store runId).map Prod.fst :=
      List.mem_map.mpr ⟨_, listed, rfl⟩
    rwa [journalOf_numbers chained, List.mem_range] at member
  have same : entry.1 = stepNo := by
    have notLater := last entry.1 entry.2 there
    omega
  rw [same, found] at there
  refine ⟨entry, written, isLast, ?_, final, stepNo, row, found, decoded, last⟩
  rw [← Option.some.inj there]
  exact holds

theorem ProviderResponse.kept_accepted (jsonb : Json → Json) (response : ProviderResponse) :
    (response.kept jsonb).Accepted ↔ response.Accepted := by
  have named : (∀ call ∈ (response.kept jsonb).toolCalls, call.name ≠ []) ↔
      ∀ call ∈ response.toolCalls, call.name ≠ [] :=
    List.forall_mem_map
  have counted : (response.kept jsonb).toolCalls.length = response.toolCalls.length :=
    List.length_map _
  constructor
  · rintro ⟨calls, names, text, inputTokens, outputTokens⟩
    exact ⟨counted ▸ calls, named.mp names, text, inputTokens, outputTokens⟩
  · rintro ⟨calls, names, text, inputTokens, outputTokens⟩
    exact ⟨counted ▸ calls, named.mpr names, text, inputTokens, outputTokens⟩

/-- A row of a journal that fits is recorded as its response was written. -/
theorem recordedRow_eq (keeps : KeepsValues jsonb) (chained : Chained jsonb store)
    (fits : JournalFits store runId) (listed : entry ∈ journalOf store runId)
    (holds : entry.2.response = jsonb written.asDict) :
    recordedRow entry = written.recorded := by
  obtain ⟨other, holdsToo, accepted⟩ := response_of_mem chained listed
  have same : some (written.kept jsonb) = some (other.kept jsonb) := by
    rw [← keeps.decodeResponse_asDict, ← keeps.decodeResponse_asDict, ← holds, ← holdsToo]
  have writtenAccepted : written.Accepted := by
    rw [← written.kept_accepted jsonb, Option.some.inj same, other.kept_accepted jsonb]
    exact accepted
  have decoded := keeps.decodeResponse_asDict written
  rw [← holds] at decoded
  have writtenFits : written.Fits :=
    (written.kept_fits jsonb).mp (fits _ _ _ (mem_journalOf.mp listed) decoded)
  rw [recordedRow, holds, (recorded?_asDict keeps writtenAccepted).1 writtenFits]
  rfl

/-- The output of a run that has been answered is its last text. -/
theorem outputOf_final {status : Run.RunStatus} (succeeded : status = .succeeded)
    (final : written.Final) :
    outputOf status (some written.recorded) =
      .ok (written.text, some (py written.finishReason)) := by
  have reason : py written.finishReason = py "stop" ∨ py written.finishReason = py "refusal" :=
    final.reason.imp (congrArg py) (congrArg py)
  simp [outputOf, succeeded, Option.filter, ProviderResponse.recorded, reason, final.calls, orRaise,
    final.text, raiseIf]

/-- A journal with a response that does not fit is not summed up. -/
theorem summarizeResult_unfit (keeps : KeepsValues jsonb) (chained : Chained jsonb store)
    (unfit : ¬ JournalFits store runId) (run : Run.AgentRun) :
    ∃ failure, summarizeResult runId run ((journalOf store runId).take 33) = .error failure := by
  have few : (journalOf store runId).length ≤ 33 := (length_journalOf chained).trans (by omega)
  rw [List.take_of_length_le few]
  cases summed : summarizeResult runId run (journalOf store runId) with
  | error failure => exact ⟨failure, rfl⟩
  | ok result =>
    simp only [summarizeResult, bind_eq_ok, orRaise_eq_ok, unread_of_unfit keeps chained unfit,
      reduceCtorEq, false_and, exists_false, and_false] at summed

/-- A journal whose responses fit is summed up, for a run that succeeded with its last text. -/
theorem summarizeResult_fit (keeps : KeepsValues jsonb) (chained : Chained jsonb store)
    (fits : JournalFits store runId) {run : Run.AgentRun} (ended : run.status.isTerminal = true)
    (answered : run.status = .succeeded → Answered jsonb store runId) :
    ∃ result, summarizeResult runId run ((journalOf store runId).take 33) = .ok result ∧
      (run.status = .succeeded → ∃ response, LastStep store runId response ∧
        response.toolCalls = [] ∧
        (response.finishReason = "stop" ∨ response.finishReason = "refusal") ∧
        result.outputText = response.text) := by
  have short : (journalOf store runId).length ≤ 32 := length_journalOf chained
  have few : (journalOf store runId).length ≤ 33 := by omega
  have numbered : ¬ (32 < (journalOf store runId).length ∨
      (journalOf store runId).map Prod.fst ≠ List.range (journalOf store runId).length) := by
    rintro (more | gap)
    · omega
    · exact gap (journalOf_numbers chained)
  have ready : ¬ run.status.isTerminal = false := by simp [ended]
  rw [List.take_of_length_le few]
  obtain ⟨output, made, exactly⟩ : ∃ output,
      outputOf run.status ((journalOf store runId).map recordedRow).getLast? = .ok output ∧
        (run.status = .succeeded → ∃ response, LastStep store runId response ∧
          response.toolCalls = [] ∧
          (response.finishReason = "stop" ∨ response.finishReason = "refusal") ∧
          output.1 = response.text) := by
    by_cases succeeded : run.status = .succeeded
    · obtain ⟨entry, written, isLast, holds, final, last⟩ :=
        last_of_answered keeps chained (answered succeeded)
      have listed := List.mem_of_getLast? isLast
      refine ⟨(written.text, some (py written.finishReason)), ?_, fun _ => ?_⟩
      · rw [List.getLast?_map, isLast, Option.map_some,
          recordedRow_eq keeps chained fits listed holds]
        exact outputOf_final succeeded final
      · exact ⟨written.kept jsonb, last, (written.kept_alike jsonb).calls.mpr final.calls,
          final.reason, rfl⟩
    · exact ⟨(none, none), if_neg succeeded, fun isSo => absurd isSo succeeded⟩
  obtain ⟨result, summed, same⟩ : ∃ result,
      summarizeResult runId run (journalOf store runId) = .ok result ∧
        result.outputText = output.1 := by
    simp only [summarizeResult, bind_eq_ok, raiseIf_eq_ok, orRaise_eq_ok, pure_eq_ok]
    exact ⟨_, ⟨⟨⟩, ready, ⟨⟩, numbered, _, read_of_fit keeps chained fits, output, made, rfl⟩, rfl⟩
  exact ⟨result, summed, same ▸ exactly⟩

end Reading

/-- A caller who may not read a workspace is not told that a result is unavailable. -/
theorem scopedMember_available (memberships : Memberships) (principal : Principal)
    (workspaceId : Uuid) (permission : Permission) :
    Spares (· = .http 409 (some "run_result_unavailable"))
      (scopedMember memberships principal workspaceId permission) := by
  apply Spares.bind (.orRaise (by simp))
  intro _ _
  exact .raiseIf (by simp)

/-- What the requester of a run that has ended reads. -/
theorem getResult_eq {store : Run.Store} {workspaceId runId : Uuid} {run : Run.AgentRun}
    (stored : store.runIn workspaceId runId = some run) (ended : run.status.isTerminal = true)
    (allowed : scopedMember store.memberships run.requestedBy workspaceId .read = .ok ()) :
    getResult store run.requestedBy workspaceId runId =
      (summarizeResult runId run ((journalOf store runId).take 33)).mapError fun _ =>
        .http 409 (some "run_result_unavailable") := by
  have row : (store.runIn workspaceId runId).filter (fun other =>
      other.requestedBy = run.requestedBy) = some run :=
    Option.filter_eq_some_iff.mpr ⟨stored, decide_eq_true rfl⟩
  have ready : ¬ run.status.isTerminal = false := by simp [ended]
  simp only [getResult, allowed, row, found, orRaise, raiseIf, bind, Except.bind, if_neg ready]

/-- Every run that has ended can be read by its requester exactly when the responses in its
journal have names of at most 200 characters and no boolean for a number of tokens. -/
theorem finished_result_readable (deployment : Deployment)
    (keeps : KeepsValues deployment.platform.jsonb) (history : List (Transition System Label))
    (system : System) (runs : (machine deployment).Runs history system)
    (workspaceId runId : Uuid) (run : Run.AgentRun)
    (stored : system.platform.store.runIn workspaceId runId = some run)
    (ended : run.status.isTerminal = true) :
    Readable system.platform.store workspaceId runId run ↔
      (scopedMember system.platform.store.memberships run.requestedBy workspaceId .read = .ok () →
        JournalFits system.platform.store runId) := by
  have sound := sound_of_runs keeps runs
  have row : system.platform.store.agentRuns.find? runId = some run :=
    ((Run.Store.runIn_eq_some _ _ _ _).mp stored).1
  have answered := sound.backed.succeeded runId run row
  constructor
  · intro readable allowed
    by_contra unfit
    obtain ⟨failure, failed⟩ := summarizeResult_unfit keeps sound.chained unfit run
    apply readable.available
    rw [getResult_eq stored ended allowed, failed]
    rfl
  · intro fits
    by_cases allowed :
      scopedMember system.platform.store.memberships run.requestedBy workspaceId .read = .ok ()
    · obtain ⟨result, summed, output⟩ :=
        summarizeResult_fit keeps sound.chained (fits allowed) ended answered
      have reads : getResult system.platform.store run.requestedBy workspaceId runId =
          .ok result := by
        rw [getResult_eq stored ended allowed, summed]
        rfl
      exact ⟨by simp [reads], fun _ => ⟨result, reads, output⟩⟩
    · refine ⟨?_, fun may => absurd may allowed⟩
      intro unavailable
      have spares := scopedMember_available system.platform.store.memberships run.requestedBy
        workspaceId .read
      cases checked : scopedMember system.platform.store.memberships run.requestedBy workspaceId
        .read with
      | ok => exact allowed checked
      | error failure =>
        simp only [getResult, checked, bind, Except.bind, Except.error.injEq] at unavailable
        exact spares failure checked unavailable

theorem fourSteps : 1 ≤ 4 ∧ 4 ≤ 32 := by omega

theorem hundredOutputTokens : 1 ≤ 100 ∧ 100 ≤ 16384 := by omega

theorem thousandTokens : 1 ≤ 1000 ∧ 1000 ≤ 1000000 := by omega

theorem thousandChars : 1000 ≤ 1000 ∧ 1000 ≤ 200000 := by omega

theorem cachesNothing : 0 ≤ 2592000 := by omega

/-- A deployment of one model, without retrieval and caches. -/
def exampleDeployment : Deployment where
  platform := Run.examplePlatform
  unicode := ⟨id, id⟩
  profiles := fun _ => some {
    allowedWorkspaces := [1], allowedProviders := [py "provider"], allowedTools := []
    allowedServerKeys := [], maxSteps := 4, maxOutputTokens := 100, maxTotalTokens := 1000
    maxContextChars := 1000, answerCacheTtlSeconds := 0, maxSteps_range := fourSteps
    maxOutputTokens_range := hundredOutputTokens, maxTotalTokens_range := thousandTokens
    maxContextChars_range := thousandChars, answerCacheTtlSeconds_range := cachesNothing }
  router := [⟨py "provider", py "model", [.text, .tools], 1, 1⟩]
  providers := [py "provider"]
  retrieves := false
  semanticCache := false

/-- An attempt of run 3 at whose first step the provider gives a response. -/
def exampleAttempt (response : ProviderResponse) : List Label :=
  [.platform Run.exampleCreateRun, .platform (.claim "worker" (Run.exampleJob 5) 30 0),
    .begin "worker" 1, .loop "worker" (.retrieved []), .loop "worker" (.check 1),
    .loop "worker" (.load (fun _ => .healthy) 1), .loop "worker" (.receive response),
    .loop "worker" (.save none 1 1), .loop "worker" .judge]

/-- The platform before it. -/
def exampleOpening : System := ⟨Run.exampleOpening, .empty⟩

theorem opening_exampleOpening : Opening exampleOpening :=
  ⟨Run.opening_openingWith _ _, rfl⟩

/-- `finished_result_readable` applies to a run whose model answers at once. -/
theorem finished_result_readable_answered :
    ∃ history system run, (machine exampleDeployment).Runs history system ∧
      system.platform.store.runIn 1 3 = some run ∧ run.status = .succeeded ∧
      (Readable system.platform.store 1 3 run ↔
        (scopedMember system.platform.store.memberships run.requestedBy 1 .read = .ok () →
          JournalFits system.platform.store 3)) := by
  obtain ⟨history, system, runs, checked⟩ := Machine.exists_run_of_trace Opening
    (fun system label => system.run exampleDeployment label)
    (exampleAttempt ⟨some (py "answer"), [], none, ⟨.int 1, .int 1⟩, "stop"⟩ ++
      [.platform (.finish "worker" 9 0 1)]) exampleOpening
    (fun _ system => (system.platform.store.runIn 1 3).any fun run => run.status = .succeeded)
    opening_exampleOpening (by decide +kernel)
  obtain ⟨run, stored, succeeded⟩ := (Option.any_eq_true _ _).mp checked
  have ended : run.status = .succeeded := of_decide_eq_true succeeded
  exact ⟨history, system, run, runs, stored, ended,
    finished_result_readable exampleDeployment keepsValues_id history system runs 1 3 run stored
      (by rw [ended]; rfl)⟩

/-- A call of a tool with a name of 201 characters, which the executor's check accepts. -/
def longNamedCall : ProviderResponse :=
  ⟨none, [⟨py "call", List.replicate 201 0x61, .object []⟩], none, ⟨.int 1, .int 1⟩, "tool_call"⟩

/-- The result of a run that failed over such a call is not available to its requester. -/
theorem long_name_hides_result :
    ¬ ∀ deployment : Deployment, KeepsValues deployment.platform.jsonb →
      ∀ history system, (machine deployment).Runs history system →
      ∀ workspaceId runId run, system.platform.store.runIn workspaceId runId = some run →
        run.status.isTerminal = true → Readable system.platform.store workspaceId runId run := by
  intro always
  obtain ⟨history, system, runs, checked⟩ := Machine.exists_run_of_trace Opening
    (fun system label => system.run exampleDeployment label)
    (exampleAttempt longNamedCall ++
      [.loop "worker" (.permit 1), .platform (.finish "worker" 9 0 1)]) exampleOpening
    (fun _ system => (system.platform.store.runIn 1 3).any fun run =>
      run.status = .failed && (getResult system.platform.store run.requestedBy 1 3 =
        .error (.http 409 (some "run_result_unavailable"))))
    opening_exampleOpening (by decide +kernel)
  obtain ⟨run, stored, failed⟩ := (Option.any_eq_true _ _).mp checked
  simp only [Bool.and_eq_true, decide_eq_true_eq] at failed
  have readable := always exampleDeployment keepsValues_id history system runs 1 3 run stored
    (by rw [failed.1]; rfl)
  exact readable.available failed.2

end Nexora.Executor
