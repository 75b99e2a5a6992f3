import Nexora.Run.Tools

/-!
# Tool calls

The parts of `ToolGovernanceRepository` an attempt drives: planning a call under its key,
starting it, and recording how it ended. Every one of them passes the execution fence
first.
-/

namespace Nexora.Run

open Nexora.Std Nexora.Workspace Nexora.Tools Json

/-- A character of a call key. -/
def isCallKeyPoint (point : Fin 0x110000) : Bool :=
  (0x30 ≤ point && point ≤ 0x39) || (0x41 ≤ point && point ≤ 0x5a) ||
    (0x61 ≤ point && point ≤ 0x7a) || point ∈ py "_.:-"

/-- `_CALL_KEY`. -/
def isCallKey (callKey : PyStr) : Bool :=
  callKey ≠ [] && callKey.length ≤ 128 && callKey.all isCallKeyPoint

/-- What the gateway does with a planned call. -/
inductive PlanAction where
  | execute
  | approval (approvalId : Uuid)
  | deny (errorCode : PyStr)
  | replay (result : Json)
  deriving DecidableEq

/-- A call's plan. -/
structure ToolCallPlan where
  action : PlanAction
  callId : Uuid
  tool : ToolDefinition
  deriving DecidableEq

/-- What the gateway hands an adapter. -/
structure ToolExecution where
  callId : Uuid
  serverKey : String
  remoteName : String
  arguments : Json
  outputSchema : Option Json
  deriving DecidableEq

/-- The reason recorded with an approval of a tool without a policy. -/
def defaultPolicyReason : PyStr := py "No explicit allow policy is configured."

namespace Store

variable (store : Store)

/-- Insert a call under a new identifier. -/
def insertCall (platform : Platform) (callId : Uuid) (call : ToolCall) : Except Raised Store := do
  let arguments ← storeJson platform call.arguments
  let toolCalls ← orRaise (store.toolCalls.insert? callId { call with arguments := arguments })
    .database
  pure { store with toolCalls := toolCalls }

/-- `_create_approval`: a call may be asked about once. -/
def createApproval (platform : Platform) (run : AgentRun) (runId callId : Uuid)
    (tool : ToolDefinition) (arguments : Json) (argumentsHash : Nat) (reason : PyStr)
    (approvalId : Uuid) (now : Instant) : Except Raised (Store × ToolCallPlan) := do
  let call ← orRaise (store.toolCalls.find? callId) (.tool "unknown_tool_call")
  let asked ← store.updateCall callId fun call =>
    { call with status := .pendingApproval, policyDecision := .requireApproval }
  let normalizedArguments ← storeJson platform arguments
  raiseIf ((asked.approvalForCall callId).isSome = true) .duplicateApproval
  let toolApprovals ← orRaise (asked.toolApprovals.insert? approvalId {
    workspaceId := run.workspaceId, runId := runId, toolCallId := callId
    requestedAction := tool.name, normalizedArguments := normalizedArguments
    argumentsHash := argumentsHash, contractHash := call.contractHash
    requester := run.requestedBy, policyReason := reason, expiresAt := now + approvalLifetime
    status := .pending, approver := none }) .database
  pure ({ asked with toolApprovals := toolApprovals }, ⟨.approval approvalId, callId, tool⟩)

/-- `_denied_plan`, when the requester may not run agents. -/
def deniedPlan (platform : Platform) (run : AgentRun) (runId : Uuid) (callKey toolName : PyStr)
    (arguments : Json) (errorCode : PyStr) (callId : Uuid) :
    Except Raised (Store × ToolCallPlan) := do
  let (toolId, tool) ← orRaise (store.toolNamed run.workspaceId toolName) (.tool "unknown_tool")
  let (_, argumentsHash) ← ofContract (validateArguments platform.runtime arguments
    tool.inputSchema)
  let contractHash ← ofContract (tool.hash platform.runtime)
  match store.callKeyed runId callKey with
  | some (existingId, _) => pure (store, ⟨.deny errorCode, existingId, tool⟩)
  | none => do
      let denied ← store.insertCall platform callId {
        workspaceId := run.workspaceId, runId := runId, toolId := toolId, callKey := callKey
        arguments := arguments, argumentsHash := argumentsHash, contractHash := contractHash
        status := .denied, policyDecision := .deny, result := none
        errorCode := some errorCode, attemptCount := 0 }
      pure (denied, ⟨.deny errorCode, callId, tool⟩)

/-- Cancel the pending approval of a call, if it has one. -/
def withdrawApproval (callId : Uuid) : Except Raised Store :=
  match store.approvalForCall callId with
  | some (approvalId, approval) =>
    if approval.status = ApprovalStatus.pending then
      store.setApproval approvalId .cancelled approval.approver
    else .ok store
  | none => .ok store

/-- A call whose tool's contract has changed is cancelled, with any pending approval. -/
def contractChanged (callId : Uuid) (tool : ToolDefinition) :
    Except Raised (Store × ToolCallPlan) := do
  let settled ← store.withdrawApproval callId
  let cancelled ← settled.updateCall callId fun call =>
    if call.status.isOpen then
      { call with status := .cancelled, errorCode := some (py "tool_contract_changed") }
    else call
  pure (cancelled, ⟨.deny (py "tool_contract_changed"), callId, tool⟩)

/-- An open call whose tool the policy denies now. -/
def policyDenied (callId : Uuid) (existing : ToolCall) (tool : ToolDefinition) :
    Except Raised (Store × ToolCallPlan) := do
  let target := if existing.status = .approved ∨ existing.status = .running then
    CallStatus.cancelled else .denied
  let denied ← store.updateCall callId fun call =>
    { call with status := target, errorCode := some (py "policy_denied") }
  pure (denied, ⟨.deny (py "policy_denied"), callId, tool⟩)

/-- `prepare_call` for a key the run has used before. -/
def prepareExisting (platform : Platform) (run : AgentRun) (existingId : Uuid)
    (existing : ToolCall) (toolId : Uuid) (tool : ToolDefinition) (arguments : Json)
    (argumentsHash contractHash : Nat) (effective : PolicyDecision) (reason : PyStr)
    (approvalId : Uuid) (now : Instant) : Except Raised (Store × ToolCallPlan) :=
  if existing.toolId ≠ toolId ∨ existing.argumentsHash ≠ argumentsHash then
    .error (.tool "call_key_conflict")
  else if existing.status = .succeeded then
    .ok (store, ⟨.replay (existing.result.getD .null), existingId, tool⟩)
  else if existing.contractHash ≠ contractHash then
    store.contractChanged existingId tool
  else if existing.status.isOpen = false then
    .ok (store, ⟨.deny (existing.errorCode.getD (py "tool_call_terminal")), existingId, tool⟩)
  else
    let approval := store.approvalForCall existingId
    match approval.filter fun entry => entry.2.status = .pending with
    | some (pendingId, _) => .ok (store, ⟨.approval pendingId, existingId, tool⟩)
    | none =>
      if effective = .deny then store.policyDenied existingId existing tool
      else if effective = .requireApproval ∧
          (approval.any fun entry => entry.2.status = .approved) = false then
        if existing.status ≠ .planned then
          .ok (store, ⟨.deny (py "approval_required_after_execution_started"), existingId, tool⟩)
        else
          store.createApproval platform run existing.runId existingId tool arguments
            argumentsHash reason approvalId now
      else .ok (store, ⟨.execute, existingId, tool⟩)

/-- `prepare_call` for a key the run has not used before. -/
def prepareNew (platform : Platform) (run : AgentRun) (call : CallRequest)
    (tool : ToolDefinition) (effective : PolicyDecision) (reason : PyStr)
    (callId approvalId : Uuid) (now : Instant) : Except Raised (Store × ToolCallPlan) :=
  match effective with
  | .deny => do
      let denied ← store.insertCall platform callId {
        call with
        status := .denied, policyDecision := .deny, result := none
        errorCode := some (py "policy_denied"), attemptCount := 0 }
      pure (denied, ⟨.deny (py "policy_denied"), callId, tool⟩)
  | .requireApproval => do
      let planned ← store.insertCall platform callId {
        call with
        status := .pendingApproval, policyDecision := .requireApproval, result := none
        errorCode := none, attemptCount := 0 }
      planned.createApproval platform run call.runId callId tool call.arguments
        call.argumentsHash reason approvalId now
  | .allow => do
      let planned ← store.insertCall platform callId {
        call with
        status := .planned, policyDecision := .allow, result := none, errorCode := none
        attemptCount := 0 }
      pure (planned, ⟨.execute, callId, tool⟩)

/-- `prepare_call`: what is to be done about a call, under a key that names it within its
run. `callId` and `approvalId` are the identifiers drawn for new rows. -/
def prepareCall (platform : Platform) (context : ExecutionContext) (callKey toolName : PyStr)
    (arguments : Json) (callId approvalId : Uuid) (clock now : Instant) :
    Except Raised (Store × ToolCallPlan) := do
  raiseIf (isCallKey callKey = false) (.tool "invalid_call_key")
  let run ← store.executableRun context clock
  if scopedMember store.memberships run.requestedBy context.workspaceId .runAgents ≠ .ok () then
    store.deniedPlan platform run context.runId callKey toolName arguments
      (py "requester_not_authorized") callId
  else do
    let (toolId, tool) ← orRaise (store.toolNamed context.workspaceId toolName)
      (.tool "unknown_tool")
    let (_, argumentsHash) ← ofContract (validateArguments platform.runtime arguments
      tool.inputSchema)
    let contractHash ← ofContract (tool.hash platform.runtime)
    let policy := store.toolPolicies.find? (context.workspaceId, toolId)
    let effective := if tool.enabled then
      effectivePolicy (policy.map ToolPolicy.decision) tool.sideEffect else .deny
    let reason := (policy.map ToolPolicy.reason).getD defaultPolicyReason
    match store.callKeyed context.runId callKey with
    | some (existingId, existing) =>
      store.prepareExisting platform run existingId existing toolId tool arguments
        argumentsHash contractHash effective reason approvalId now
    | none =>
      store.prepareNew platform run {
        workspaceId := context.workspaceId, runId := context.runId, toolId := toolId
        callKey := callKey, arguments := arguments, argumentsHash := argumentsHash
        contractHash := contractHash } tool effective reason callId approvalId now

/-- An approval allows exactly the call it was given for. -/
def approvalCovers (call : ToolCall) (approval : ToolApproval) : Bool :=
  approval.status = .approved && approval.argumentsHash = call.argumentsHash &&
    approval.contractHash = call.contractHash &&
    pyEq approval.normalizedArguments call.arguments

/-- The checks of `mark_running` on the call, its tool and its policy. -/
def checkExecutable (platform : Platform) (callId : Uuid) (call : ToolCall)
    (tool : ToolDefinition) : Except Raised Unit := do
  raiseIf (tool.enabled = false) (.tool "tool_disabled")
  let currentHash ← ofContract (tool.hash platform.runtime)
  raiseIf (call.contractHash ≠ currentHash) (.tool "tool_contract_changed")
  let effective := effectivePolicy (store.policyOf call.workspaceId call.toolId) tool.sideEffect
  raiseIf (effective = .deny) (.tool "policy_denied")
  let _ ← ofContract (validateArguments platform.runtime call.arguments tool.inputSchema)
  raiseIf (effective = .requireApproval ∧
    ((store.approvalForCall callId).any fun entry => approvalCovers call entry.2) = false)
    (.tool "approval_missing_or_stale")
  raiseIf (call.status ∉ [CallStatus.planned, .approved, .running])
    (.tool "tool_call_not_executable")

/-- `mark_running`: the execution of a call, if everything that allows it still holds. -/
def markRunning (platform : Platform) (callId : Uuid) (context : ExecutionContext)
    (clock : Instant) : Except Raised (Store × ToolExecution) := do
  let _ ← store.executableRun context clock
  let call ← orRaise ((store.toolCalls.find? callId).filter fun call =>
    (store.toolOf call).isSome && call.runId = context.runId) (.tool "unknown_tool_call")
  let tool ← orRaise (store.toolOf call) (.tool "unknown_tool_call")
  let run ← orRaise ((store.runIn call.workspaceId call.runId).filter fun run =>
    run.status = .running) (.tool "run_not_executable")
  raiseIf (scopedMember store.memberships run.requestedBy call.workspaceId .runAgents ≠ .ok ())
    (.tool "requester_not_authorized")
  store.checkExecutable platform callId call tool
  let started ← store.updateCall callId fun call =>
    { call with
      status := .running, attemptCount := call.attemptCount + 1, errorCode := none }
  pure (started, {
    callId := callId, serverKey := tool.serverKey, remoteName := tool.remoteName
    arguments := call.arguments, outputSchema := tool.outputSchema })

/-- The call an attempt may record an outcome of. -/
def runningCall (callId : Uuid) (context : ExecutionContext) : Option ToolCall :=
  (store.toolCalls.find? callId).filter fun call =>
    call.status = .running && call.runId = context.runId

/-- `complete_success` of a call, with whether it was the attempt's to complete. -/
def completeCallSuccess (platform : Platform) (callId : Uuid) (result : Json)
    (context : ExecutionContext) (clock : Instant) : Except Raised (Store × Bool) := do
  let _ ← store.executableRun context clock
  match (store.runningCall callId context).bind fun call =>
      (store.toolOf call).map fun tool => (call, tool) with
  | none => pure (store, false)
  | some (_, tool) => do
      ofContract (validateResult platform.runtime result tool.outputSchema)
      let stored ← storeJson platform result
      let succeeded ← store.updateCall callId fun call =>
        { call with status := .succeeded, result := some stored, errorCode := none }
      pure (succeeded, true)

/-- `complete_failure` of a call, with whether it was the attempt's to complete. A
retryable failure leaves the call to be executed again. -/
def completeCallFailure (callId : Uuid) (errorCode : PyStr) (retryable : Bool)
    (context : ExecutionContext) (clock : Instant) : Except Raised (Store × Bool) := do
  raiseIf (errorCode = [] ∨ 100 < errorCode.length) (.request (.valueError "invalid error_code"))
  let _ ← store.executableRun context clock
  match store.runningCall callId context with
  | none => pure (store, false)
  | some _ => do
      raiseIf (storableText errorCode = false) .database
      let next := if retryable then
        (if (store.approvalForCall callId).any fun entry => entry.2.status = .approved then
          CallStatus.approved else .planned)
        else .failed
      let failed ← store.updateCall callId fun call =>
        { call with status := next, errorCode := some errorCode }
      pure (failed, true)

end Store

end Nexora.Run
