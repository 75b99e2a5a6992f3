import Nexora.Run.Fence

/-!
# Tools, policies and approvals

The parts of `ToolGovernanceRepository` that people drive: registering a tool, setting
its policy, and deciding or expiring the approval of one call. An approval that can no
longer be used is cancelled together with its call and its run.
-/

namespace Nexora.Run

open Nexora.Std Nexora.Workspace Nexora.Tools Json

/-- How long an approval may be decided. -/
def approvalLifetime : Nat := seconds (15 * 60)

/-- A request to register a tool. -/
structure ToolUpsertInput extends ToolContract where
  enabled : Bool
  deriving DecidableEq

/-- A person's decision about an approval. -/
inductive Decision where
  | approved
  | rejected
  deriving DecidableEq, Repr

/-- `_effective_policy`: without a policy a tool is denied, and one that destroys or
communicates needs an approval whatever its policy allows. -/
def effectivePolicy (decision : Option PolicyDecision) (sideEffect : SideEffect) :
    PolicyDecision :=
  match decision with
  | none | some .deny => .deny
  | some decision =>
    if sideEffect = .destructive ∨ sideEffect = .externalCommunication then .requireApproval
    else decision

/-- The stored text of an approval's status. -/
def ApprovalStatus.text : ApprovalStatus → String
  | .pending => "pending"
  | .approved => "approved"
  | .rejected => "rejected"
  | .expired => "expired"
  | .cancelled => "cancelled"

namespace Store

variable (store : Store)

/-- `upsert_tool`. -/
def upsertTool (platform : Platform) (principal : Principal) (workspaceId : Uuid) (name : PyStr)
    (body : ToolUpsertInput) (toolId : Uuid) : Except Raised Store := do
  ofContract (validateRegistrationSchema platform.runtime body.inputSchema
    (some body.sideEffect) false)
  ofContract (match body.outputSchema with
    | some schema => validateRegistrationSchema platform.runtime schema none true
    | none => pure ())
  ofRequest (scopedMember store.memberships principal workspaceId .manageTools)
  let inputSchema ← storeJson platform body.inputSchema
  let outputSchema ← body.outputSchema.mapM (storeJson platform)
  let contract : ToolContract :=
    { body.toToolContract with inputSchema := inputSchema, outputSchema := outputSchema }
  match store.toolNamed workspaceId name with
  | some (existingId, _) =>
    pure { store with
      toolDefinitions := store.toolDefinitions.modify existingId fun tool =>
        { tool with toToolContract := contract, enabled := body.enabled } }
  | none => do
      let toolDefinitions ← orRaise (store.toolDefinitions.insert? toolId {
        contract with workspaceId := workspaceId, name := name, enabled := body.enabled })
        .database
      pure { store with toolDefinitions := toolDefinitions }

/-- `set_policy`. -/
def setPolicy (principal : Principal) (workspaceId : Uuid) (toolName : PyStr)
    (policy : ToolPolicy) : Except Raised Store := do
  ofRequest (scopedMember store.memberships principal workspaceId .manageTools)
  let tool ← orRaise (store.toolNamed workspaceId toolName) (.request (.http 404 none))
  pure { store with toolPolicies := store.toolPolicies.put (workspaceId, tool.1) policy }

/-- The policy a tool is under. -/
def policyOf (workspaceId toolId : Uuid) : Option PolicyDecision :=
  (store.toolPolicies.find? (workspaceId, toolId)).map ToolPolicy.decision

/-- Give an approval a status. -/
def setApproval (approvalId : Uuid) (status : ApprovalStatus) (approver : Option Principal) :
    Except Raised Store :=
  store.updateApproval approvalId fun approval =>
    { approval with status := status, approver := approver }

/-- `_cancel_approval`: end a pending approval and, if they have not ended, its call and
its run. -/
def cancelApproval (approvalId : Uuid) (approval : ToolApproval) (status : ApprovalStatus)
    (now : Instant) : Except Raised Store := do
  let settled ← store.updateApproval approvalId fun row =>
    if row.status = ApprovalStatus.pending then { row with status := status } else row
  let withdrawn ← settled.updateCall approval.toolCallId fun call =>
    if call.status.isOpen then
      { call with status := .cancelled, errorCode := some (py status.text) }
    else call
  match withdrawn.runIn approval.workspaceId approval.runId with
  | none => pure withdrawn
  | some run =>
    if run.status = RunStatus.running ∨ run.status = RunStatus.waitingForApproval then
      withdrawn.leaveRun approval.runId .cancelled now
    else pure withdrawn

/-- Whether an approval still asks for what its call would do, on behalf of someone who
may do it. Any other exception of the argument check leaves the transaction. -/
def approvalStands (platform : Platform) (approval : ToolApproval) (call : ToolCall)
    (tool : ToolDefinition) : Except Raised Bool := do
  let currentHash ← ofContract (tool.hash platform.runtime)
  if approval.contractHash ≠ call.contractHash ∨ approval.contractHash ≠ currentHash then
    pure false
  else if scopedMember store.memberships approval.requester approval.workspaceId .runAgents
      ≠ .ok () then
    pure false
  else
    match validateArguments platform.runtime call.arguments tool.inputSchema with
    | .error (.toolContract _) => pure false
    | .error raised => .error (.contract raised)
    | .ok _ =>
      pure (tool.enabled && effectivePolicy (store.policyOf approval.workspaceId call.toolId)
        tool.sideEffect ≠ .deny)

/-- Approve a pending approval: its call may be executed and its run is queued again. -/
def approve (principal : Principal) (approvalId : Uuid) (approval : ToolApproval)
    (run : AgentRun) (jobId : Uuid) (now : Instant) : Except Raised Store := do
  let decided ← store.setApproval approvalId .approved (some principal)
  let approved ← decided.updateCall approval.toolCallId fun call =>
    { call with status := .approved }
  let queued ← approved.leaveRun approval.runId .queued now
  queued.enqueue jobId run approval.runId now

/-- Reject a pending approval: its call is denied and its run ends. -/
def reject (principal : Principal) (approvalId : Uuid) (approval : ToolApproval)
    (now : Instant) : Except Raised Store := do
  let decided ← store.setApproval approvalId .rejected (some principal)
  let rejected ← decided.updateCall approval.toolCallId fun call =>
    { call with status := .denied }
  rejected.leaveRun approval.runId .cancelled now

/-- Decide a pending approval that has not expired. -/
def decidePending (platform : Platform) (principal : Principal) (approvalId : Uuid)
    (approval : ToolApproval) (call : ToolCall) (tool : ToolDefinition) (decision : Decision)
    (jobId : Uuid) (now : Instant) : Except Raised Store := do
  let run ← orRaise ((store.runIn approval.workspaceId approval.runId).filter fun run =>
    run.status = .waitingForApproval) (.request (.http 409 none))
  match decision with
  | .rejected => store.reject principal approvalId approval now
  | .approved => do
      let stands ← store.approvalStands platform approval call tool
      if stands then store.approve principal approvalId approval run jobId now
      else store.cancelApproval approvalId approval .cancelled now

/-- `decide_approval`. -/
def decideApproval (platform : Platform) (principal : Principal) (workspaceId approvalId : Uuid)
    (decision : Decision) (jobId : Uuid) (now : Instant) : Except Raised Store := do
  ofRequest (scopedMember store.memberships principal workspaceId .approveTools)
  let approval ← orRaise ((store.toolApprovals.find? approvalId).filter fun approval =>
    approval.workspaceId = workspaceId) (.request (.http 404 none))
  let call ← orRaise (store.toolCalls.find? approval.toolCallId) (.request (.http 404 none))
  let tool ← orRaise (store.toolOf call) (.request (.http 404 none))
  if approval.status ≠ .pending then pure store
  else if approval.expiresAt ≤ now then store.cancelApproval approvalId approval .expired now
  else store.decidePending platform principal approvalId approval call tool decision jobId now

/-- Expire one pending approval that is due. -/
def expireApproval (now : Instant) (store : Store) (approvalId : Uuid) : Except Raised Store := do
  let approval ← orRaise ((store.toolApprovals.find? approvalId).filter fun approval =>
    approval.status = .pending && approval.expiresAt ≤ now) .database
  store.cancelApproval approvalId approval .expired now

/-- `expire_due`, for the approvals it finds unlocked. -/
def expireDue (limit : Nat) (due : List Uuid) (now : Instant) : Except Raised Store := do
  raiseIf (limit < 1 ∨ 500 < limit) (.request (.valueError "limit must be between 1 and 500"))
  raiseIf (limit < due.length) .database
  due.foldlM (expireApproval now) store

/-- `list_approvals`, which expires what it finds due and unlocked in the workspace. -/
def listApprovals (principal : Principal) (workspaceId : Uuid) (due : List Uuid)
    (now : Instant) : Except Raised Store := do
  ofRequest (scopedMember store.memberships principal workspaceId .approveTools)
  raiseIf (∃ approvalId ∈ due, ∃ approval ∈ store.toolApprovals.find? approvalId,
    approval.workspaceId ≠ workspaceId) .database
  due.foldlM (expireApproval now) store

end Store

end Nexora.Run
