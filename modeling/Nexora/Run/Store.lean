import Nexora.Std.Table
import Nexora.Std.Fallible
import Nexora.Data.Failure
import Nexora.Data.Json
import Nexora.Tools.Contracts
import Nexora.Workspace.Members

/-!
# The run store

Runs, the jobs they are delivered by, the tools their agents may call, the calls
themselves and what an executor journals. A call and an approval keep the request they
were made for as a part of their own, so that no update can reach it. The triggers on the
status of a run, a call and an approval are part of the update statements.
-/

namespace Nexora.Run

open Nexora.Std Nexora.Workspace Nexora.Tools Json

/-- How a transaction ends without a result. It is rolled back. -/
inductive Raised where
  /-- An exception of a request handler, or a `ValueError`. -/
  | request (failure : Failure)
  /-- An exception raised while a contract is checked. -/
  | contract (error : PyError)
  /-- The exception of a status trigger. -/
  | trigger
  /-- A second approval for one call. -/
  | duplicateApproval
  /-- Any other statement the database refused. -/
  | database
  deriving DecidableEq, Repr

/-- `ToolContractError` with its code. -/
def Raised.tool (code : String) : Raised := .contract (.toolContract code)

/-- A check of a request inside a transaction. -/
def ofRequest {α : Type} (check : Except Failure α) : Except Raised α := check.mapError .request

/-- A check of a contract inside a transaction. -/
def ofContract {α : Type} (check : Except PyError α) : Except Raised α := check.mapError .contract

@[simp]
theorem ofRequest_eq_ok {α : Type} (check : Except Failure α) (value : α) :
    ofRequest check = .ok value ↔ check = .ok value := by
  cases check <;> simp [ofRequest, Except.mapError]

@[simp]
theorem ofContract_eq_ok {α : Type} (check : Except PyError α) (value : α) :
    ofContract check = .ok value ↔ check = .ok value := by
  cases check <;> simp [ofContract, Except.mapError]

/-- What a deployment supplies: the interpreter, the value PostgreSQL gives back for a
stored one, and the servers each worker has an adapter for. -/
structure Platform where
  runtime : Runtime
  jsonb : Json → Json
  adapters : String → String → Bool

/-- A value `jsonb` accepts: it encodes, and holds neither U+0000 nor an unpaired
surrogate. -/
def storable (value : Json) : Bool :=
  !value.hasNul && !value.hasSurrogate && !value.hasUnencodable

/-- A text PostgreSQL accepts. -/
def storableText (text : PyStr) : Bool := !text.any fun point => point = 0 || isSurrogate point

/-- Write a value to a `jsonb` column. -/
def storeJson (platform : Platform) (value : Json) : Except Raised Json := do
  raiseIf (storable value = false) .database
  pure (platform.jsonb value)

@[simp]
theorem storeJson_eq_ok (platform : Platform) (value stored : Json) :
    storeJson platform value = .ok stored ↔
      storable value = true ∧ platform.jsonb value = stored := by
  simp only [storeJson, bind_eq_ok, raiseIf_eq_ok, pure_eq_ok, Bool.not_eq_false, exists_and_left,
    exists_const]

/-- A run's status. -/
inductive RunStatus where
  | queued
  | running
  | waitingForApproval
  | succeeded
  | failed
  | cancelled
  deriving DecidableEq, Repr

namespace RunStatus

/-- A status no run leaves. -/
def isTerminal : RunStatus → Bool
  | .succeeded | .failed | .cancelled => true
  | _ => false

/-- `enforce_agent_run_status_transition`. -/
def mayBecome : RunStatus → RunStatus → Bool
  | .queued, next => next ∈ [.queued, .running, .cancelled]
  | .running, _ => true
  | .waitingForApproval, next => next ∈ [.waitingForApproval, .queued, .cancelled]
  | status, next => next = status

end RunStatus

/-- Which kind of agent a run executes. -/
inductive AgentKind where
  | custom
  | standard
  deriving DecidableEq, Repr

/-- A job's payload. -/
structure JobPayload where
  runId : Uuid
  workspaceId : Uuid
  agentId : Uuid
  traceId : Uuid
  agentKind : AgentKind
  deriving DecidableEq, Repr

/-- A job as a worker reads it from the queue. -/
structure WorkerJob where
  jobId : Uuid
  workspaceId : Uuid
  runId : Uuid
  payload : JobPayload
  deriving DecidableEq, Repr

/-- A row of `job_outbox`. -/
structure OutboxJob where
  workspaceId : Uuid
  runId : Uuid
  payload : JobPayload
  availableAt : Instant
  attempts : Nat
  publishedAt : Option Instant
  deadLetteredAt : Option Instant
  deriving DecidableEq

/-- Who executes a run and until when; a run has both or neither. -/
structure Lease where
  owner : String
  expiresAt : Instant
  deriving DecidableEq

/-- The instructions of a custom agent. -/
structure AgentDefinition where
  instructions : PyStr
  modelProfile : PyStr
  deriving DecidableEq

/-- The agent a run executes: a custom one, or a tenant's standard one as it was when the
run was queued. -/
inductive AgentTarget where
  | custom (agentId : Uuid)
  | standard (tenantAgentId : Uuid) (agentSnapshot : Json)
  deriving DecidableEq

namespace AgentTarget

/-- The agent's identifier. -/
def agentId : AgentTarget → Uuid
  | .custom agentId => agentId
  | .standard tenantAgentId _ => tenantAgentId

/-- The agent's kind. -/
def kind : AgentTarget → AgentKind
  | .custom _ => .custom
  | .standard _ _ => .standard

/-- The frozen agent of a standard run. -/
def snapshot? : AgentTarget → Option Json
  | .custom _ => none
  | .standard _ agentSnapshot => some agentSnapshot

end AgentTarget

/-- A row of `agent_runs`. -/
structure AgentRun where
  workspaceId : Uuid
  target : AgentTarget
  requestedBy : Principal
  inputText : PyStr
  idempotencyKey : String
  traceId : Uuid
  status : RunStatus
  attemptCount : Nat
  cancelRequestedAt : Option Instant
  lease : Option Lease
  failureCode : Option PyStr
  updatedAt : Instant
  deriving DecidableEq

/-- The run's lease has not expired. -/
def AgentRun.live (run : AgentRun) (clock : Instant) : Bool :=
  run.lease.any fun lease => clock < lease.expiresAt

/-- What became of a delivered job. -/
inductive ReceiptStatus where
  | processing
  | succeeded
  | failed
  | cancelled
  | superseded
  deriving DecidableEq, Repr

/-- A row of `worker_job_receipts`. -/
structure Receipt where
  workspaceId : Uuid
  runId : Uuid
  status : ReceiptStatus
  workerId : String
  leaseExpiresAt : Option Instant
  deriving DecidableEq

/-- The receipt's lease has not expired. -/
def Receipt.live (receipt : Receipt) (clock : Instant) : Bool :=
  receipt.leaseExpiresAt.any fun expiresAt => clock < expiresAt

/-- What a tool call is governed by. -/
structure ToolContract where
  serverKey : String
  remoteName : String
  inputSchema : Json
  outputSchema : Option Json
  sideEffect : SideEffect
  deriving DecidableEq

/-- The digest a call records its contract by. -/
def ToolContract.hash (runtime : Runtime) (contract : ToolContract) : Except PyError Nat :=
  hashToolContract runtime contract.serverKey contract.remoteName contract.inputSchema
    contract.outputSchema contract.sideEffect

/-- A row of `tool_definitions`. -/
structure ToolDefinition extends ToolContract where
  workspaceId : Uuid
  name : PyStr
  enabled : Bool
  deriving DecidableEq

/-- What a policy decides about a tool. -/
inductive PolicyDecision where
  | allow
  | deny
  | requireApproval
  deriving DecidableEq, Repr

/-- A row of `tool_policies`. -/
structure ToolPolicy where
  decision : PolicyDecision
  reason : PyStr
  deriving DecidableEq

/-- A call's status. -/
inductive CallStatus where
  | planned
  | pendingApproval
  | approved
  | running
  | succeeded
  | failed
  | denied
  | cancelled
  deriving DecidableEq, Repr

namespace CallStatus

/-- A call that has not ended. -/
def isOpen : CallStatus → Bool
  | .planned | .pendingApproval | .approved | .running => true
  | _ => false

/-- `enforce_tool_call_status_transition`. -/
def mayBecome : CallStatus → CallStatus → Bool
  | .planned, next => next ∈ [.planned, .pendingApproval, .running, .denied, .cancelled]
  | .pendingApproval, next => next ∈ [.pendingApproval, .approved, .denied, .cancelled]
  | .approved, next => next ∈ [.approved, .running, .cancelled]
  | .running, next => next ∈ [.running, .planned, .approved, .succeeded, .failed, .cancelled]
  | status, next => next = status

end CallStatus

/-- What was asked for when a call was created. -/
structure CallRequest where
  workspaceId : Uuid
  runId : Uuid
  toolId : Uuid
  callKey : PyStr
  arguments : Json
  argumentsHash : Nat
  contractHash : Nat
  deriving DecidableEq

/-- A row of `tool_calls`. -/
structure ToolCall extends CallRequest where
  status : CallStatus
  policyDecision : PolicyDecision
  result : Option Json
  errorCode : Option PyStr
  attemptCount : Nat
  deriving DecidableEq

/-- An approval's status. -/
inductive ApprovalStatus where
  | pending
  | approved
  | rejected
  | expired
  | cancelled
  deriving DecidableEq, Repr

/-- The transitions `protect_tool_approval` admits. -/
def ApprovalStatus.mayBecome : ApprovalStatus → ApprovalStatus → Bool
  | .pending, _ => true
  | status, next => next = status

/-- What a person is asked to approve. `protect_tool_approval` keeps it as it is. -/
structure ApprovalRequest where
  workspaceId : Uuid
  runId : Uuid
  toolCallId : Uuid
  requestedAction : PyStr
  normalizedArguments : Json
  argumentsHash : Nat
  contractHash : Nat
  requester : Principal
  policyReason : PyStr
  expiresAt : Instant
  deriving DecidableEq

/-- A row of `tool_approvals`. -/
structure ToolApproval extends ApprovalRequest where
  status : ApprovalStatus
  approver : Option Principal
  deriving DecidableEq

/-- A row of `agent_model_steps`. -/
structure ModelStep where
  provider : String
  model : String
  routingReason : String
  response : Json
  deriving DecidableEq

/-- A row of `agent_run_retrievals` with the context text kept beside it. -/
structure Retrieval where
  queryHash : Nat
  contextText : PyStr
  embeddingInputTokens : Nat
  chunkCount : Nat
  deriving DecidableEq

/-- A row of `workspace_spend_records`. -/
structure SpendRecord where
  provider : String
  model : String
  inputTokens : Nat
  outputTokens : Nat
  costMicros : Nat
  deriving DecidableEq

/-- The key a row of the ledger is written once under. -/
inductive SourceKey where
  | agentStep (runId : Uuid) (stepNo : Nat)
  | answerCacheEmbedding (runId : Uuid)
  | runRetrieval (runId : Uuid)
  deriving DecidableEq, Repr

/-- A row of `workspace_answer_cache`. -/
structure CachedAnswer where
  provider : String
  model : String
  response : Json
  expiresAt : Instant
  deriving DecidableEq

/-- The tables the run platform writes. -/
structure Store where
  memberships : Memberships
  agentDefinitions : Table (Uuid × Uuid) AgentDefinition
  agentRuns : Table Uuid AgentRun
  receipts : Table Uuid Receipt
  jobOutbox : Table Uuid OutboxJob
  toolDefinitions : Table Uuid ToolDefinition
  toolPolicies : Table (Uuid × Uuid) ToolPolicy
  toolCalls : Table Uuid ToolCall
  toolApprovals : Table Uuid ToolApproval
  modelSteps : Table (Uuid × Nat) ModelStep
  retrievals : Table Uuid Retrieval
  answerCache : Table (Uuid × Uuid × String) CachedAnswer
  ledger : Table (Uuid × SourceKey) SpendRecord

/-- A store without rows. -/
def Store.empty : Store :=
  ⟨.empty, .empty, .empty, .empty, .empty, .empty, .empty, .empty, .empty, .empty, .empty,
    .empty, .empty⟩

namespace Store

/-- A run of a workspace. -/
def runIn (store : Store) (workspaceId runId : Uuid) : Option AgentRun :=
  (store.agentRuns.find? runId).filter fun run => run.workspaceId = workspaceId

/-- The tool a workspace knows under a name. -/
def toolNamed (store : Store) (workspaceId : Uuid) (name : PyStr) :
    Option (Uuid × ToolDefinition) :=
  store.toolDefinitions.first? fun _ tool => tool.workspaceId = workspaceId && tool.name = name

/-- The tool a call is of. -/
def toolOf (store : Store) (call : ToolCall) : Option ToolDefinition :=
  (store.toolDefinitions.find? call.toolId).filter fun tool =>
    tool.workspaceId = call.workspaceId

/-- A run's call under a key. -/
def callKeyed (store : Store) (runId : Uuid) (callKey : PyStr) : Option (Uuid × ToolCall) :=
  store.toolCalls.first? fun _ call => call.runId = runId && call.callKey = callKey

/-- `_approval_for_call`. -/
def approvalForCall (store : Store) (callId : Uuid) : Option (Uuid × ToolApproval) :=
  store.toolApprovals.first? fun _ approval => approval.toolCallId = callId

/-- `UPDATE agent_runs … WHERE id`, guarded by the status trigger. -/
def updateRun (store : Store) (runId : Uuid) (change : AgentRun → AgentRun) :
    Except Raised Store := do
  raiseIf (∃ run ∈ store.agentRuns.find? runId,
    run.status.mayBecome (change run).status = false) .trigger
  pure { store with agentRuns := store.agentRuns.modify runId change }

@[simp]
theorem updateRun_eq_ok (store next : Store) (runId : Uuid) (change : AgentRun → AgentRun) :
    store.updateRun runId change = .ok next ↔
      (∀ run, store.agentRuns.find? runId = some run →
        run.status.mayBecome (change run).status = true) ∧
      next = { store with agentRuns := store.agentRuns.modify runId change } := by
  simp only [updateRun, bind_eq_ok, raiseIf_eq_ok, pure_eq_ok, Option.mem_def, not_exists, not_and,
    Bool.not_eq_false, exists_and_left, exists_const, eq_comm (a := next)]

/-- `UPDATE tool_calls … WHERE id`, guarded by the status trigger. -/
def updateCall (store : Store) (callId : Uuid) (change : ToolCall → ToolCall) :
    Except Raised Store := do
  raiseIf (∃ call ∈ store.toolCalls.find? callId,
    call.status.mayBecome (change call).status = false) .trigger
  pure { store with toolCalls := store.toolCalls.modify callId change }

@[simp]
theorem updateCall_eq_ok (store next : Store) (callId : Uuid) (change : ToolCall → ToolCall) :
    store.updateCall callId change = .ok next ↔
      (∀ call, store.toolCalls.find? callId = some call →
        call.status.mayBecome (change call).status = true) ∧
      next = { store with toolCalls := store.toolCalls.modify callId change } := by
  simp only [updateCall, bind_eq_ok, raiseIf_eq_ok, pure_eq_ok, Option.mem_def, not_exists, not_and,
    Bool.not_eq_false, exists_and_left, exists_const, eq_comm (a := next)]

/-- `UPDATE tool_approvals … WHERE id`, guarded by the status trigger. -/
def updateApproval (store : Store) (approvalId : Uuid) (change : ToolApproval → ToolApproval) :
    Except Raised Store := do
  raiseIf (∃ approval ∈ store.toolApprovals.find? approvalId,
    approval.status.mayBecome (change approval).status = false) .trigger
  pure { store with toolApprovals := store.toolApprovals.modify approvalId change }

@[simp]
theorem updateApproval_eq_ok (store next : Store) (approvalId : Uuid)
    (change : ToolApproval → ToolApproval) :
    store.updateApproval approvalId change = .ok next ↔
      (∀ approval, store.toolApprovals.find? approvalId = some approval →
        approval.status.mayBecome (change approval).status = true) ∧
      next = { store with toolApprovals := store.toolApprovals.modify approvalId change } := by
  simp only [updateApproval, bind_eq_ok, raiseIf_eq_ok, pure_eq_ok, Option.mem_def, not_exists,
    not_and, Bool.not_eq_false, exists_and_left, exists_const, eq_comm (a := next)]

/-- A run of a workspace is the run under that identifier. -/
@[simp]
theorem runIn_eq_some (store : Store) (workspaceId runId : Uuid) (run : AgentRun) :
    store.runIn workspaceId runId = some run ↔
      store.agentRuns.find? runId = some run ∧ run.workspaceId = workspaceId := by
  simp [runIn]

end Store

end Nexora.Run
