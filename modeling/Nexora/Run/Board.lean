import Nexora.Run.Claims
import Nexora.Run.Frames

/-!
# Runs, calls and approvals

What one transaction can do to a run, to its calls and to their approvals, said once. Every
operation of the store is a sequence of moves of its board, and one of them, starting an
attempt, is made by `claim` alone; what holds of the three tables along every run is derived
from the moves.
-/

namespace Nexora.Run

open Nexora.Std Nexora.Workspace Nexora.Tools Json

/-- The rows whose statuses depend on each other. -/
structure Board where
  runs : Table Uuid AgentRun
  calls : Table Uuid ToolCall
  approvals : Table Uuid ToolApproval

/-- The board of a store. -/
def Store.board (store : Store) : Board where
  runs := store.agentRuns
  calls := store.toolCalls
  approvals := store.toolApprovals

/-- The call once it is given up, unless it has ended. -/
def ToolCall.closed (call : ToolCall) (errorCode : PyStr) : ToolCall :=
  if call.status.isOpen then { call with status := .cancelled, errorCode := some errorCode }
  else call

/-- The call once its run is cancelled by request. -/
def ToolCall.withdrawn (call : ToolCall) (runId : Uuid) : ToolCall :=
  if call.runId = runId ∧ call.status ∈ [CallStatus.planned, .pendingApproval, .approved] then
    { call with status := .cancelled, errorCode := some (py "run_cancelled") }
  else call

/-- The approval once its run is cancelled by request. -/
def ToolApproval.withdrawn (approval : ToolApproval) (runId : Uuid) : ToolApproval :=
  if approval.runId = runId ∧ approval.status = .pending then
    { approval with status := .cancelled }
  else approval

/-- The run once an approval it asked for has lapsed. -/
def AgentRun.lapsed (run : AgentRun) (workspaceId : Uuid) (now : Instant) : AgentRun :=
  if run.workspaceId = workspaceId ∧ (run.status = .running ∨ run.status = .waitingForApproval) then
    { run with status := .cancelled, lease := none, updatedAt := now }
  else run

namespace Board

/-- Some attempt is executing the run, which nobody has asked to cancel. -/
def Held (board : Board) (runId : Uuid) : Prop :=
  ∃ run, board.runs.find? runId = some run ∧ run.status = .running ∧ run.cancelRequestedAt = none

/-- The approval a call was given. -/
def approvalFor (board : Board) (callId : Uuid) : Option (Uuid × ToolApproval) :=
  board.approvals.first? fun _ approval => approval.toolCallId = callId

/-- What a transaction can do to one run, other than start an attempt of it. -/
inductive RunChange (board : Board) (runId : Uuid) (run : AgentRun) : AgentRun → Prop where
  | kept : RunChange board runId run run
  | renewed {held lease : Lease} {now : Instant} (running : run.status = .running)
      (leased : run.lease = some held) (owner : lease.owner = held.owner) :
      RunChange board runId run { run with lease := some lease, updatedAt := now }
  | touched {now : Instant} (queued : run.status = .queued) :
      RunChange board runId run { run with updatedAt := now }
  | requeued {now : Instant} (running : run.status = .running) :
      RunChange board runId run { run with status := .queued, lease := none, updatedAt := now }
  | halted {now : Instant} (status : run.status = .running ∨ run.status = .queued)
      (requested : run.cancelRequestedAt.isSome = true) :
      RunChange board runId run { run with status := .cancelled, lease := none, updatedAt := now }
  | parked {now : Instant} {approvalId : Uuid} {approval : ToolApproval}
      (running : run.status = .running) (notCancelled : run.cancelRequestedAt = none)
      (asked : board.approvals.find? approvalId = some approval)
      (pending : approval.status = .pending) (ofRun : approval.runId = runId)
      (workspace : approval.workspaceId = run.workspaceId) :
      RunChange board runId run
        { run with status := .waitingForApproval, lease := none, updatedAt := now }
  | ended {now : Instant} {status : RunStatus} {failureCode : Option PyStr}
      (running : run.status = .running) (notCancelled : run.cancelRequestedAt = none)
      (result : status = .succeeded ∨ status = .failed) :
      RunChange board runId run
        { run with status := status, lease := none, failureCode := failureCode, updatedAt := now }

/-- A run that is asked to stop, or cancelled where nothing executes it. -/
inductive RunWithdrawn (run : AgentRun) : AgentRun → Prop where
  | requested {at_ now : Instant} (running : run.status = .running) :
      RunWithdrawn run { run with cancelRequestedAt := some at_, updatedAt := now }
  | cancelled {at_ now : Instant} (idle : run.status = .queued ∨ run.status = .waitingForApproval) :
      RunWithdrawn run
        { run with
          status := .cancelled, cancelRequestedAt := some at_, lease := none, updatedAt := now }

/-- What an attempt can do to a call it has planned. -/
inductive CallChange (board : Board) (callId : Uuid) (call : ToolCall) : ToolCall → Prop where
  | denied {status : CallStatus} (open_ : call.status.isOpen = true)
      (unasked : ∀ entry, board.approvalFor callId = some entry → entry.2.status ≠ .pending)
      (target : status = if call.status = .approved ∨ call.status = .running then .cancelled
        else .denied) :
      CallChange board callId call
        { call with status := status, errorCode := some (py "policy_denied") }
  | started (executable : call.status ∈ [CallStatus.planned, .approved, .running]) :
      CallChange board callId call
        { call with
          status := .running, attemptCount := call.attemptCount + 1, errorCode := none }
  | succeeded {result : Json} (running : call.status = .running) :
      CallChange board callId call
        { call with status := .succeeded, result := some result, errorCode := none }
  | failed {errorCode : PyStr} (running : call.status = .running) :
      CallChange board callId call { call with status := .failed, errorCode := some errorCode }
  | retried {status : CallStatus} {errorCode : PyStr} (running : call.status = .running)
      (target : status = if (board.approvalFor callId).any fun entry => entry.2.status = .approved
        then .approved else .planned) :
      CallChange board callId call { call with status := status, errorCode := some errorCode }

/-- Where a call comes from that a person is asked about: it is new, or was only planned. -/
inductive Asked (board : Board) (callId : Uuid) (later : ToolCall) : Prop where
  | new (absent : board.calls.find? callId = none) (attempts : later.attemptCount = 0)
      (unused : ∀ other call, board.calls.find? other = some call → call.runId = later.runId →
        call.callKey ≠ later.callKey)
  | planned {call : ToolCall} (present : board.calls.find? callId = some call)
      (planned : call.status = .planned)
      (same : later =
        { call with status := .pendingApproval, policyDecision := .requireApproval })

/-- Everything a transaction can do to a board, other than start an attempt. -/
inductive Move (before after : Board) : Prop where
  | created {runId : Uuid} {later : AgentRun} (absent : before.runs.find? runId = none)
      (queued : later.status = .queued) (attempts : later.attemptCount = 0)
      (notCancelled : later.cancelRequestedAt = none)
      (runs : before.runs.Written after.runs runId later) (calls : after.calls = before.calls)
      (approvals : after.approvals = before.approvals)
  | run {runId : Uuid} {run later : AgentRun} (found : before.runs.find? runId = some run)
      (change : RunChange before runId run later)
      (runs : before.runs.Written after.runs runId later) (calls : after.calls = before.calls)
      (approvals : after.approvals = before.approvals)
  | withdrawn {runId : Uuid} {run later : AgentRun} (found : before.runs.find? runId = some run)
      (change : RunWithdrawn run later) (runs : before.runs.Written after.runs runId later)
      (calls : after.calls = before.calls.mapRows fun _ call => call.withdrawn runId)
      (approvals : after.approvals =
        before.approvals.mapRows fun _ approval => approval.withdrawn runId)
  | approved {approvalId : Uuid} {approval : ToolApproval} {approver : Option Principal}
      {run : AgentRun} {now : Instant}
      (found : before.approvals.find? approvalId = some approval)
      (pending : approval.status = .pending)
      (runFound : before.runs.find? approval.runId = some run)
      (waiting : run.status = .waitingForApproval)
      (runs : before.runs.Written after.runs approval.runId
        { run with status := .queued, lease := none, updatedAt := now })
      (calls : after.calls = before.calls.modify approval.toolCallId fun call =>
        { call with status := .approved })
      (approvals : before.approvals.Written after.approvals approvalId
        { approval with status := .approved, approver := approver })
  | rejected {approvalId : Uuid} {approval : ToolApproval} {approver : Option Principal}
      {run : AgentRun} {now : Instant}
      (found : before.approvals.find? approvalId = some approval)
      (pending : approval.status = .pending)
      (runFound : before.runs.find? approval.runId = some run)
      (waiting : run.status = .waitingForApproval)
      (runs : before.runs.Written after.runs approval.runId
        { run with status := .cancelled, lease := none, updatedAt := now })
      (calls : after.calls = before.calls.modify approval.toolCallId fun call =>
        { call with status := .denied })
      (approvals : before.approvals.Written after.approvals approvalId
        { approval with status := .rejected, approver := approver })
  | lapsed {approvalId : Uuid} {approval : ToolApproval} {status : ApprovalStatus} {now : Instant}
      (found : before.approvals.find? approvalId = some approval)
      (pending : approval.status = .pending) (target : status = .expired ∨ status = .cancelled)
      (runs : ∀ id, after.runs.find? id = (before.runs.find? id).map fun run =>
        if id = approval.runId then run.lapsed approval.workspaceId now else run)
      (calls : after.calls = before.calls.modify approval.toolCallId fun call =>
        call.closed (py status.text))
      (approvals : before.approvals.Written after.approvals approvalId
        { approval with status := status })
  | added {callId : Uuid} {later : ToolCall} (held : before.Held later.runId)
      (absent : before.calls.find? callId = none)
      (unused : ∀ other call, before.calls.find? other = some call → call.runId = later.runId →
        call.callKey ≠ later.callKey)
      (status : later.status = .planned ∨ later.status = .denied)
      (attempts : later.attemptCount = 0) (runs : after.runs = before.runs)
      (calls : before.calls.Written after.calls callId later)
      (approvals : after.approvals = before.approvals)
  | call {callId : Uuid} {call later : ToolCall} (held : before.Held call.runId)
      (found : before.calls.find? callId = some call) (change : CallChange before callId call later)
      (runs : after.runs = before.runs) (calls : before.calls.Written after.calls callId later)
      (approvals : after.approvals = before.approvals)
  | asked {callId approvalId : Uuid} {later : ToolCall} {approval : ToolApproval}
      (held : before.Held later.runId) (origin : Asked before callId later)
      (status : later.status = .pendingApproval)
      (unasked : before.approvalFor callId = none)
      (free : before.approvals.find? approvalId = none) (pending : approval.status = .pending)
      (ofCall : approval.toolCallId = callId) (ofRun : approval.runId = later.runId)
      (runs : after.runs = before.runs) (calls : before.calls.Written after.calls callId later)
      (approvals : before.approvals.Written after.approvals approvalId approval)
  | dropped {callId : Uuid} {call : ToolCall} (held : before.Held call.runId)
      (found : before.calls.find? callId = some call) (notSucceeded : call.status ≠ .succeeded)
      (runs : after.runs = before.runs)
      (calls : before.calls.Written after.calls callId
        (call.closed (py "tool_contract_changed")))
      (approvals : (∃ approvalId approval,
          before.approvalFor callId = some (approvalId, approval) ∧ approval.status = .pending ∧
          before.approvals.Written after.approvals approvalId
            { approval with status := .cancelled }) ∨
        (after.approvals = before.approvals ∧
          ∀ entry, before.approvalFor callId = some entry → entry.2.status ≠ .pending))

/-- An attempt of a run is started. -/
structure Starts (before after : Board) (runId : Uuid) (run : AgentRun) : Prop where
  found : before.runs.find? runId = some run
  queued : run.status = .queued
  notCancelled : run.cancelRequestedAt = none
  runs : ∃ lease now, before.runs.Written after.runs runId
    { run with
      status := .running, attemptCount := run.attemptCount + 1, lease := some lease
      failureCode := none, updatedAt := now }
  calls : after.calls = before.calls
  approvals : after.approvals = before.approvals

/-- A sequence of moves. -/
def Reaches (before after : Board) : Prop := Relation.ReflTransGen Move before after

end Board

end Nexora.Run
