import Nexora.Run.Store

/-!
# Run state

`RunStateStore`: how a worker claims a delivered job, keeps its lease alive, ends an
attempt or parks it for an approval, and how attempts whose lease ran out are recovered.
Each operation is one transaction; `now` is its timestamp, read once when it starts.
-/

namespace Nexora.Run

open Nexora.Std Nexora.Workspace Nexora.Tools Json

/-- How often a run is attempted before a retryable failure ends it. -/
def maxRunAttempts : Nat := 3

/-- Microseconds of a number of seconds. -/
def seconds (count : Nat) : Nat := count * 1000000

/-- What one attempt executes, as it was handed to the worker. -/
structure ExecutionContext where
  jobId : Uuid
  workspaceId : Uuid
  runId : Uuid
  agentId : Uuid
  traceId : Uuid
  inputText : PyStr
  instructions : Option PyStr
  modelProfile : Option PyStr
  attemptCount : Nat
  agentKind : AgentKind
  agentSnapshot : Option Json
  allowedTools : Option (List PyStr)
  toolAliases : Option (List (PyStr × PyStr))
  deriving DecidableEq

/-- The part of a context that the agent's definition or snapshot decides. -/
structure ExecutionProfile where
  instructions : Option PyStr
  modelProfile : Option PyStr
  agentSnapshot : Option Json
  allowedTools : Option (List PyStr)
  toolAliases : Option (List (PyStr × PyStr))
  deriving DecidableEq

/-- The payload a run's jobs carry. -/
def AgentRun.payload (run : AgentRun) (runId : Uuid) : JobPayload where
  runId := runId
  workspaceId := run.workspaceId
  agentId := run.target.agentId
  traceId := run.traceId
  agentKind := run.target.kind

/-- `isinstance(value, str)` with its value. -/
def string? : Json → Option PyStr
  | .str text => some text
  | _ => none

/-- A list of strings. -/
def stringItems? : Json → Option (List PyStr)
  | .array items => items.mapM string?
  | _ => none

/-- An object whose values are strings. -/
def stringMembers? : Json → Option (List (PyStr × PyStr))
  | .object members => members.mapM fun member => (string? member.2).map (member.1, ·)
  | _ => none

/-- A member that is a non-empty string. -/
def nonEmptyString? (value : Json) (key : PyStr) : Option PyStr :=
  ((value.get? key).bind string?).filter (· ≠ [])

/-- The profile a standard agent's snapshot describes, if it is well formed. -/
def snapshotProfile (snapshot : Json) : Option ExecutionProfile := do
  guard (isObject snapshot)
  let instructions ← nonEmptyString? snapshot (py "instructions")
  let modelProfile ← nonEmptyString? snapshot (py "model_profile")
  let allowed ← (snapshot.get? (py "allowed_tools")).bind stringItems?
  let aliases ← stringMembers? ((snapshot.get? (py "tool_aliases")).getD (.object []))
  pure {
    instructions := instructions, modelProfile := modelProfile, agentSnapshot := snapshot
    allowedTools := some allowed, toolAliases := some aliases }

namespace Store

variable (store : Store)

/-- The profile a run is executed under. -/
def executionProfile (run : AgentRun) : Option ExecutionProfile :=
  match run.target with
  | .standard _ snapshot => snapshotProfile snapshot
  | .custom agentId =>
    let definition := store.agentDefinitions.find? (run.workspaceId, agentId)
    some {
      instructions := definition.map AgentDefinition.instructions
      modelProfile := definition.map AgentDefinition.modelProfile
      agentSnapshot := none, allowedTools := none, toolAliases := none }

/-- `_validate_job`: the stored payload, when the delivered job is the stored one. -/
def validateJob (job : WorkerJob) : Option JobPayload := do
  let row ← store.jobOutbox.find? job.jobId
  guard (row.deadLetteredAt = none)
  guard (row.workspaceId = job.workspaceId ∧ row.runId = job.runId ∧ row.payload = job.payload ∧
    job.payload.workspaceId = job.workspaceId ∧ job.payload.runId = job.runId)
  pure row.payload

/-- The run a delivered job is for, when there is anything to execute at all. -/
def claimTarget (job : WorkerJob) : Option (AgentRun × ExecutionProfile) := do
  let payload ← store.validateJob job
  guard (∀ receipt ∈ store.receipts.find? job.jobId, receipt.status = .processing)
  let run ← store.runIn job.workspaceId job.runId
  guard (run.target.agentId = payload.agentId ∧ run.target.kind = payload.agentKind ∧
    run.traceId = payload.traceId)
  let profile ← store.executionProfile run
  pure (run, profile)

/-- Store a job's receipt. A receipt that exists keeps the run it was written for. -/
def putReceipt (job : WorkerJob) (status : ReceiptStatus) (workerId : String)
    (leaseExpiresAt : Option Instant) : Store :=
  let receipt := match store.receipts.find? job.jobId with
    | some receipt =>
      { receipt with
        status := status, workerId := workerId, leaseExpiresAt := leaseExpiresAt }
    | none =>
      { workspaceId := job.workspaceId, runId := job.runId, status := status
        workerId := workerId, leaseExpiresAt := leaseExpiresAt }
  { store with receipts := store.receipts.put job.jobId receipt }

/-- `_terminal_receipt`. -/
def terminalReceipt (job : WorkerJob) (status : ReceiptStatus) (workerId : String) : Store :=
  store.putReceipt job status workerId none

/-- End a job's receipt, whoever wrote it. -/
def closeReceipt (jobId : Uuid) (status : ReceiptStatus) : Store :=
  { store with
    receipts := store.receipts.modify jobId fun receipt =>
      { receipt with status := status, leaseExpiresAt := none } }

/-- Withdraw every receipt a run is being processed under. -/
def supersedeReceipts (runId : Uuid) (clearLease : Bool) : Store :=
  { store with
    receipts := store.receipts.mapRows fun _ receipt =>
      if receipt.runId = runId ∧ receipt.status = .processing then
        { receipt with
          status := .superseded
          leaseExpiresAt := if clearLease then none else receipt.leaseExpiresAt }
      else receipt }

/-- Take a run's lease away and give the run a status. -/
def leaveRun (runId : Uuid) (status : RunStatus) (now : Instant) : Except Raised Store :=
  store.updateRun runId fun run =>
    { run with status := status, lease := none, updatedAt := now }

/-- Give a run a status no run leaves. -/
def endRun (runId : Uuid) (status : RunStatus) (failureCode : Option PyStr) (now : Instant) :
    Except Raised Store :=
  store.updateRun runId fun run =>
    { run with status := status, lease := none, failureCode := failureCode, updatedAt := now }

/-- `_cancel_locked`: end a run someone asked to cancel, and the job it came with. -/
def cancelLocked (job : WorkerJob) (workerId : String) (now : Instant) : Except Raised Store := do
  let cancelled ← store.leaveRun job.runId .cancelled now
  pure (cancelled.terminalReceipt job .cancelled workerId)

/-- Add a job to the outbox. -/
def enqueue (jobId : Uuid) (run : AgentRun) (runId : Uuid) (availableAt : Instant) :
    Except Raised Store := do
  let jobOutbox ← orRaise (store.jobOutbox.insert? jobId {
    workspaceId := run.workspaceId, runId := runId, payload := run.payload runId
    availableAt := availableAt, attempts := 0, publishedAt := none, deadLetteredAt := none })
    .database
  pure { store with jobOutbox := jobOutbox }

/-- Start an attempt: the run and the job's receipt get the same lease. -/
def startAttempt (job : WorkerJob) (workerId : String) (leaseSeconds : Nat) (now : Instant) :
    Except Raised Store := do
  let expiresAt := now + seconds leaseSeconds
  let started ← store.updateRun job.runId fun run =>
    { run with
      status := .running, attemptCount := run.attemptCount + 1, lease := some ⟨workerId, expiresAt⟩
      failureCode := none, updatedAt := now }
  pure (started.putReceipt job .processing workerId (some expiresAt))

/-- The context handed out with a claimed run. -/
def contextOf (job : WorkerJob) (run : AgentRun) (profile : ExecutionProfile) :
    ExecutionContext where
  jobId := job.jobId
  workspaceId := run.workspaceId
  runId := job.runId
  agentId := run.target.agentId
  traceId := run.traceId
  inputText := run.inputText
  instructions := profile.instructions
  modelProfile := profile.modelProfile
  attemptCount := run.attemptCount + 1
  agentKind := run.target.kind
  agentSnapshot := profile.agentSnapshot
  allowedTools := profile.allowedTools
  toolAliases := profile.toolAliases

/-- The part of `claim` that recovers a run whose lease ran out. -/
def recoverClaimed (job : WorkerJob) (run : AgentRun) (now : Instant) : Except Raised Store :=
  if run.status = .running then
    (store.supersedeReceipts job.runId false).leaveRun job.runId .queued now
  else .ok store

/-- The end of `claim`: recover a run whose lease ran out, honour a cancellation, or start
an attempt. -/
def claimRun (job : WorkerJob) (run : AgentRun) (profile : ExecutionProfile) (workerId : String)
    (leaseSeconds : Nat) (now : Instant) : Except Raised (Store × Option ExecutionContext) := do
  let recovered ← store.recoverClaimed job run now
  if run.cancelRequestedAt.isSome then do
    let cancelled ← recovered.cancelLocked job workerId now
    pure (cancelled, none)
  else do
    let started ← recovered.startAttempt job workerId leaseSeconds now
    pure (started, some (contextOf job run profile))

/-- The receipt that answers a job delivered for a run that has ended. -/
def endedReceipt : RunStatus → ReceiptStatus
  | .cancelled => .cancelled
  | .failed => .failed
  | _ => .succeeded

/-- `claim`: the context of a new attempt, or nothing when the delivery is only
acknowledged. -/
def claim (job : WorkerJob) (workerId : String) (leaseSeconds : Nat) (now : Instant) :
    Except Raised (Store × Option ExecutionContext) := do
  raiseIf (leaseSeconds < 3 ∨ 300 < leaseSeconds)
    (.request (.valueError "lease_seconds must be between 3 and 300"))
  match store.claimTarget job with
  | none => pure (store, none)
  | some (run, profile) =>
    if run.status.isTerminal then
      pure (store.terminalReceipt job (endedReceipt run.status) workerId, none)
    else if run.status = .waitingForApproval then
      pure (store.terminalReceipt job .superseded workerId, none)
    else if (store.receipts.find? job.jobId).any fun receipt => receipt.live now then
      pure (store, none)
    else if run.status = .running ∧ run.live now then
      pure (store.terminalReceipt job .superseded workerId, none)
    else store.claimRun job run profile workerId leaseSeconds now

/-- `renew_lease`: extend what is still alive of the attempt's two leases. -/
def renewLease (jobId runId : Uuid) (workerId : String) (leaseSeconds : Nat) (now : Instant) :
    Store :=
  let expiresAt := now + seconds leaseSeconds
  { store with
    receipts := store.receipts.modify jobId fun receipt =>
      if receipt.runId = runId ∧ receipt.status = .processing ∧ receipt.workerId = workerId ∧
          receipt.live now then
        { receipt with leaseExpiresAt := some expiresAt }
      else receipt
    agentRuns := store.agentRuns.modify runId fun run =>
      if run.status = .running ∧ run.live now ∧
          (run.lease.any fun lease => lease.owner = workerId) then
        { run with lease := some ⟨workerId, expiresAt⟩, updatedAt := now }
      else run }

/-- `_owned_processing`: the run, when this worker's attempt under this job is the one
that holds it and both leases are alive. -/
def ownedProcessing (job : WorkerJob) (workerId : String) (now : Instant) : Option AgentRun := do
  let run ← store.runIn job.workspaceId job.runId
  let receipt ← store.receipts.find? job.jobId
  guard (run.status = .running ∧ (run.lease.any fun lease => lease.owner = workerId) ∧
    receipt.status = .processing ∧ receipt.workerId = workerId)
  guard (run.live now ∧ receipt.live now)
  pure run

/-- `wait_for_approval`, with whether the delivery is done with. -/
def waitForApproval (job : WorkerJob) (workerId : String) (toolCallId approvalId : Uuid)
    (now : Instant) : Except Raised (Store × Bool) :=
  match store.ownedProcessing job workerId now with
  | none => pure (store, false)
  | some run =>
    if run.cancelRequestedAt.isSome then do
      let cancelled ← store.cancelLocked job workerId now
      pure (cancelled, true)
    else if (store.toolApprovals.find? approvalId).any fun approval =>
        approval.toolCallId = toolCallId && approval.runId = job.runId &&
          approval.workspaceId = job.workspaceId && approval.status = .pending &&
          now < approval.expiresAt then do
      let waiting ← store.leaveRun job.runId .waitingForApproval now
      pure (waiting.closeReceipt job.jobId .superseded, true)
    else pure (store, false)

/-- `complete_success` of a run, with whether the delivery is done with. -/
def completeSuccess (job : WorkerJob) (workerId : String) (now : Instant) :
    Except Raised (Store × Bool) :=
  match store.ownedProcessing job workerId now with
  | none => pure (store, false)
  | some run =>
    if run.cancelRequestedAt.isSome then do
      let cancelled ← store.cancelLocked job workerId now
      pure (cancelled, true)
    else do
      let ended ← store.endRun job.runId .succeeded none now
      pure (ended.closeReceipt job.jobId .succeeded, true)

/-- `complete_failure` of a run, with whether the delivery is done with. The retry's job
becomes available after a delay. -/
def completeFailure (job : WorkerJob) (workerId : String) (errorCode : PyStr) (retryable : Bool)
    (newJobId : Uuid) (delay now : Instant) : Except Raised (Store × Bool) := do
  raiseIf (errorCode = [] ∨ 100 < errorCode.length) (.request (.valueError "invalid error_code"))
  match store.ownedProcessing job workerId now with
  | none => pure (store, false)
  | some run =>
    if run.cancelRequestedAt.isSome then do
      let cancelled ← store.cancelLocked job workerId now
      pure (cancelled, true)
    else if retryable ∧ run.attemptCount < maxRunAttempts then do
      let queued ← store.leaveRun job.runId .queued now
      raiseIf (storableText errorCode = false) .database
      let enqueued ← (queued.closeReceipt job.jobId .failed).enqueue newJobId run job.runId
        (now + delay)
      pure (enqueued, true)
    else do
      raiseIf (storableText errorCode = false) .database
      let ended ← store.endRun job.runId .failed (some errorCode) now
      pure (ended.closeReceipt job.jobId .failed, true)

/-- Recover one run whose lease ran out: nothing processes it any more and a new job is
queued for it. -/
def recoverExpired (now : Instant) (store : Store) (recovery : Uuid × Uuid) :
    Except Raised Store := do
  let run ← orRaise ((store.agentRuns.find? recovery.1).filter fun run =>
    run.status = .running && run.lease.any fun lease => lease.expiresAt < now) .database
  let queued ← (store.supersedeReceipts recovery.1 true).leaveRun recovery.1 .queued now
  queued.enqueue recovery.2 run recovery.1 now

/-- Queue a new job for one run that has waited for a delivery too long. -/
def requeueOrphan (orphanSeconds : Nat) (now : Instant) (store : Store)
    (recovery : Uuid × Uuid) : Except Raised Store := do
  let run ← orRaise ((store.agentRuns.find? recovery.1).filter fun run =>
    run.status = .queued && run.updatedAt + seconds orphanSeconds < now &&
      !store.jobOutbox.any fun _ row =>
        row.runId = recovery.1 && row.publishedAt = none && row.deadLetteredAt = none) .database
  let touched ← store.updateRun recovery.1 fun run => { run with updatedAt := now }
  touched.enqueue recovery.2 run recovery.1 now

/-- `recover_stale`: the runs it finds unlocked, each with the identifier of its new job. -/
def recoverStale (limit orphanSeconds : Nat) (expired orphans : List (Uuid × Uuid))
    (now : Instant) : Except Raised Store := do
  raiseIf (limit < 1 ∨ 100 < limit) (.request (.valueError "limit must be between 1 and 100"))
  raiseIf (3600 < orphanSeconds)
    (.request (.valueError "orphan_seconds must be between 0 and 3600"))
  raiseIf (limit < expired.length + orphans.length) .database
  let recovered ← expired.foldlM (recoverExpired now) store
  orphans.foldlM (requeueOrphan orphanSeconds now) recovered

end Store

end Nexora.Run
