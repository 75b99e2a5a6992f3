import Nexora.Run.System

/-!
# What an operation leaves

One inversion lemma for the requests and one for the end of an attempt: every branch that
succeeds, with what it has checked before it writes. What an invariant needs of an operation is
read off here.
-/

namespace Nexora.Run

open Nexora.Std Nexora.Workspace Nexora.Tools

variable {now : Instant} {approvalId : Uuid} {workerId : String}

namespace Store

/-- What `_owned_processing` has checked when it returns a run. -/
structure Owns (store : Store) (job : WorkerJob) (workerId : String) (now : Instant)
    (run : AgentRun) : Prop where
  present : store.agentRuns.find? job.runId = some run
  workspace : run.workspaceId = job.workspaceId
  running : run.status = .running
  held : ∃ lease, run.lease = some lease ∧ lease.owner = workerId ∧ now < lease.expiresAt
  receipt : ∃ receipt, store.receipts.find? job.jobId = some receipt ∧
    receipt.status = .processing ∧ receipt.workerId = workerId ∧ receipt.live now = true

theorem owns_of_ownedProcessing {store : Store} {job : WorkerJob} {run : AgentRun}
    (owned : store.ownedProcessing job workerId now = some run) :
    store.Owns job workerId now run := by
  simp only [ownedProcessing, Option.bind_eq_bind, Option.bind_eq_some_iff, runIn_eq_some,
    Option.guard_eq_some', Option.pure_def, Option.some.injEq] at owned
  obtain ⟨_, ⟨present, workspace⟩, receipt, found, _, ⟨running, owner, processing, worker⟩, _,
    ⟨runLive, receiptLive⟩, rfl⟩ := owned
  refine ⟨present, workspace, running, ?_, receipt, found, processing, worker, receiptLive⟩
  obtain ⟨lease, held, sameOwner⟩ := (Option.any_eq_true _ _).mp owner
  refine ⟨lease, held, of_decide_eq_true sameOwner, ?_⟩
  simpa [AgentRun.live, held] using runLive

/-- An approval that lapses is withdrawn with its call, and its run is cancelled if it waits. -/
theorem cancelApproval_effect {store next : Store} {approval : ToolApproval}
    {status : ApprovalStatus}
    (ok : store.cancelApproval approvalId approval status now = .ok next) :
    ∃ toolApprovals toolCalls,
      next = { store with toolApprovals := toolApprovals, toolCalls := toolCalls } ∨
      leaveRun { store with toolApprovals := toolApprovals, toolCalls := toolCalls }
        approval.runId .cancelled now = .ok next := by
  simp only [cancelApproval, bind_eq_ok, updateApproval_eq_ok, updateCall_eq_ok] at ok
  obtain ⟨_, ⟨_, rfl⟩, _, ⟨_, rfl⟩, ok⟩ := ok
  split at ok
  · cases ok
    exact ⟨_, _, .inl rfl⟩
  split at ok
  · exact ⟨_, _, .inr ok⟩
  · cases ok
    exact ⟨_, _, .inl rfl⟩

/-- The store when a caller has decided an approval, with its call and its run. -/
def decided (store : Store) (approvalId : Uuid) (approval : ToolApproval) (principal : Principal)
    (status : ApprovalStatus) (callStatus : CallStatus) (runStatus : RunStatus) (now : Instant) :
    Store :=
  { store with
    toolApprovals := store.toolApprovals.modify approvalId fun approval =>
      { approval with status := status, approver := some principal }
    toolCalls := store.toolCalls.modify approval.toolCallId fun call =>
      { call with status := callStatus }
    agentRuns := store.agentRuns.modify approval.runId fun run =>
      { run with status := runStatus, lease := none, updatedAt := now } }

end Store

/-- What the end of an attempt leaves of the store. -/
inductive Finished (store : Store) (workerId : String) (session : Session) (newJobId : Uuid)
    (delay now : Instant) (next : Store) : Prop where
  | stands (same : next = store)
  | cancelled {run : AgentRun} (owned : store.ownedProcessing session.job workerId now = some run)
      (requested : run.cancelRequestedAt.isSome = true)
      (done : store.cancelLocked session.job workerId now = .ok next)
  | waiting {run : AgentRun} {toolCallId approvalId : Uuid} {approval : ToolApproval}
      {parked : Store} (stage : session.stage = .raised (.approvalRequired toolCallId approvalId))
      (owned : store.ownedProcessing session.job workerId now = some run)
      (notRequested : run.cancelRequestedAt = none)
      (found : store.toolApprovals.find? approvalId = some approval)
      (pending : approval.status = .pending) (ofRun : approval.runId = session.job.runId)
      (workspace : approval.workspaceId = session.job.workspaceId)
      (done : store.leaveRun session.job.runId .waitingForApproval now = .ok parked)
      (closed : next = parked.closeReceipt session.job.jobId .superseded)
  | ended {run : AgentRun} {status : RunStatus} {receipt : ReceiptStatus}
      {failureCode : Option PyStr} {left_ : Store}
      (owned : store.ownedProcessing session.job workerId now = some run)
      (notRequested : run.cancelRequestedAt = none) (stopped : receipt ≠ .processing)
      (result : status = .succeeded ∧ session.stage = .returned ∨ status = .failed)
      (done : store.endRun session.job.runId status failureCode now = .ok left_)
      (closed : next = left_.closeReceipt session.job.jobId receipt)
  | retried {run : AgentRun} {queued : Store}
      (owned : store.ownedProcessing session.job workerId now = some run)
      (done : store.leaveRun session.job.runId .queued now = .ok queued)
      (enqueued : (queued.closeReceipt session.job.jobId .failed).enqueue newJobId run
        session.job.runId (now + delay) = .ok next)

theorem finish_effect {store next : Store} {session : Session} {newJobId : Uuid} {delay : Instant}
    {handled : Bool} (ok : finish store workerId session newJobId delay now = .ok (next, handled)) :
    Finished store workerId session newJobId delay now next := by
  have failure {code : PyStr} {retryable : Bool}
      (ok : store.completeFailure session.job workerId code retryable newJobId delay now =
        .ok (next, handled)) : Finished store workerId session newJobId delay now next := by
    unfold Store.completeFailure at ok
    simp only [bind_eq_ok, raiseIf_eq_ok, exists_and_left, exists_const] at ok
    obtain ⟨_, ok⟩ := ok
    split at ok
    case h_1 =>
      cases ok
      exact .stands rfl
    case h_2 run owned =>
      split at ok
      case isTrue requested =>
        simp only [bind_eq_ok, pure_eq_ok, Prod.mk.injEq] at ok
        obtain ⟨_, done, rfl, _⟩ := ok
        exact .cancelled owned requested done
      case isFalse notRequested =>
        split at ok
        · simp only [bind_eq_ok, pure_eq_ok, Prod.mk.injEq] at ok
          obtain ⟨_, done, _, _, _, enqueued, rfl, _⟩ := ok
          exact .retried owned done enqueued
        · simp only [bind_eq_ok, pure_eq_ok, Prod.mk.injEq] at ok
          obtain ⟨_, _, _, done, rfl, _⟩ := ok
          exact .ended owned (by simpa using notRequested) (by simp) (.inr rfl) done rfl
  unfold finish at ok
  split at ok
  case h_1 returned =>
    unfold Store.completeSuccess at ok
    split at ok
    case h_1 =>
      cases ok
      exact .stands rfl
    case h_2 run owned =>
      split at ok
      case isTrue requested =>
        simp only [bind_eq_ok, pure_eq_ok, Prod.mk.injEq] at ok
        obtain ⟨_, done, rfl, _⟩ := ok
        exact .cancelled owned requested done
      case isFalse notRequested =>
        simp only [bind_eq_ok, pure_eq_ok, Prod.mk.injEq] at ok
        obtain ⟨_, done, rfl, _⟩ := ok
        exact .ended owned (by simpa using notRequested) (by simp) (.inl ⟨rfl, returned⟩) done rfl
  case h_2 stage =>
    unfold Store.waitForApproval at ok
    split at ok
    case h_1 =>
      cases ok
      exact .stands rfl
    case h_2 run owned =>
      split at ok
      case isTrue requested =>
        simp only [bind_eq_ok, pure_eq_ok, Prod.mk.injEq] at ok
        obtain ⟨_, done, rfl, _⟩ := ok
        exact .cancelled owned requested done
      case isFalse notRequested =>
        split at ok
        case isTrue asked =>
          simp only [bind_eq_ok, pure_eq_ok, Prod.mk.injEq] at ok
          obtain ⟨_, done, rfl, _⟩ := ok
          obtain ⟨approval, found, checks⟩ := (Option.any_eq_true _ _).mp asked
          simp only [Bool.and_eq_true, decide_eq_true_eq] at checks
          obtain ⟨⟨⟨⟨_, ofRun⟩, workspace⟩, pending⟩, _⟩ := checks
          exact .waiting stage owned (by simpa using notRequested) found pending ofRun workspace
            done rfl
        case isFalse =>
          cases ok
          exact .stands rfl
  case h_7 => cases ok
  all_goals exact failure ok

/-- What a request leaves of the store. -/
inductive Request.Effect (store : Store) (request : Request) (next : Store) : Prop where
  | stands (same : next = store)
  | settings {memberships : Memberships} {toolDefinitions : Table Uuid ToolDefinition}
      {toolPolicies : Table (Uuid × Uuid) ToolPolicy}
      (same : next = { store with
        memberships := memberships, toolDefinitions := toolDefinitions
        toolPolicies := toolPolicies })
  | created {runId jobId traceId workspaceId : Uuid} {principal : Principal} {target : AgentTarget}
      {inputText : PyStr} {idempotencyKey : String} {now : Instant}
      (absent : store.agentRuns.find? runId = none)
      (enqueued : Store.enqueue { store with
        agentRuns := store.agentRuns.put runId
          (Store.newRun principal workspaceId target inputText idempotencyKey traceId now) } jobId
        (Store.newRun principal workspaceId target inputText idempotencyKey traceId now) runId
        now = .ok next)
  | requested {runId : Uuid} {run : AgentRun} {now : Instant}
      (present : store.agentRuns.find? runId = some run) (running : run.status = .running)
      (same : next = { store.withdrawCalls runId with
        agentRuns := store.agentRuns.modify runId fun run =>
          { run with
            cancelRequestedAt := some (run.cancelRequestedAt.getD now)
            updatedAt := if run.cancelRequestedAt.isSome then run.updatedAt else now } })
  | cancelled {runId : Uuid} {run : AgentRun} {now : Instant}
      (present : store.agentRuns.find? runId = some run)
      (idle : run.status = .queued ∨ run.status = .waitingForApproval)
      (same : next = { store.withdrawCalls runId with
        agentRuns := store.agentRuns.modify runId fun run =>
          { run with
            status := .cancelled, cancelRequestedAt := some (run.cancelRequestedAt.getD now)
            lease := none, updatedAt := now } })
  | lapsed {approvalId : Uuid} {approval : ToolApproval} {status : ApprovalStatus} {now : Instant}
      (found : store.toolApprovals.find? approvalId = some approval)
      (pending : approval.status = .pending) (target : status = .expired ∨ status = .cancelled)
      (done : store.cancelApproval approvalId approval status now = .ok next)
  | rejected {approvalId : Uuid} {approval : ToolApproval} {principal : Principal}
      {run : AgentRun} {now : Instant}
      (found : store.toolApprovals.find? approvalId = some approval)
      (pending : approval.status = .pending)
      (present : store.agentRuns.find? approval.runId = some run)
      (waiting : run.status = .waitingForApproval)
      (same : next = store.decided approvalId approval principal .rejected .denied .cancelled now)
  | approved {approvalId jobId : Uuid} {approval : ToolApproval} {principal : Principal}
      {run : AgentRun} {now : Instant}
      (found : store.toolApprovals.find? approvalId = some approval)
      (pending : approval.status = .pending)
      (present : store.agentRuns.find? approval.runId = some run)
      (waiting : run.status = .waitingForApproval)
      (enqueued : (store.decided approvalId approval principal .approved .approved .queued
        now).enqueue jobId run approval.runId now = .ok next)
  | expired {due : List Uuid} {now : Instant}
      (done : due.foldlM (Store.expireApproval now) store = .ok next)
  | recovered {limit orphanSeconds : Nat} {expired orphans : List (Uuid × Uuid)} {now : Instant}
      {middle : Store}
      (asked : request = .recoverStale limit orphanSeconds expired orphans now)
      (first : expired.foldlM (Store.recoverExpired now) store = .ok middle)
      (second : orphans.foldlM (Store.requeueOrphan orphanSeconds now) middle = .ok next)
  | published {jobId : Uuid} {delivered : Bool} {delay now : Instant}
      (asked : request = .publish jobId delivered delay now)
      (done : store.publish jobId delivered delay now = .ok next)

section Requests

variable {platform : Platform} {store next : Store} {principal : Principal}
  {workspaceId runId jobId : Uuid}

theorem Store.requestRun_effect {traceId : Uuid} {target : AgentTarget} {inputText : PyStr}
    {idempotencyKey : String}
    (ok : store.requestRun principal workspaceId target inputText idempotencyKey runId traceId jobId
      now = .ok next) (request : Request) : Request.Effect store request next := by
  unfold Store.requestRun at ok
  split at ok
  · simp only [bind_eq_ok, raiseIf_eq_ok, pure_eq_ok, exists_and_left, exists_const] at ok
    obtain ⟨_, rfl⟩ := ok
    exact .stands rfl
  · simp only [Store.insertRun, bind_eq_ok, orRaise_eq_ok, Table.insert?_eq_some] at ok
    obtain ⟨_, ⟨absent, rfl⟩, enqueued⟩ := ok
    exact .created absent enqueued

theorem Store.decideApproval_effect {decision : Decision}
    (ok : store.decideApproval platform principal workspaceId approvalId decision jobId now =
      .ok next) (request : Request) : Request.Effect store request next := by
  simp only [Store.decideApproval, bind_eq_ok, ofRequest_eq_ok, orRaise_eq_ok,
    Option.filter_eq_some_iff] at ok
  obtain ⟨_, _, approval, ⟨found, _⟩, call, _, tool, _, ok⟩ := ok
  split at ok
  case isTrue =>
    cases ok
    exact .stands rfl
  case isFalse pending =>
    rw [ne_eq, not_not] at pending
    split at ok
    · exact .lapsed found pending (.inl rfl) ok
    simp only [Store.decidePending, bind_eq_ok, orRaise_eq_ok, Option.filter_eq_some_iff,
      Store.runIn_eq_some, decide_eq_true_eq] at ok
    obtain ⟨run, ⟨⟨present, _⟩, waiting⟩, ok⟩ := ok
    cases decision with
    | rejected =>
      simp only [Store.reject, Store.setApproval, Store.leaveRun, bind_eq_ok,
        Store.updateApproval_eq_ok, Store.updateCall_eq_ok, Store.updateRun_eq_ok] at ok
      obtain ⟨_, ⟨_, rfl⟩, _, ⟨_, rfl⟩, _, rfl⟩ := ok
      exact .rejected found pending present waiting rfl
    | approved =>
      simp only [bind_eq_ok] at ok
      obtain ⟨stands, _, ok⟩ := ok
      split at ok
      · simp only [Store.approve, Store.setApproval, Store.leaveRun, bind_eq_ok,
          Store.updateApproval_eq_ok, Store.updateCall_eq_ok, Store.updateRun_eq_ok] at ok
        obtain ⟨_, ⟨_, rfl⟩, _, ⟨_, rfl⟩, _, ⟨_, rfl⟩, enqueued⟩ := ok
        exact .approved found pending present waiting enqueued
      · exact .lapsed found pending (.inr rfl) ok

theorem Store.cancelRun_effect (ok : store.cancelRun principal workspaceId runId now = .ok next)
    (request : Request) :
    Request.Effect store request next := by
  simp only [Store.cancelRun, bind_eq_ok, ofRequest_eq_ok, orRaise_eq_ok, raiseIf_eq_ok,
    Store.runIn_eq_some, exists_and_left, exists_const] at ok
  obtain ⟨_, _, run, ⟨present, _⟩, _, ok⟩ := ok
  split at ok
  case isTrue =>
    cases ok
    exact .stands rfl
  case isFalse open_ =>
    split at ok
    case isTrue running =>
      rw [Store.updateRun_eq_ok] at ok
      obtain ⟨_, rfl⟩ := ok
      exact .requested present running rfl
    case isFalse notRunning =>
      rw [Store.updateRun_eq_ok] at ok
      obtain ⟨_, rfl⟩ := ok
      refine .cancelled present ?_ rfl
      cases status : run.status <;> simp_all [RunStatus.isTerminal]

theorem Request.effect {request : Request} (ok : request.run platform store = .ok next) :
    request.Effect store next := by
  cases request with
  | setMember =>
    simp only [Request.run, bind_eq_ok, pure_eq_ok] at ok
    obtain ⟨_, _, rfl⟩ := ok
    exact .settings rfl
  | upsertTool =>
    simp only [Request.run, Store.upsertTool, bind_eq_ok] at ok
    obtain ⟨_, _, _, _, _, _, _, _, _, _, ok⟩ := ok
    split at ok
    · rw [pure_eq_ok] at ok
      exact .settings ok.symm
    · simp only [bind_eq_ok, pure_eq_ok] at ok
      obtain ⟨_, _, rfl⟩ := ok
      exact .settings rfl
  | setPolicy =>
    simp only [Request.run, Store.setPolicy, bind_eq_ok, pure_eq_ok] at ok
    obtain ⟨_, _, _, _, rfl⟩ := ok
    exact .settings rfl
  | createRun =>
    simp only [Request.run, Store.createRun, bind_eq_ok] at ok
    obtain ⟨_, _, _, _, ok⟩ := ok
    exact Store.requestRun_effect ok _
  | createStandardRun =>
    simp only [Request.run, Store.createStandardRun, bind_eq_ok] at ok
    obtain ⟨_, _, ok⟩ := ok
    exact Store.requestRun_effect ok _
  | cancelRun => exact Store.cancelRun_effect ok _
  | decideApproval => exact Store.decideApproval_effect ok _
  | listApprovals =>
    simp only [Request.run, Store.listApprovals, bind_eq_ok] at ok
    obtain ⟨_, _, _, _, ok⟩ := ok
    exact .expired ok
  | expireDue =>
    simp only [Request.run, Store.expireDue, bind_eq_ok] at ok
    obtain ⟨_, _, _, _, ok⟩ := ok
    exact .expired ok
  | recoverStale =>
    simp only [Request.run, Store.recoverStale, bind_eq_ok, raiseIf_eq_ok, exists_and_left,
      exists_const] at ok
    obtain ⟨_, _, _, _, first, second⟩ := ok
    exact .recovered rfl first second
  | publish => exact .published rfl ok

end Requests

end Nexora.Run
