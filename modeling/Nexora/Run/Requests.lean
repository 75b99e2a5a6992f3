import Nexora.Run.Calls

/-!
# Requests about runs

Creating a run with its first job, cancelling a run, and publishing the outbox. A
standard agent's run is created with the snapshot of the agent taken at that moment.
-/

namespace Nexora.Run

open Nexora.Std Nexora.Workspace Nexora.Tools Json

/-- How often publishing a job is tried before it is dead-lettered. -/
def maxPublishAttempts : Nat := 10

namespace Store

variable (store : Store)

/-- The run a caller has already created under an idempotency key. -/
def existingRun (principal : Principal) (workspaceId : Uuid) (idempotencyKey : String) :
    Option (Uuid × AgentRun) :=
  store.agentRuns.first? fun _ run => run.workspaceId = workspaceId &&
    run.requestedBy = principal && run.idempotencyKey = idempotencyKey

/-- Insert a queued run and the job that delivers it. -/
def insertRun (runId jobId : Uuid) (run : AgentRun) (now : Instant) : Except Raised Store := do
  let agentRuns ← orRaise (store.agentRuns.insert? runId run) .database
  { store with agentRuns := agentRuns }.enqueue jobId run runId now

/-- The row of a run that has just been asked for. -/
def newRun (principal : Principal) (workspaceId : Uuid) (target : AgentTarget)
    (inputText : PyStr) (idempotencyKey : String) (traceId : Uuid) (now : Instant) : AgentRun where
  workspaceId := workspaceId
  target := target
  requestedBy := principal
  inputText := inputText
  idempotencyKey := idempotencyKey
  traceId := traceId
  status := .queued
  attemptCount := 0
  cancelRequestedAt := none
  lease := none
  failureCode := none
  updatedAt := now

/-- Create a run for an agent, once for an idempotency key: the same request again changes
nothing, another one is refused. -/
def requestRun (principal : Principal) (workspaceId : Uuid) (target : AgentTarget)
    (inputText : PyStr) (idempotencyKey : String) (runId traceId jobId : Uuid) (now : Instant) :
    Except Raised Store :=
  match store.existingRun principal workspaceId idempotencyKey with
  | some (_, existing) => do
      raiseIf (existing.target.agentId ≠ target.agentId ∨ existing.target.kind ≠ target.kind ∨
        existing.inputText ≠ inputText) (.request (.http 409 none))
      pure store
  | none =>
    store.insertRun runId jobId
      (newRun principal workspaceId target inputText idempotencyKey traceId now) now

/-- `AgentRepository.create_run`. -/
def createRun (principal : Principal) (workspaceId agentId : Uuid) (inputText : PyStr)
    (idempotencyKey : String) (runId traceId jobId : Uuid) (now : Instant) :
    Except Raised Store := do
  ofRequest (scopedMember store.memberships principal workspaceId .runAgents)
  raiseIf (store.agentDefinitions.find? (workspaceId, agentId) = none) (.request (.http 404 none))
  store.requestRun principal workspaceId (.custom agentId) inputText idempotencyKey runId traceId
    jobId now

/-- `TenantAgentRepository.create_run`, from the snapshot it takes of the instance. -/
def createStandardRun (principal : Principal) (workspaceId agentId : Uuid) (snapshot : Json)
    (inputText : PyStr) (idempotencyKey : String) (runId traceId jobId : Uuid) (now : Instant) :
    Except Raised Store := do
  ofRequest (scopedMember store.memberships principal workspaceId .runAgents)
  store.requestRun principal workspaceId (.standard agentId snapshot) inputText idempotencyKey
    runId traceId jobId now

/-- Withdraw what a run still waits for. Both triggers admit these changes. -/
def withdrawCalls (runId : Uuid) : Store :=
  { store with
    toolApprovals := store.toolApprovals.mapRows fun _ approval =>
      if approval.runId = runId ∧ approval.status = .pending then
        { approval with status := .cancelled }
      else approval
    toolCalls := store.toolCalls.mapRows fun _ call =>
      if call.runId = runId ∧ call.status ∈ [CallStatus.planned, .pendingApproval, .approved] then
        { call with status := .cancelled, errorCode := some (py "run_cancelled") }
      else call }

/-- `cancel_run`: a run that is being executed is only asked to stop. -/
def cancelRun (principal : Principal) (workspaceId runId : Uuid) (now : Instant) :
    Except Raised Store := do
  ofRequest (scopedMember store.memberships principal workspaceId .read)
  let run ← orRaise (store.runIn workspaceId runId) (.request (.http 404 none))
  raiseIf (run.requestedBy ≠ principal ∧
    scopedMember store.memberships principal workspaceId .cancelAnyRun ≠ .ok ())
    (.request (.http 403 none))
  if run.status.isTerminal then pure store
  else if run.status = .running then
    (store.withdrawCalls runId).updateRun runId fun run =>
      { run with
        cancelRequestedAt := some (run.cancelRequestedAt.getD now)
        updatedAt := if run.cancelRequestedAt.isSome then run.updatedAt else now }
  else
    (store.withdrawCalls runId).updateRun runId fun run =>
      { run with
        status := .cancelled, cancelRequestedAt := some (run.cancelRequestedAt.getD now)
        lease := none, updatedAt := now }

/-- `publish_batch` for one job that is due: it reaches the queue, or is tried again after
a delay until the tries run out. -/
def publish (jobId : Uuid) (delivered : Bool) (delay now : Instant) : Except Raised Store := do
  let job ← orRaise ((store.jobOutbox.find? jobId).filter fun job =>
    job.publishedAt = none && job.deadLetteredAt = none && job.availableAt ≤ now) .database
  pure { store with
    jobOutbox := store.jobOutbox.put jobId (
      if delivered then { job with attempts := job.attempts + 1, publishedAt := some now }
      else if maxPublishAttempts ≤ job.attempts + 1 then
        { job with attempts := job.attempts + 1, deadLetteredAt := some now }
      else { job with attempts := job.attempts + 1, availableAt := now + delay }) }

end Store

end Nexora.Run
