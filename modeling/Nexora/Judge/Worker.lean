import Nexora.Judge.Store

/-!
# The judge worker

A worker claims a judge run, scores one of its cases and puts the run back, until a case is the
last one. A claim first takes back the runs whose lease has expired, and counts an attempt for
each. Between its transactions the worker asks the provider; what it then writes is written
under the lease it still has, or not at all.
-/

namespace Nexora.Judge

open Nexora.Std Nexora.Workspace

/-- `MAX_JUDGE_ATTEMPTS`. -/
def maxJudgeAttempts : Nat := 3

/-- `EvaluationJudgeConfig`, without its timeout and its output limit. -/
structure EvaluationJudgeConfig where
  pinned : JudgeConfiguration
  allowedWorkspaces : List Uuid
  maxInputChars : Nat

/-- `ModelPrice` with its bounds. -/
structure ModelPrice where
  inputMicrosPerMillionTokens : Nat
  outputMicrosPerMillionTokens : Nat
  input_range : inputMicrosPerMillionTokens ≤ 10 ^ 12
  output_range : outputMicrosPerMillionTokens ≤ 10 ^ 12

/-- `ModelPrice.cost_micros`: a partial price unit rounds up. -/
def ModelPrice.costMicros (price : ModelPrice) (inputTokens outputTokens : Nat) : Nat :=
  (inputTokens * price.inputMicrosPerMillionTokens +
    outputTokens * price.outputMicrosPerMillionTokens + 999999) / 1000000

/-- `SpendPolicy`. -/
structure SpendPolicy where
  prices : List ((String × String) × ModelPrice)

/-- `SpendPolicy.cost_micros`. -/
def SpendPolicy.costMicros (policy : SpendPolicy) (provider model : String)
    (inputTokens outputTokens : Nat) : Except Raised Nat := do
  let price ← orRaise (policy.prices.lookup (provider, model))
    (.judge "model_price_not_configured" false)
  pure (price.costMicros inputTokens outputTokens)

/-- `EvaluationJudgeWorker`, under the identifier it leases runs as. -/
structure JudgeWorker where
  workerId : String
  config : EvaluationJudgeConfig
  leaseSeconds : Nat
  spend : Option SpendPolicy
  leaseSeconds_range : 3 ≤ leaseSeconds ∧ leaseSeconds ≤ 300

/-- An agent run as an evaluation reads it, with the text `summarize_result` finds in its
journal. -/
structure SourceRun where
  workspaceId : Uuid
  requestedBy : Principal
  succeeded : Bool
  inputText : PyStr
  outputText : Option PyStr

/-- A case whose answers have been read. -/
structure LoadedCase where
  caseId : Uuid
  inputText : PyStr
  candidateOutput : PyStr
  baselineOutput : Option PyStr
  deriving DecidableEq

/-- What comes of a call of the provider. -/
inductive Reply where
  | providerError (code : String) (retryable : Bool)
  | raised
  | response (finishReason : String) (toolCalls : Nat) (structuredOutput : Option Json)
      (inputTokens outputTokens latencyMs : Nat)

/-- The scores of one answer, and what they took. -/
structure Scored where
  scores : JudgeScores
  inputTokens : Nat
  outputTokens : Nat
  latencyMs : Nat
  deriving DecidableEq

/-- The worker may take back a run: its lease has expired, and it is pinned to the worker's
judge. -/
def JudgeRun.isLapsed (run : JudgeRun) (config : EvaluationJudgeConfig) (now : Instant) : Bool :=
  run.status = .running && (run.lease.any fun lease => lease.expiresAt < now) &&
    config.allowedWorkspaces.contains run.workspaceId && run.pinned = some config.pinned

/-- A run whose lease expired: an attempt is counted, and the run is put back while attempts
are left. -/
def JudgeRun.takeBack (run : JudgeRun) (now : Instant) : JudgeRun :=
  let ended := maxJudgeAttempts ≤ run.attemptCount + 1
  { run with
    status := if ended then .failed else .queued
    attemptCount := run.attemptCount + 1
    availableAt := now
    lease := none
    errorCode := some "lease_expired"
    finishedAt := if ended then some now else none }

/-- The worker may claim a run. -/
def JudgeRun.isDue (run : JudgeRun) (config : EvaluationJudgeConfig) (now : Instant) : Bool :=
  run.status = .queued && run.availableAt ≤ now &&
    config.allowedWorkspaces.contains run.workspaceId &&
    run.pinned.all fun pinned => pinned = config.pinned

/-- What a claim makes of a run. -/
def JudgeRun.claimedBy (run : JudgeRun) (worker : JudgeWorker) (now : Instant) : JudgeRun :=
  { run with
    status := .running
    lease := some ⟨worker.workerId, now + worker.leaseSeconds * 1000000⟩
    pinned := some (run.pinned.getD worker.config.pinned)
    errorCode := none }

namespace Store

variable (store : Store)

/-- `UPDATE eval_judge_runs … WHERE id`, under its trigger and its checks. -/
def updateRun (judgeRunId : Uuid) (change : JudgeRun → JudgeRun) : Except Raised Store := do
  raiseIf (((store.judgeRuns.find? judgeRunId).all fun old => old.admits (change old)) = false)
    .unexpected
  pure { store with judgeRuns := store.judgeRuns.modify judgeRunId change }

/-- The runs a claim takes back first. -/
def sweep (worker : JudgeWorker) (now : Instant) : Store :=
  { store with judgeRuns := store.judgeRuns.mapRows fun _ run =>
      if run.isLapsed worker.config now then run.takeBack now else run }

/-- The rest of `_claim`, of the run that is found first. -/
def claimDue (worker : JudgeWorker) (judgeRunId : Uuid) (now : Instant) :
    Except Raised (Store × JudgeRun) := do
  let run ← orRaise ((store.judgeRuns.find? judgeRunId).filter fun run =>
    run.isDue worker.config now) .idle
  let claimed ← store.updateRun judgeRunId fun row => row.claimedBy worker now
  pure (claimed, run.claimedBy worker now)

/-- `_heartbeat`'s update. -/
def heartbeat (worker : JudgeWorker) (judgeRunId : Uuid) (now : Instant) : Store :=
  { store with judgeRuns := store.judgeRuns.modify judgeRunId fun run =>
      if run.heldBy worker.workerId now then
        { run with lease := some ⟨worker.workerId, now + worker.leaseSeconds * 1000000⟩ }
      else run }

/-- `_owned`. -/
def owned (worker : JudgeWorker) (judgeRunId : Uuid) (now : Instant) : Option JudgeRun :=
  (store.judgeRuns.find? judgeRunId).filter fun run => run.heldBy worker.workerId now

/-- The agent run a case of an evaluation run comes from. -/
def agentRunOf (workspaceId evalRunId caseId : Uuid) : Option Uuid :=
  ((store.sources.find? (evalRunId, caseId)).filter fun source =>
    source.workspaceId = workspaceId).map AgentRunSource.agentRunId

/-- The cases a judge run has not scored yet, each with the agent run it comes from. -/
def unscored (judgeRunId : Uuid) (job : JudgeRun) (run : EvalRun) :
    List (Uuid × EvalCase × Uuid) :=
  (store.casesOf run.workspaceId run.suiteId).filterMap fun entry =>
    if (store.scores.find? (judgeRunId, entry.1)).isSome then none
    else (store.agentRunOf run.workspaceId job.evalRunId entry.1).map fun agentRunId =>
      (entry.1, entry.2, agentRunId)

/-- The first case a judge run has not scored yet, after its evaluation run. -/
def nextUnscored (judgeRunId : Uuid) (job : JudgeRun) :
    Option (EvalRun × Uuid × EvalCase × Uuid) := do
  let run ← store.evalRunIn job.workspaceId job.evalRunId
  let entry ← (orderBy (fun entry => entry.2.1.caseNo)
    (store.unscored judgeRunId job run)).head?
  pure (run, entry)

/-- `_source_output`, where `agentRuns` is what the agent runs then are. -/
def sourceOutput (agentRuns : Table Uuid SourceRun) (job : JudgeRun) (agentRunId : Uuid)
    (expectedInput : PyStr) : Except Raised PyStr := do
  let run ← orRaise ((agentRuns.find? agentRunId).filter fun run =>
    run.workspaceId = job.workspaceId && run.requestedBy = job.requestedBy && run.succeeded &&
      run.inputText = expectedInput) (.judge "judge_source_unavailable" false)
  orRaise (run.outputText.filter fun text => text.length ≤ 50000)
    (.judge "judge_source_unavailable" false)

/-- `_next_case`. -/
def nextCase (judgeRunId : Uuid) (job : JudgeRun) (agentRuns : Table Uuid SourceRun) :
    Except Raised (Option LoadedCase) := do
  ofRequest (scopedMember store.memberships job.requestedBy job.workspaceId .manageEvals)
  match store.nextUnscored judgeRunId job with
  | none => pure none
  | some (run, caseId, row, agentRunId) => do
      let baseline := run.baselineEvalRunId.map fun baselineId =>
        store.agentRunOf run.workspaceId baselineId caseId
      raiseIf (baseline = some none) (.judge "judge_baseline_source_unavailable" false)
      let candidate ← sourceOutput agentRuns job agentRunId row.inputText
      let baselineOutput ← baseline.join.mapM fun baselineRunId =>
        sourceOutput agentRuns job baselineRunId row.inputText
      pure (some ⟨caseId, row.inputText, candidate, baselineOutput⟩)

/-- The rows `_save_case` adds: the score, and its price where the deployment prices calls. A
row that is there already stays. -/
def addScore (judgeRunId caseId : Uuid) (job : JudgeRun) (score : CaseScore)
    (price : Option SpendRecord) : Store :=
  { store with
    scores := if (store.scores.find? (judgeRunId, caseId)).isSome then store.scores
      else store.scores.put (judgeRunId, caseId) score
    ledger := match price with
      | none => store.ledger
      | some record =>
        if (store.ledger.find? (job.workspaceId, .judgeCase judgeRunId caseId)).isSome then
          store.ledger
        else store.ledger.put (job.workspaceId, .judgeCase judgeRunId caseId) record }

end Store

/-- A judge run that has scored every case. -/
def JudgeRun.succeed (run : JudgeRun) (now : Instant) : JudgeRun :=
  { run with status := .succeeded, lease := none, finishedAt := some now, errorCode := none }

/-- A judge run that is put back for its next case. -/
def JudgeRun.requeue (run : JudgeRun) (now : Instant) : JudgeRun :=
  { run with status := .queued, availableAt := now, lease := none }

/-- The scores in the provider's answer; `validate` is `JudgeScores.model_validate`. -/
def Reply.scored (validate : Json → Option JudgeScores) : Reply → Except Raised Scored
  | .providerError code retryable => .error (.judge code retryable)
  | .raised => .error .unexpected
  | .response finishReason toolCalls structuredOutput inputTokens outputTokens latencyMs => do
      raiseIf (finishReason ≠ "stop" ∨ toolCalls ≠ 0) (.judge "judge_invalid_response" false)
      let output ← orRaise structuredOutput (.judge "judge_invalid_response" false)
      let scores ← orRaise (validate output) (.judge "judge_invalid_response" false)
      pure ⟨scores, inputTokens, outputTokens, latencyMs⟩

namespace JudgeWorker

variable (worker : JudgeWorker)

/-- `_score`; an input that is too long is not sent. -/
def score (validate : Json → Option JudgeScores) (task answer : PyStr) (reply : Reply) :
    Except Raised Scored := do
  raiseIf (worker.config.maxInputChars < task.length + answer.length)
    (.judge "judge_input_too_large" false)
  reply.scored validate

/-- What a case is charged for, where the deployment prices calls. -/
def price (inputTokens outputTokens : Nat) : Except Raised (Option SpendRecord) :=
  match worker.spend with
  | none => pure none
  | some policy => do
      let pinned := worker.config.pinned
      let costMicros ← policy.costMicros pinned.provider pinned.model inputTokens outputTokens
      pure (some ⟨pinned.provider, pinned.model, inputTokens, outputTokens, costMicros⟩)

/-- The row `_save_case` inserts. -/
def scoreRow (job : JudgeRun) (candidate : Scored) (baseline : Option Scored) : CaseScore where
  workspaceId := job.workspaceId
  evalRunId := job.evalRunId
  candidate := candidate.scores
  baseline := baseline.map Scored.scores
  inputTokens := candidate.inputTokens + (baseline.map Scored.inputTokens).getD 0
  outputTokens := candidate.outputTokens + (baseline.map Scored.outputTokens).getD 0
  latencyMs := candidate.latencyMs + (baseline.map Scored.latencyMs).getD 0

/-- `_save_case`. -/
def saveCase (store : Store) (judgeRunId : Uuid) (job : JudgeRun) (caseId : Uuid)
    (candidate : Scored) (baseline : Option Scored) (now : Instant) : Except Raised Store := do
  let score := scoreRow job candidate baseline
  let price ← worker.price score.inputTokens score.outputTokens
  match store.owned worker judgeRunId now with
  | none => pure store
  | some row =>
    let scored := store.addScore judgeRunId caseId job score price
    if scored.scoreCount judgeRunId = row.caseCount then
      scored.updateRun judgeRunId fun run => run.succeed now
    else scored.updateRun judgeRunId fun run => run.requeue now

/-- `_finish_if_complete`. -/
def finishIfComplete (store : Store) (judgeRunId : Uuid) (now : Instant) : Except Raised Store :=
  match store.owned worker judgeRunId now with
  | none => pure store
  | some row => do
      raiseIf (store.scoreCount judgeRunId ≠ row.caseCount)
        (.judge "judge_case_set_incomplete" false)
      store.updateRun judgeRunId fun run => run.succeed now

/-- `_fail`, with the delay before the next attempt in microseconds. -/
def fail (store : Store) (judgeRunId : Uuid) (errorCode : String) (retryable : Bool) (delay : Nat)
    (now : Instant) : Except Raised Store :=
  match store.owned worker judgeRunId now with
  | none => pure store
  | some row =>
    let nextAttempt := row.attemptCount + 1
    let errorCode := some (String.ofList (errorCode.toList.take 100))
    if retryable = true ∧ nextAttempt < maxJudgeAttempts then
      store.updateRun judgeRunId fun run =>
        { run with
          status := .queued, attemptCount := nextAttempt, availableAt := now + delay
          lease := none, errorCode := errorCode }
    else
      store.updateRun judgeRunId fun run =>
        { run with
          status := .failed, attemptCount := nextAttempt, lease := none
          errorCode := errorCode, finishedAt := some now }

end JudgeWorker

end Nexora.Judge
