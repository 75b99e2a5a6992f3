import Nexora.Std.Bulk
import Nexora.Std.Sorting
import Nexora.Data.Json
import Nexora.Workspace.Members

/-!
# The evaluation store

Suites with their cases, the runs that were evaluated against them, the judge runs that
score such a run case by case, and the ledger rows that price the scores. Suites, cases,
evaluation runs and scores are only ever inserted; a judge run is updated under a trigger that
keeps what was requested, the configuration once it is pinned, and the order of its statuses.
-/

namespace Nexora.Judge

open Nexora.Std Nexora.Workspace

/-- How an operation on evaluations ends without a result. Its transaction is rolled back. -/
inductive Raised where
  /-- An exception of a request handler. -/
  | request (failure : Failure)
  /-- `JudgeExecutionError` or `ProviderError` with its code. -/
  | judge (code : String) (retryable : Bool)
  /-- Any other exception, such as a statement the database refuses. -/
  | unexpected
  /-- There is nothing to do. -/
  | idle
  deriving DecidableEq, Repr

/-- A check of a request inside an operation on evaluations. -/
def ofRequest {α : Type} (check : Except Failure α) : Except Raised α := check.mapError .request

@[simp]
theorem ofRequest_eq_ok {α : Type} (check : Except Failure α) (value : α) :
    ofRequest check = .ok value ↔ check = .ok value :=
  mapError_eq_ok check _ value

/-- A row of `eval_suites`. -/
structure EvalSuite where
  workspaceId : Uuid
  name : PyStr
  version : Nat
  createdBy : Principal
  requestHash : Nat
  idempotencyKey : String
  deriving DecidableEq

/-- A row of `eval_cases`. -/
structure EvalCase where
  workspaceId : Uuid
  suiteId : Uuid
  caseNo : Nat
  caseKey : PyStr
  inputText : PyStr
  deriving DecidableEq

/-- A row of `eval_runs`. -/
structure EvalRun where
  workspaceId : Uuid
  suiteId : Uuid
  baselineEvalRunId : Option Uuid
  createdBy : Principal
  requestHash : Nat
  idempotencyKey : String
  caseCount : Nat
  deriving DecidableEq

/-- A row of `eval_agent_run_sources`, under its evaluation run and its case. -/
structure AgentRunSource where
  workspaceId : Uuid
  agentRunId : Uuid
  deriving DecidableEq

/-- A judge run's status. -/
inductive JudgeStatus where
  | queued
  | running
  | succeeded
  | failed
  deriving DecidableEq, Repr

namespace JudgeStatus

/-- The transitions `enforce_eval_judge_run_update` admits. -/
def mayBecome : JudgeStatus → JudgeStatus → Bool
  | .queued, next => next ∈ [.queued, .running]
  | .running, _ => true
  | status, next => next = status

/-- A judge run that has ended. -/
def isTerminal : JudgeStatus → Bool
  | .succeeded | .failed => true
  | _ => false

end JudgeStatus

/-- The judge a run is pinned to; a row has all three or none. -/
structure JudgeConfiguration where
  provider : String
  model : String
  promptVersion : String
  deriving DecidableEq

/-- Which worker processes a judge run and until when; a row has both or neither. -/
structure Lease where
  owner : String
  expiresAt : Instant
  deriving DecidableEq

/-- What was asked for when a judge run was queued. -/
structure JudgeRequest where
  workspaceId : Uuid
  evalRunId : Uuid
  requestedBy : Principal
  requestHash : Nat
  idempotencyKey : String
  caseCount : Nat
  deriving DecidableEq

/-- A row of `eval_judge_runs`. -/
structure JudgeRun extends JudgeRequest where
  status : JudgeStatus
  attemptCount : Nat
  availableAt : Instant
  lease : Option Lease
  pinned : Option JudgeConfiguration
  errorCode : Option String
  finishedAt : Option Instant
  deriving DecidableEq

namespace JudgeRun

/-- The update trigger and the check of the error code. -/
def admits (old new : JudgeRun) : Bool :=
  new.toJudgeRequest = old.toJudgeRequest && (old.pinned.isNone || new.pinned = old.pinned) &&
    old.status.mayBecome new.status &&
    new.errorCode.all fun code => 1 ≤ code.length && code.length ≤ 100

/-- The row is processed under a lease of a worker that has not expired. -/
def heldBy (run : JudgeRun) (workerId : String) (now : Instant) : Bool :=
  run.status = .running &&
    run.lease.any fun lease => lease.owner = workerId && now < lease.expiresAt

end JudgeRun

/-- `JudgeScores`, with the bounds it was validated against. -/
structure JudgeScores where
  taskCompletion : Nat
  answerRelevance : Nat
  clarity : Nat
  rationale : PyStr
  taskCompletion_range : taskCompletion ≤ 4
  answerRelevance_range : answerRelevance ≤ 4
  clarity_range : clarity ≤ 4
  rationale_length : 1 ≤ rationale.length ∧ rationale.length ≤ 1000
  deriving DecidableEq

/-- A row of `eval_judge_case_scores`, under its judge run and its case. -/
structure CaseScore where
  workspaceId : Uuid
  evalRunId : Uuid
  candidate : JudgeScores
  /-- The baseline's scores; its rationale is not kept. -/
  baseline : Option JudgeScores
  inputTokens : Nat
  outputTokens : Nat
  latencyMs : Nat
  deriving DecidableEq

/-- The key a row of the ledger is written once under. -/
inductive SourceKey where
  /-- `judge_case_source_key`. -/
  | judgeCase (judgeRunId caseId : Uuid)
  /-- A key of another component. -/
  | other (text : String)
  deriving DecidableEq, Repr

/-- A row of `workspace_spend_records`. -/
structure SpendRecord where
  provider : String
  model : String
  inputTokens : Nat
  outputTokens : Nat
  costMicros : Nat
  deriving DecidableEq

/-- The tables evaluations are kept in. -/
structure Store where
  memberships : Memberships
  suites : Table Uuid EvalSuite
  cases : Table Uuid EvalCase
  evalRuns : Table Uuid EvalRun
  sources : Table (Uuid × Uuid) AgentRunSource
  judgeRuns : Table Uuid JudgeRun
  scores : Table (Uuid × Uuid) CaseScore
  ledger : Table (Uuid × SourceKey) SpendRecord

/-- A store without rows. -/
def Store.empty : Store :=
  ⟨.empty, .empty, .empty, .empty, .empty, .empty, .empty, .empty⟩

/-- A validated `EvalSuiteInput`: its cases have distinct keys. -/
structure EvalSuiteInput where
  name : PyStr
  version : Nat
  /-- The key and the input of each case. -/
  cases : List (PyStr × PyStr)
  nonempty : cases ≠ []
  distinct : (cases.map Prod.fst).Nodup

/-- A validated `EvalRunInput`: the distinct keys of the cases that were observed. -/
structure EvalRunInput where
  baselineEvalRunId : Option Uuid
  observations : List PyStr
  distinct : observations.Nodup

/-- A validated `AgentRunEvalInput`: distinct cases that come from distinct agent runs. -/
structure AgentRunEvalInput where
  baselineEvalRunId : Option Uuid
  cases : List (PyStr × Uuid)
  distinct : (cases.map Prod.fst).Nodup
  distinctRuns : (cases.map Prod.snd).Nodup

/-- Two lists have the same keys. -/
def sameKeys (left right : List PyStr) : Bool :=
  (left.all fun key => right.any fun other => other = key) &&
    right.all fun key => left.any fun other => other = key

namespace Store

variable (store : Store)

/-- The cases of a suite of a workspace. -/
def casesOf (workspaceId suiteId : Uuid) : List (Uuid × EvalCase) :=
  store.cases.select fun _ row => row.workspaceId = workspaceId && row.suiteId = suiteId

/-- An evaluation run of a workspace. -/
def evalRunIn (workspaceId evalRunId : Uuid) : Option EvalRun :=
  (store.evalRuns.find? evalRunId).filter fun run => run.workspaceId = workspaceId

/-- How many cases of an evaluation run have an agent run as their source. -/
def sourceCount (workspaceId evalRunId : Uuid) : Nat :=
  (store.sources.select fun key source =>
    source.workspaceId = workspaceId && key.1 = evalRunId).length

/-- How many cases a judge run has scored. -/
def scoreCount (judgeRunId : Uuid) : Nat :=
  (store.scores.select fun key _ => key.1 = judgeRunId).length

/-- The rows of a new suite's cases, under the identifiers drawn for them. -/
def caseRows (workspaceId suiteId : Uuid) (caseId : Nat → Uuid) (cases : List (PyStr × PyStr)) :
    List (Uuid × EvalCase) :=
  cases.mapIdx fun index entry =>
    (caseId (index + 1), ⟨workspaceId, suiteId, index + 1, entry.1, entry.2⟩)

/-- `create_suite`. -/
def createSuite (principal : Principal) (workspaceId : Uuid) (body : EvalSuiteInput)
    (requestHash : Nat) (idempotencyKey : String) (suiteId : Uuid) (caseId : Nat → Uuid) :
    Except Failure (Store × Uuid) := do
  scopedMember store.memberships principal workspaceId .manageEvals
  match store.suites.first? fun _ suite => suite.workspaceId = workspaceId &&
      suite.createdBy = principal && suite.idempotencyKey = idempotencyKey with
  | some (existingId, existing) => do
      raiseIf (existing.requestHash ≠ requestHash) (.http 409 none)
      pure (store, existingId)
  | none => do
      raiseIf (store.suites.any (fun _ suite => suite.workspaceId = workspaceId &&
        suite.name = body.name && suite.version = body.version) = true) (.http 409 none)
      let suites ← orRaise (store.suites.insert? suiteId
        ⟨workspaceId, body.name, body.version, principal, requestHash, idempotencyKey⟩)
        (.http 409 none)
      let cases ← orRaise
        (store.cases.insertAll? (caseRows workspaceId suiteId caseId body.cases)) (.http 409 none)
      pure ({ store with suites := suites, cases := cases }, suiteId)

/-- The rows that say which agent run each case of an evaluation run comes from. -/
def sourceRows (workspaceId evalRunId : Uuid) (cases : List (Uuid × EvalCase))
    (mapping : List (PyStr × Uuid)) : List ((Uuid × Uuid) × AgentRunSource) :=
  cases.filterMap fun entry => (mapping.lookup entry.2.caseKey).map fun agentRunId =>
    ((evalRunId, entry.1), ⟨workspaceId, agentRunId⟩)

/-- What `create_run` and `create_run_from_agent_runs` have in common. -/
def evaluate (principal : Principal) (workspaceId suiteId : Uuid) (baselineEvalRunId : Option Uuid)
    (caseKeys : List PyStr) (incomplete : Failure) (observe : EvalCase → Except Failure Unit)
    (mapping : List (PyStr × Uuid)) (requestHash : Nat) (idempotencyKey : String)
    (evalRunId : Uuid) : Except Failure (Store × Uuid) := do
  scopedMember store.memberships principal workspaceId .manageEvals
  match store.evalRuns.first? fun _ run => run.workspaceId = workspaceId &&
      run.createdBy = principal && run.idempotencyKey = idempotencyKey with
  | some (existingId, existing) => do
      raiseIf (existing.requestHash ≠ requestHash) (.http 409 none)
      pure (store, existingId)
  | none => do
      let cases := store.casesOf workspaceId suiteId
      raiseIf (cases = []) (.http 404 none)
      raiseIf (sameKeys (cases.map fun entry => entry.2.caseKey) caseKeys = false) incomplete
      cases.forM fun entry => observe entry.2
      raiseIf (baselineEvalRunId.all (fun baselineId =>
        (store.evalRunIn workspaceId baselineId).any fun baseline => baseline.suiteId = suiteId) =
          false) (.http 404 none)
      let evalRuns ← inserted (store.evalRuns.insert? evalRunId
        ⟨workspaceId, suiteId, baselineEvalRunId, principal, requestHash, idempotencyKey,
          cases.length⟩)
      let sources ← inserted
        (store.sources.insertAll? (sourceRows workspaceId evalRunId cases mapping))
      pure ({ store with evalRuns := evalRuns, sources := sources }, evalRunId)

/-- `create_run`. -/
def createRun (principal : Principal) (workspaceId suiteId : Uuid) (body : EvalRunInput)
    (requestHash : Nat) (idempotencyKey : String) (evalRunId : Uuid) :
    Except Failure (Store × Uuid) :=
  store.evaluate principal workspaceId suiteId body.baselineEvalRunId body.observations
    (.http 422 none) (fun _ => .ok ()) [] requestHash idempotencyKey evalRunId

/-- `create_run_from_agent_runs`; `observe` is what it finds of the agent run of a case. -/
def createRunFromAgentRuns (principal : Principal) (workspaceId suiteId : Uuid)
    (body : AgentRunEvalInput) (observe : EvalCase → Except Failure Unit) (requestHash : Nat)
    (idempotencyKey : String) (evalRunId : Uuid) : Except Failure (Store × Uuid) :=
  store.evaluate principal workspaceId suiteId body.baselineEvalRunId (body.cases.map Prod.fst)
    (.http 422 (some "eval_cases_must_be_complete")) observe body.cases requestHash idempotencyKey
    evalRunId

/-- An evaluation run a principal created. -/
def ownEvalRun (principal : Principal) (workspaceId evalRunId : Uuid) : Except Failure EvalRun :=
  found ((store.evalRunIn workspaceId evalRunId).filter fun run => run.createdBy = principal)

/-- Every case of an evaluation run comes from an agent run. -/
def requireSources (workspaceId evalRunId : Uuid) (run : EvalRun) (detail : String) :
    Except Failure Unit :=
  raiseIf (store.sourceCount workspaceId evalRunId ≠ run.caseCount) (.http 422 (some detail))

/-- The checks of the baseline of an evaluation run a judge run is asked for. -/
def requireBaseline (principal : Principal) (workspaceId : Uuid) (run : EvalRun) :
    Except Failure Unit :=
  match run.baselineEvalRunId with
  | none => pure ()
  | some baselineId => do
      let baseline ← store.ownEvalRun principal workspaceId baselineId
      store.requireSources workspaceId baselineId baseline
        "judge_baseline_requires_agent_run_sources"

/-- `EvaluationJudgeRepository.create`, with the row's default `available_at`. -/
def createJudge (principal : Principal) (workspaceId evalRunId : Uuid) (requestHash : Nat)
    (idempotencyKey : String) (judgeRunId : Uuid) (now : Instant) :
    Except Failure (Store × Uuid) := do
  scopedMember store.memberships principal workspaceId .manageEvals
  let run ← store.ownEvalRun principal workspaceId evalRunId
  store.requireSources workspaceId evalRunId run "judge_requires_agent_run_sources"
  store.requireBaseline principal workspaceId run
  match store.judgeRuns.first? fun _ judge => judge.workspaceId = workspaceId &&
      judge.requestedBy = principal && judge.idempotencyKey = idempotencyKey with
  | some (existingId, existing) => do
      raiseIf (existing.requestHash ≠ requestHash) (.http 409 none)
      pure (store, existingId)
  | none => do
      let judgeRuns ← orRaise (store.judgeRuns.insert? judgeRunId
        { workspaceId := workspaceId, evalRunId := evalRunId, requestedBy := principal
          requestHash := requestHash, idempotencyKey := idempotencyKey
          caseCount := run.caseCount, status := .queued, attemptCount := 0, availableAt := now
          lease := none, pinned := none, errorCode := none, finishedAt := none })
        (.http 409 none)
      pure ({ store with judgeRuns := judgeRuns }, judgeRunId)

end Store

end Nexora.Judge
