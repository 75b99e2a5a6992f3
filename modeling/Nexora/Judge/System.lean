import Nexora.Std.History
import Nexora.Judge.Worker

/-!
# The judge workers at work

The store together with what each worker is doing, and everything that may happen to them, in
any order. A worker processes one judge run at a time: it claims the next one only after the
last one was recorded, or after its process or one of its statements failed. A commit whose
acknowledgement is lost has happened, but the worker goes on as after an exception.
-/

namespace Nexora.Judge

open Nexora.Std Nexora.Workspace

/-- How far a worker has come with a judge run. -/
inductive Stage where
  | claimed
  /-- No case is left. -/
  | complete
  /-- A case is loaded; its baseline is scored after its candidate. -/
  | authorizing (loaded : LoadedCase) (candidate : Option Scored)
  | budgeting (loaded : LoadedCase) (candidate : Option Scored)
  | scoring (loaded : LoadedCase) (candidate : Option Scored)
  | saving (loaded : LoadedCase) (candidate : Scored) (baseline : Option Scored)
  | failing (errorCode : String) (retryable : Bool)
  deriving DecidableEq

/-- A worker's processing of a judge run, from the row it was claimed as. -/
structure Attempt where
  judgeRunId : Uuid
  job : JudgeRun
  stage : Stage
  deriving DecidableEq

/-- The store, and what each worker is processing. -/
structure System where
  store : Store
  attempts : Table String Attempt

/-- What a deployment configures: its workers, under distinct identifiers, and how a structured
answer is validated. -/
structure Deployment where
  workers : Table String JudgeWorker
  validate : Json → Option JudgeScores
  named : ∀ workerId worker, workers.find? workerId = some worker → worker.workerId = workerId

/-- What a worker that is processing a judge run does next. -/
inductive Activity where
  | heartbeat (now : Instant)
  | nextCase (agentRuns : Table Uuid SourceRun)
  | authorize
  | budget (allowed : Bool)
  | score (reply : Reply)
  | save (now : Instant) (acknowledged : Bool)
  | finish (now : Instant) (acknowledged : Bool)
  | fail (delay : Nat) (now : Instant)
  /-- A statement fails, or the acknowledgement of one is lost. -/
  | interrupt
  /-- The process ends; the lease expires by the clock the others read. -/
  | crash

/-- A step of the evaluation service. -/
inductive Label where
  | setMember (principal : Principal) (workspaceId : Uuid) (subject : String) (role : Role)
  | createSuite (principal : Principal) (workspaceId : Uuid) (body : EvalSuiteInput)
      (requestHash : Nat) (idempotencyKey : String) (suiteId : Uuid) (caseId : Nat → Uuid)
  | createRun (principal : Principal) (workspaceId suiteId : Uuid) (body : EvalRunInput)
      (requestHash : Nat) (idempotencyKey : String) (evalRunId : Uuid)
  | createRunFromAgentRuns (principal : Principal) (workspaceId suiteId : Uuid)
      (body : AgentRunEvalInput) (observe : EvalCase → Except Failure Unit) (requestHash : Nat)
      (idempotencyKey : String) (evalRunId : Uuid)
  | createJudge (principal : Principal) (workspaceId evalRunId : Uuid) (requestHash : Nat)
      (idempotencyKey : String) (judgeRunId : Uuid) (now : Instant)
  /-- Another component charges a call. -/
  | spend (workspaceId : Uuid) (sourceKey : String) (record : SpendRecord)
  | claim (workerId : String) (due : Option Uuid) (now : Instant) (acknowledged : Bool)
  | work (workerId : String) (activity : Activity)

/-- The stage after an exception: what it is recorded as, and whether the run is retried. -/
def Raised.recorded : Raised → Stage
  | .request (.http _ _) => .failing "judge_permission_revoked" false
  | .judge code retryable => .failing code retryable
  | _ => .failing "judge_worker_error" true

namespace Stage

/-- The stage after a computation that may raise. -/
def after {α : Type} (computation : Except Raised α) (next : α → Stage) : Stage :=
  match computation with
  | .ok value => next value
  | .error raised => raised.recorded

/-- The stage once the next case was looked for. -/
def ofNext : Option LoadedCase → Stage
  | none => .complete
  | some loaded => .authorizing loaded none

/-- The stage once an answer is scored. -/
def afterScore (loaded : LoadedCase) : Option Scored → Scored → Stage
  | none, candidate =>
    if loaded.baselineOutput.isSome then .authorizing loaded (some candidate)
    else .saving loaded candidate none
  | some candidate, baseline => .saving loaded candidate (some baseline)

end Stage

/-- The answer that is scored next. -/
def LoadedCase.answer (loaded : LoadedCase) : Option Scored → PyStr
  | none => loaded.candidateOutput
  | some _ => loaded.baselineOutput.getD []

namespace Attempt

variable (attempt : Attempt) (deployment : Deployment) (worker : JudgeWorker) (store : Store)

/-- The attempt at another stage. -/
def at_ (stage : Stage) : Attempt := { attempt with stage := stage }

/-- The attempt after a transaction that may raise: it is over where the worker was told of the
commit. -/
def settle (acknowledged : Bool) : Except Raised Store → Store × Option Attempt
  | .error raised => (store, some (attempt.at_ raised.recorded))
  | .ok next =>
    (next, if acknowledged then none else some (attempt.at_ Raised.unexpected.recorded))

/-- What an activity makes of the store and of the attempt. -/
def perform : Activity → Except Raised (Store × Option Attempt)
  | .heartbeat now => pure (store.heartbeat worker attempt.judgeRunId now, some attempt)
  | .nextCase agentRuns => do
      raiseIf (attempt.stage ≠ .claimed) .idle
      pure (store, some (attempt.at_ (.after
        (store.nextCase attempt.judgeRunId attempt.job agentRuns) .ofNext)))
  | .authorize =>
    match attempt.stage with
    | .authorizing loaded candidate =>
      pure (store, some (attempt.at_ (.after (ofRequest (scopedMember store.memberships
        attempt.job.requestedBy attempt.job.workspaceId .manageEvals)) fun _ =>
          .budgeting loaded candidate)))
    | _ => .error .idle
  | .budget allowed =>
    match attempt.stage with
    | .budgeting loaded candidate =>
      pure (store, some (attempt.at_
        (if worker.spend.isSome && !allowed then .failing "judge_budget_exhausted" false
          else .scoring loaded candidate)))
    | _ => .error .idle
  | .score reply =>
    match attempt.stage with
    | .scoring loaded candidate =>
      pure (store, some (attempt.at_ (.after (worker.score deployment.validate
        loaded.inputText (loaded.answer candidate) reply) (.afterScore loaded candidate))))
    | _ => .error .idle
  | .save now acknowledged =>
    match attempt.stage with
    | .saving loaded candidate baseline =>
      pure (attempt.settle store acknowledged (worker.saveCase store attempt.judgeRunId
        attempt.job loaded.caseId candidate baseline now))
    | _ => .error .idle
  | .finish now acknowledged => do
      raiseIf (attempt.stage ≠ .complete) .idle
      pure (attempt.settle store acknowledged
        (worker.finishIfComplete store attempt.judgeRunId now))
  | .fail delay now =>
    match attempt.stage with
    | .failing errorCode retryable =>
      pure ((worker.fail store attempt.judgeRunId errorCode retryable delay
        now).toOption.getD store, none)
    | _ => .error .idle
  | .interrupt =>
    match attempt.stage with
    | .failing _ _ => pure (store, none)
    | _ => pure (store, some (attempt.at_ Raised.unexpected.recorded))
  | .crash => pure (store, none)

end Attempt

namespace System

variable (system : System)

/-- A request that changes the store alone. -/
def request {α : Type} (changed : Except Failure (Store × α)) : Except Raised System := do
  let result ← ofRequest changed
  pure { system with store := result.1 }

/-- `_claim`, with the run it finds first, if it finds one. -/
def claim (worker : JudgeWorker) (due : Option Uuid) (now : Instant) (acknowledged : Bool) :
    Except Raised System :=
  let swept := system.store.sweep worker now
  match due with
  | none => pure { system with store := swept }
  | some judgeRunId => do
      let claimed ← swept.claimDue worker judgeRunId now
      pure {
        store := claimed.1
        attempts := if acknowledged then
            system.attempts.put worker.workerId ⟨judgeRunId, claimed.2, .claimed⟩
          else system.attempts }

/-- What a worker is processing after an activity. -/
def resume (workerId : String) (performed : Store × Option Attempt) : System where
  store := performed.1
  attempts :=
    match performed.2 with
    | none => system.attempts.erase workerId
    | some attempt => system.attempts.put workerId attempt

/-- The service after a step. -/
def run (deployment : Deployment) : Label → Except Raised System
  | .setMember principal workspaceId subject role => do
      let memberships ← ofRequest
        (Workspace.setMember system.store.memberships principal workspaceId subject role)
      pure { system with store := { system.store with memberships := memberships } }
  | .createSuite principal workspaceId body requestHash idempotencyKey suiteId caseId =>
    system.request (system.store.createSuite principal workspaceId body requestHash
      idempotencyKey suiteId caseId)
  | .createRun principal workspaceId suiteId body requestHash idempotencyKey evalRunId =>
    system.request (system.store.createRun principal workspaceId suiteId body requestHash
      idempotencyKey evalRunId)
  | .createRunFromAgentRuns principal workspaceId suiteId body observe requestHash idempotencyKey
      evalRunId =>
      system.request (system.store.createRunFromAgentRuns principal workspaceId suiteId body
        observe requestHash idempotencyKey evalRunId)
  | .createJudge principal workspaceId evalRunId requestHash idempotencyKey judgeRunId now =>
    system.request (system.store.createJudge principal workspaceId evalRunId requestHash
      idempotencyKey judgeRunId now)
  | .spend workspaceId sourceKey record => do
      let ledger ← orRaise
        (system.store.ledger.insert? (workspaceId, .other sourceKey) record) .unexpected
      pure { system with store := { system.store with ledger := ledger } }
  | .claim workerId due now acknowledged => do
      let worker ← orRaise (deployment.workers.find? workerId) .idle
      raiseIf ((system.attempts.find? workerId).isSome = true) .idle
      system.claim worker due now acknowledged
  | .work workerId activity => do
      let worker ← orRaise (deployment.workers.find? workerId) .idle
      let attempt ← orRaise (system.attempts.find? workerId) .idle
      let performed ← attempt.perform deployment worker system.store activity
      pure (system.resume workerId performed)

end System

/-- A service nobody has used yet. Who belongs to which workspace, and what other components
have charged, is arbitrary. -/
structure Opening (system : System) : Prop where
  quiet : system.attempts = .empty
  unused : ∃ memberships ledger, system.store =
    { Store.empty with memberships := memberships, ledger := ledger }
  uncharged : ∀ workspaceId judgeRunId caseId,
    system.store.ledger.find? (workspaceId, .judgeCase judgeRunId caseId) = none

/-- The judge workers of a deployment under any sequence of steps. -/
def machine (deployment : Deployment) : Machine System Label :=
  .ofFunction Opening fun system label => system.run deployment label

end Nexora.Judge
