import Nexora.Run.Requests

/-!
# Workers and the gateway

`AgentWorker.process_once` and `McpGateway._invoke` as sessions. A worker runs one job at a
time; its session says how far the attempt has come, transaction by transaction, so that
anything else may happen in between. `Stage` is where the code stands between two of its
transactions, and `ExecutionError` what leaves the executor.
-/

namespace Nexora.Run

open Nexora.Std Nexora.Workspace Nexora.Tools Json

/-- What an adapter does with a call, as the gateway sees it. -/
inductive AdapterOutcome where
  | result (value : Json)
  /-- `McpAdapterError`. -/
  | error (code : PyStr) (retryable : Bool)
  /-- `TimeoutError`: the gateway's deadline, or one raised by the adapter. -/
  | timeout
  /-- `CancelledError`: the worker is shutting down. -/
  | cancelled
  /-- Any other exception. -/
  | exception
  deriving DecidableEq

/-- An exception that leaves the executor, by the handler of `process_once` it reaches. -/
inductive ExecutionError where
  | approvalRequired (toolCallId approvalId : Uuid)
  | gateway (code : PyStr) (retryable : Bool)
  | retryable (code : PyStr)
  | terminal (code : PyStr)
  | other
  deriving DecidableEq

/-- Where an attempt stands between two transactions. -/
inductive Stage where
  /-- The executor runs. -/
  | executing
  /-- The gateway has planned a call for execution and not started it. -/
  | planned (callId : Uuid)
  /-- The call is with its adapter. -/
  | dispatched (execution : ToolExecution)
  /-- The worker has no adapter for the call's server. -/
  | unavailable (callId : Uuid)
  /-- The call's result was refused by the checks of its contract. -/
  | invalidResult (callId : Uuid)
  /-- The executor returned. -/
  | returned
  /-- The executor raised. -/
  | raised (error : ExecutionError)
  /-- The worker is shutting down. -/
  | stopped
  deriving DecidableEq

namespace Stage

/-- The call an attempt is about to start. -/
def planned? : Stage → Option Uuid
  | .planned callId => some callId
  | _ => none

/-- The execution that is with its adapter. -/
def dispatched? : Stage → Option ToolExecution
  | .dispatched execution => some execution
  | _ => none

/-- The call that has no adapter. -/
def unavailable? : Stage → Option Uuid
  | .unavailable callId => some callId
  | _ => none

/-- The call whose result was refused. -/
def invalidResult? : Stage → Option Uuid
  | .invalidResult callId => some callId
  | _ => none

@[simp]
theorem planned?_eq_some (stage : Stage) (callId : Uuid) :
    stage.planned? = some callId ↔ stage = .planned callId := by
  cases stage <;> simp [planned?]

@[simp]
theorem dispatched?_eq_some (stage : Stage) (execution : ToolExecution) :
    stage.dispatched? = some execution ↔ stage = .dispatched execution := by
  cases stage <;> simp [dispatched?]

end Stage

/-- A worker's attempt. -/
structure Session where
  job : WorkerJob
  context : ExecutionContext
  stage : Stage
  deriving DecidableEq

/-- The session with its attempt at another stage. -/
def Session.at (session : Session) (stage : Stage) : Session := { session with stage := stage }

/-- What `AgentExecutor.execute` makes of an exception a transaction raised. -/
def ExecutionError.ofRaised : Raised → ExecutionError
  | .contract (.toolContract code) => .terminal (py code)
  | _ => .other

/-- The name a tool is governed under, for the name an executor calls it by. -/
def ExecutionContext.governedToolName (context : ExecutionContext) (toolName : PyStr) : PyStr :=
  (((context.toolAliases.getD []).find? fun entry => entry.1 = toolName).map Prod.snd).getD toolName

/-- The stage after a call has been planned. -/
def Stage.ofPlan (plan : ToolCallPlan) : Stage :=
  match plan.action with
  | .execute => .planned plan.callId
  | .approval approvalId => .raised (.approvalRequired plan.callId approvalId)
  | .deny errorCode => .raised (.gateway errorCode false)
  | .replay _ => .executing

/-- The stage after `mark_running`. -/
def Stage.ofExecution (platform : Platform) (workerId : String) (execution : ToolExecution) :
    Stage :=
  if platform.adapters workerId execution.serverKey then .dispatched execution
  else .unavailable execution.callId

/-- The stage after `mark_running` raised: a refusal of the contract is the gateway's own
terminal error. -/
def Stage.notStarted : Raised → Stage
  | .contract (.toolContract code) => .raised (.gateway (py code) false)
  | error => .raised (.ofRaised error)

/-- The stage after a write of the executor: what it raises leaves the executor. -/
def journalled (store : Store) (written : Except Raised Store) : Store × Stage :=
  match written with
  | .ok next => (next, .executing)
  | .error error => (store, .raised (.ofRaised error))

/-- Plan a call for the session's attempt. -/
def plan (platform : Platform) (store : Store) (context : ExecutionContext)
    (callKey toolName : PyStr) (arguments : Json) (callId approvalId : Uuid)
    (clock now : Instant) : Store × Stage :=
  match store.prepareCall platform context callKey (context.governedToolName toolName) arguments
      callId approvalId clock now with
  | .ok (prepared, plan) => (prepared, .ofPlan plan)
  | .error error => (store, .raised (.ofRaised error))

/-- Start the session's planned call. -/
def start (platform : Platform) (store : Store) (workerId : String) (context : ExecutionContext)
    (callId : Uuid) (clock : Instant) : Store × Stage :=
  match store.markRunning platform callId context clock with
  | .ok (started, execution) => (started, .ofExecution platform workerId execution)
  | .error error => (store, .notStarted error)

/-- Someone has asked to cancel the run, or it is gone: `is_cancel_requested`. -/
def Store.isCancelRequested (store : Store) (runId : Uuid) : Bool :=
  (store.agentRuns.find? runId).all fun run =>
    run.status = .cancelled || run.cancelRequestedAt.isSome

/-- The code and the retry flag a failed outcome is recorded with. -/
def AdapterOutcome.failure? : AdapterOutcome → Option (PyStr × Bool)
  | .result _ => none
  | .error code retryable => some (code, retryable)
  | .timeout => some (py "mcp_timeout", true)
  | .cancelled => some (py "mcp_cancelled", true)
  | .exception => some (py "mcp_call_error", true)

/-- Record a failure of the session's call, and go on at a stage. -/
def recordFailure (store : Store) (session : Session) (callId : Uuid) (code : PyStr)
    (retryable : Bool) (stage : Stage) (clock : Instant) : Store × Stage :=
  match store.completeCallFailure callId code retryable session.context clock with
  | .ok (failed, _) => (failed, stage)
  | .error error => (store, .raised (.ofRaised error))

/-- Record a result of the session's call, and return it. -/
def recordResult (platform : Platform) (store : Store) (session : Session) (callId : Uuid)
    (value : Json) (clock : Instant) : Store × Stage :=
  match store.completeCallSuccess platform callId value session.context clock with
  | .ok (succeeded, true) => (succeeded, .executing)
  | .ok (unchanged, false) => (unchanged, .raised (.gateway (py "tool_call_fenced") true))
  | .error (.contract (.toolContract _)) => (store, .invalidResult callId)
  | .error error => (store, .raised (.ofRaised error))

/-- The transaction the gateway runs when the adapter is done with a call. -/
def settle (platform : Platform) (store : Store) (session : Session) (callId : Uuid)
    (outcome : AdapterOutcome) (clock : Instant) : Store × Stage :=
  match outcome with
  | .result value => recordResult platform store session callId value clock
  | .error code retryable =>
    recordFailure store session callId code retryable (.raised (.gateway code retryable)) clock
  | .timeout =>
    recordFailure store session callId (py "mcp_timeout") true
      (.raised (.gateway (py "mcp_timeout") true)) clock
  | .cancelled => recordFailure store session callId (py "mcp_cancelled") true .stopped clock
  | .exception =>
    recordFailure store session callId (py "mcp_call_error") true
      (.raised (.gateway (py "mcp_call_error") true)) clock

/-- The transaction of a call whose server the worker has no adapter for. -/
def settleUnavailable (store : Store) (session : Session) (callId : Uuid) (clock : Instant) :
    Store × Stage :=
  recordFailure store session callId (py "mcp_server_unavailable") true
    (.raised (.gateway (py "mcp_server_unavailable") true)) clock

/-- The transaction of a call whose result was refused. -/
def settleInvalid (store : Store) (session : Session) (callId : Uuid) (clock : Instant) :
    Store × Stage :=
  recordFailure store session callId (py "mcp_invalid_result") false
    (.raised (.gateway (py "mcp_invalid_result") false)) clock

/-- What `process_once` records of an attempt that ended. -/
def finish (store : Store) (workerId : String) (session : Session) (newJobId : Uuid)
    (delay now : Instant) : Except Raised (Store × Bool) :=
  match session.stage with
  | .returned => store.completeSuccess session.job workerId now
  | .raised (.approvalRequired toolCallId approvalId) =>
    store.waitForApproval session.job workerId toolCallId approvalId now
  | .raised (.gateway code retryable) =>
    store.completeFailure session.job workerId code retryable newJobId delay now
  | .raised (.retryable code) =>
    store.completeFailure session.job workerId code true newJobId delay now
  | .raised (.terminal code) =>
    store.completeFailure session.job workerId code false newJobId delay now
  | .raised .other =>
    store.completeFailure session.job workerId (py "executor_error") true newJobId delay now
  | _ => .error .database

end Nexora.Run
