import Nexora.Std.History
import Nexora.Run.Worker

/-!
# The run platform

The store together with every worker's session, and everything that may happen to them:
requests, sweeps, deliveries and the transactions of the attempts, in any order. A label
carries what an operation draws from outside: identifiers, times, and what providers and
adapters answer.
-/

namespace Nexora.Run

open Nexora.Std Nexora.Workspace Nexora.Tools Json

/-- The platform's state. -/
structure System where
  store : Store
  sessions : Table String Session

/-- Something someone other than an attempt does. -/
inductive Request where
  | setMember (principal : Principal) (workspaceId : Uuid) (subject : String) (role : Role)
  | upsertTool (principal : Principal) (workspaceId : Uuid) (name : PyStr)
      (body : ToolUpsertInput) (toolId : Uuid)
  | setPolicy (principal : Principal) (workspaceId : Uuid) (toolName : PyStr)
      (policy : ToolPolicy)
  | createRun (principal : Principal) (workspaceId agentId : Uuid) (inputText : PyStr)
      (idempotencyKey : String) (runId traceId jobId : Uuid) (now : Instant)
  | createStandardRun (principal : Principal) (workspaceId agentId : Uuid) (snapshot : Json)
      (inputText : PyStr) (idempotencyKey : String) (runId traceId jobId : Uuid) (now : Instant)
  | cancelRun (principal : Principal) (workspaceId runId : Uuid) (now : Instant)
  | decideApproval (principal : Principal) (workspaceId approvalId : Uuid) (decision : Decision)
      (jobId : Uuid) (now : Instant)
  | listApprovals (principal : Principal) (workspaceId : Uuid) (due : List Uuid) (now : Instant)
  | expireDue (limit : Nat) (due : List Uuid) (now : Instant)
  | recoverStale (limit orphanSeconds : Nat) (expired orphans : List (Uuid × Uuid))
      (now : Instant)
  | publish (jobId : Uuid) (delivered : Bool) (delay now : Instant)

/-- A transaction of an attempt, or what the attempt does between two of them. -/
inductive Action where
  | renewLease (leaseSeconds : Nat) (now : Instant)
  | write (entry : Write)
  | recordEmbeddingSpend (record : SpendRecord)
  | prepareCall (callKey toolName : PyStr) (arguments : Json) (callId approvalId : Uuid)
      (clock now : Instant)
  | stopIfCancelled
  | markRunning (clock : Instant)
  | settle (outcome : AdapterOutcome) (clock : Instant)
  | settleUnavailable (clock : Instant)
  | settleInvalid (clock : Instant)
  | executorReturns
  | executorRaises (error : ExecutionError)

/-- A step of the platform. -/
inductive Label where
  | request (request : Request)
  | claim (workerId : String) (job : WorkerJob) (leaseSeconds : Nat) (now : Instant)
  | act (workerId : String) (action : Action)
  | finish (workerId : String) (newJobId : Uuid) (delay now : Instant)
  /-- The worker stops without another transaction. -/
  | crash (workerId : String)

/-- The store after a request. -/
def Request.run (platform : Platform) (store : Store) : Request → Except Raised Store
  | .setMember principal workspaceId subject role => do
      let memberships ← ofRequest (Workspace.setMember store.memberships principal workspaceId subject role)
      pure { store with memberships := memberships }
  | .upsertTool principal workspaceId name body toolId =>
    store.upsertTool platform principal workspaceId name body toolId
  | .setPolicy principal workspaceId toolName policy =>
    store.setPolicy principal workspaceId toolName policy
  | .createRun principal workspaceId agentId inputText idempotencyKey runId traceId jobId now =>
    store.createRun principal workspaceId agentId inputText idempotencyKey runId traceId jobId
      now
  | .createStandardRun principal workspaceId agentId snapshot inputText idempotencyKey runId
      traceId jobId now =>
      store.createStandardRun principal workspaceId agentId snapshot inputText idempotencyKey runId
        traceId jobId now
  | .cancelRun principal workspaceId runId now => store.cancelRun principal workspaceId runId now
  | .decideApproval principal workspaceId approvalId decision jobId now =>
    store.decideApproval platform principal workspaceId approvalId decision jobId now
  | .listApprovals principal workspaceId due now =>
    store.listApprovals principal workspaceId due now
  | .expireDue limit due now => store.expireDue limit due now
  | .recoverStale limit orphanSeconds expired orphans now =>
    store.recoverStale limit orphanSeconds expired orphans now
  | .publish jobId delivered delay now => store.publish jobId delivered delay now

/-- The store and the attempt's stage after an action, when the attempt stands where the
action is taken. -/
def Action.run (platform : Platform) (store : Store) (workerId : String) (session : Session) :
    Action → Option (Store × Stage)
  | .renewLease leaseSeconds now => do
      let renewed := store.renewLease session.context.jobId session.context.runId workerId
        leaseSeconds now
      pure (renewed, session.stage)
  | .write entry => do
      guard (session.stage = .executing)
      pure (journalled store (entry.run platform store session.context))
  | .recordEmbeddingSpend record => do
      guard (session.stage = .executing)
      pure (store.recordEmbeddingSpend session.context.workspaceId session.context.runId record,
        .executing)
  | .prepareCall callKey toolName arguments callId approvalId clock now => do
      guard (session.stage = .executing)
      pure (plan platform store session.context callKey toolName arguments callId approvalId clock
        now)
  | .stopIfCancelled => do
      let _ ← session.stage.planned?
      guard (store.isCancelRequested session.context.runId)
      pure (store, .raised (.gateway (py "cancel_requested") false))
  | .markRunning clock => do
      let callId ← session.stage.planned?
      pure (start platform store workerId session.context callId clock)
  | .settle outcome clock => do
      let execution ← session.stage.dispatched?
      pure (Run.settle platform store session execution.callId outcome clock)
  | .settleUnavailable clock => do
      let callId ← session.stage.unavailable?
      pure (Run.settleUnavailable store session callId clock)
  | .settleInvalid clock => do
      let callId ← session.stage.invalidResult?
      pure (Run.settleInvalid store session callId clock)
  | .executorReturns => do
      guard (session.stage = .executing)
      pure (store, .returned)
  | .executorRaises error => do
      guard (session.stage = .executing)
      pure (store, .raised error)

/-- The platform after a step. -/
def System.run (platform : Platform) (system : System) : Label → Except Raised System
  | .request request => do
      let store ← request.run platform system.store
      pure { system with store := store }
  | .claim workerId job leaseSeconds now => do
      raiseIf ((system.sessions.find? workerId).isSome = true) .database
      let (store, context) ← system.store.claim job workerId leaseSeconds now
      pure {
        store := store
        sessions := match context with
          | some context => system.sessions.put workerId ⟨job, context, .executing⟩
          | none => system.sessions }
  | .act workerId action => do
      let session ← orRaise (system.sessions.find? workerId) .database
      let (store, stage) ← orRaise (action.run platform system.store workerId session) .database
      pure { store := store, sessions := system.sessions.put workerId (session.at stage) }
  | .finish workerId newJobId delay now => do
      let session ← orRaise (system.sessions.find? workerId) .database
      let (store, _) ← finish system.store workerId session newJobId delay now
      pure { store := store, sessions := system.sessions.erase workerId }
  | .crash workerId => pure { system with sessions := system.sessions.erase workerId }

section Steps

variable {platform : Platform} {system next : System} {workerId : String}

theorem System.run_request {request : Request} :
    System.run platform system (.request request) = .ok next ↔
      ∃ store, request.run platform system.store = .ok store ∧
        next = { system with store := store } := by
  simp only [System.run, bind_eq_ok, pure_eq_ok, eq_comm (a := next)]

theorem System.run_claim {job : WorkerJob} {leaseSeconds : Nat} {now : Instant} :
    System.run platform system (.claim workerId job leaseSeconds now) = .ok next ↔
      system.sessions.find? workerId = none ∧
      ∃ store context, system.store.claim job workerId leaseSeconds now = .ok (store, context) ∧
        next = {
          store := store
          sessions := match context with
            | some context => system.sessions.put workerId ⟨job, context, .executing⟩
            | none => system.sessions } := by
  simp only [System.run, bind_eq_ok, raiseIf_eq_ok, pure_eq_ok, Bool.not_eq_true,
    Option.isSome_eq_false_iff, Option.isNone_iff_eq_none, exists_and_left, exists_const,
    Prod.exists, eq_comm (a := next)]

theorem System.run_act {action : Action} :
    System.run platform system (.act workerId action) = .ok next ↔
      ∃ session store stage, system.sessions.find? workerId = some session ∧
        action.run platform system.store workerId session = some (store, stage) ∧
        next = { store := store, sessions := system.sessions.put workerId (session.at stage) } := by
  simp only [System.run, bind_eq_ok, orRaise_eq_ok, pure_eq_ok, Prod.exists, eq_comm (a := next),
    exists_and_left]

theorem System.run_finish {newJobId : Uuid} {delay now : Instant} :
    System.run platform system (.finish workerId newJobId delay now) = .ok next ↔
      ∃ session store handled, system.sessions.find? workerId = some session ∧
        finish system.store workerId session newJobId delay now = .ok (store, handled) ∧
        next = { store := store, sessions := system.sessions.erase workerId } := by
  simp only [System.run, bind_eq_ok, orRaise_eq_ok, pure_eq_ok, Prod.exists, eq_comm (a := next),
    exists_and_left]

theorem System.run_crash :
    System.run platform system (.crash workerId) = .ok next ↔
      next = { system with sessions := system.sessions.erase workerId } := by
  simp only [System.run, pure_eq_ok, eq_comm (a := next)]

end Steps

/-- A platform nobody has used yet. Who belongs to which workspace and which custom agents
exist is arbitrary. -/
structure Opening (system : System) : Prop where
  quiet : system.sessions = .empty
  unused : ∃ memberships agentDefinitions, system.store =
    { Store.empty with memberships := memberships, agentDefinitions := agentDefinitions }

/-- The run platform under any sequence of steps. -/
def machine (platform : Platform) : Machine System Label :=
  .ofFunction Opening (System.run platform)

/-- The state in which some people belong to workspaces and some custom agents exist. -/
def openingWith (members : List ((Uuid × Principal) × Role))
    (agents : List ((Uuid × Uuid) × AgentDefinition)) : System where
  store := { Store.empty with
    memberships := .ofList members, agentDefinitions := .ofList agents }
  sessions := .empty

theorem opening_openingWith (members : List ((Uuid × Principal) × Role))
    (agents : List ((Uuid × Uuid) × AgentDefinition)) : Opening (openingWith members agents) :=
  ⟨rfl, _, _, rfl⟩

/-- A deployment for inputs without floats: every text has its own digest, stored values come
back as they are, and every worker has every adapter. -/
def examplePlatform : Platform where
  runtime := {
    floatRepr := fun _ => "0.0", recursionLimit := 1000
    sha256 := fun text => Nat.ofDigits 0x110001 (text.map fun point => point.val + 1) }
  jsonb := id
  adapters := fun _ _ => true

/-- The owner of workspace 1. -/
def exampleOwner : Principal := ⟨"issuer", "owner"⟩

/-- Workspace 1 with its owner and its custom agent 2. -/
def exampleOpening : System :=
  openingWith [((1, exampleOwner), .owner)] [((1, 2), ⟨py "answer", py "default"⟩)]

/-- Run 3 of the example's agent, whose first job is job 5. -/
def exampleCreateRun : Label :=
  .request (.createRun exampleOwner 1 2 (py "question") "key" 3 4 5 0)

/-- A job of run 3. -/
def exampleJob (jobId : Uuid) : WorkerJob := ⟨jobId, 1, 3, ⟨3, 1, 2, 4, .custom⟩⟩

/-- The input schema of a tool that takes no arguments. -/
def exampleSchema : Json :=
  .object [(py "type", .str (py "object")), (py "properties", .object []),
    (py "additionalProperties", .bool false)]

/-- Tool 6 of workspace 1 reads something and takes no arguments. -/
def exampleUpsertTool : Label :=
  .request (.upsertTool exampleOwner 1 (py "look") {
    serverKey := "server", remoteName := "look", inputSchema := exampleSchema
    outputSchema := none, sideEffect := .read, enabled := true } 6)

/-- What a policy of workspace 1 decides about tool 6. -/
def exampleSetPolicy (decision : PolicyDecision) : Label :=
  .request (.setPolicy exampleOwner 1 (py "look") ⟨decision, py "policy"⟩)

/-- Call tool 6 as call 7, and ask for approval 8 if it needs one. -/
def examplePrepareCall (now : Instant) : Action :=
  .prepareCall (py "call") (py "look") (.object []) 7 8 now now

end Nexora.Run
