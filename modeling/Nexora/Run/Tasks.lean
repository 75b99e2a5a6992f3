import Nexora.Std.Bulk
import Nexora.Std.Sorting
import Nexora.Knowledge.Text
import Nexora.Run.Worker

/-!
# Run tasks

`RunTaskRepository`: the durable plan of a standard run. A follow-up is created under the
run's goal and depends on tasks of its run; it is verified against the calls its attempts have
made, and the evidence is kept. Both operations are tools of the run's own attempts, pass the
execution fence first and are repeatable under an idempotency key.
-/

namespace Nexora.Run

open Nexora.Std Nexora.Tools Json

/-- What a task is: the goal of its run, or a follow-up created while the run is executed. -/
inductive TaskKind where
  | goal
  | followUp
  deriving DecidableEq, Repr

/-- A task's status. -/
inductive RunTaskStatus where
  | planned
  | running
  | succeeded
  | failed
  | cancelled
  | blocked
  deriving DecidableEq, Repr

/-- A status no task leaves. -/
def RunTaskStatus.isTerminal : RunTaskStatus → Bool
  | .succeeded | .failed | .cancelled => true
  | _ => false

/-- What is known of a task's effect. -/
inductive VerificationState where
  | notRequired
  | pending
  | verified
  | failed
  deriving DecidableEq, Repr

/-- A row of `run_tasks`. -/
structure RunTask where
  workspaceId : Uuid
  runId : Uuid
  parentTaskId : Option Uuid
  kind : TaskKind
  title : PyStr
  description : PyStr
  status : RunTaskStatus
  actionToolName : Option PyStr
  verificationState : VerificationState
  idempotencyKey : PyStr
  requestHash : Nat
  createdAt : Instant
  completedAt : Option Instant
  deriving DecidableEq

/-- The workspace and the run a dependency is inside of. -/
structure TaskScope where
  workspaceId : Uuid
  runId : Uuid
  deriving DecidableEq

/-- A row of `run_task_evidence`. No statement changes one. -/
structure RunTaskEvidence where
  workspaceId : Uuid
  runId : Uuid
  taskId : Uuid
  actionToolCallId : Option Uuid
  verificationToolCallId : Uuid
  verificationToolName : PyStr
  summary : PyStr
  satisfied : Bool
  idempotencyKey : PyStr
  deriving DecidableEq

/-- The tables of the tasks, and the column `finished_at` of `tool_calls`. A dependency is
keyed by the task and the task it depends on. -/
structure TaskTables where
  runTasks : Table Uuid RunTask
  dependencies : Table (Uuid × Uuid) TaskScope
  evidence : Table Uuid RunTaskEvidence
  finishedAt : Uuid → Option Instant

/-- How an operation on tasks ends without a result. -/
inductive TaskRaised where
  /-- `RunTaskError` with its code. -/
  | task (code : String)
  | other (raised : Raised)
  deriving DecidableEq, Repr

/-- A statement of the run platform inside an operation on tasks. -/
def ofPlatform {α : Type} (statement : Except Raised α) : Except TaskRaised α :=
  statement.mapError .other

@[simp]
theorem ofPlatform_eq_ok {α : Type} (statement : Except Raised α) (value : α) :
    ofPlatform statement = .ok value ↔ statement = .ok value := mapError_eq_ok _ _ _

/-- A deployment with what its interpreter makes of a decoded argument: `str(value)` of one
that is not a text, and `UUID(text)`. -/
structure TaskPlatform extends Platform where
  str : Json → PyStr
  uuid : PyStr → Option Uuid

/-- `str(value)`. -/
def TaskPlatform.text (platform : TaskPlatform) : Json → PyStr
  | .str text => text
  | value => platform.str value

/-- `_uuid`. -/
def TaskPlatform.parse (platform : TaskPlatform) (code : String) (value : Json) :
    Except TaskRaised Uuid :=
  orRaise (platform.uuid (platform.text value)) (.task code)

/-- `str(arguments.get(key, ""))`. -/
def TaskPlatform.argument (platform : TaskPlatform) (arguments : Json) (key : String) : PyStr :=
  ((arguments.get? (py key)).map platform.text).getD []

/-- `_internal_tool`: the name a tool is governed under, when the attempt may use it. -/
def ExecutionContext.internalTool (context : ExecutionContext) (publicName : PyStr) :
    Except TaskRaised PyStr := do
  raiseIf ((context.allowedTools.any fun allowed =>
    !allowed.any fun name => name = publicName) = true) (.task "task_tool_not_allowed")
  pure (context.governedToolName publicName)

/-- The arguments of `create_follow_up`. -/
structure FollowUpRequest where
  title : PyStr
  description : PyStr
  actionTool : Option PyStr
  idempotencyKey : PyStr
  dependencies : List Uuid
  deriving DecidableEq

/-- `arguments.get("depends_on", [])`, which has to be a list. -/
def rawDependencies (arguments : Json) : Except TaskRaised (List Json) :=
  match arguments.get? (py "depends_on") with
  | none => .ok []
  | some (.array items) => .ok items
  | some _ => .error (.task "task_dependencies_invalid")

/-- `arguments.get("action_tool")`, unless it is `None`. -/
def TaskPlatform.actionTool (platform : TaskPlatform) (arguments : Json) : Option PyStr :=
  match arguments.get? (py "action_tool") with
  | none | some .null => none
  | some value => some (platform.text value)

/-- What `create_follow_up` reads of its arguments. -/
def TaskPlatform.followUp (platform : TaskPlatform) (arguments : Json) :
    Except TaskRaised FollowUpRequest := do
  let items ← rawDependencies arguments
  let dependencies ← items.mapM (platform.parse "task_dependency_invalid")
  raiseIf (¬ dependencies.Nodup) (.task "task_dependency_duplicate")
  pure {
    title := Knowledge.strip (platform.argument arguments "title")
    description := Knowledge.strip (platform.argument arguments "description")
    actionTool := platform.actionTool arguments
    idempotencyKey := platform.argument arguments "idempotency_key"
    dependencies := dependencies }

/-- The document a follow-up's content is recorded by. The texts of identifiers are ordered as
the identifiers are. -/
def FollowUpRequest.document (request : FollowUpRequest) : Json :=
  .object [
    (py "title", .str request.title), (py "description", .str request.description),
    (py "action_tool", (request.actionTool.map Json.str).getD .null),
    (py "depends_on", .array ((orderBy id request.dependencies).map fun taskId =>
      .str (py taskId.text)))]

/-- `_request_hash`. -/
def requestHash (runtime : Runtime) (document : Json) : Except TaskRaised Nat := do
  let encoded := dumps runtime document
  raiseIf (encoded.any isSurrogate = true) (.other (.contract .unicodeEncodeError))
  pure (runtime.sha256 encoded)

/-- What an operation on a task returns. A repeated verification names no evidence. -/
structure TaskOutcome where
  taskId : Uuid
  status : RunTaskStatus
  verificationState : VerificationState
  evidenceId : Option Uuid
  deriving DecidableEq

/-- A task's own outcome. -/
def RunTask.outcome (task : RunTask) (taskId : Uuid) : TaskOutcome :=
  ⟨taskId, task.status, task.verificationState, none⟩

/-- The task once a verification has ended it. -/
def RunTask.ended (task : RunTask) (satisfied : Bool) (now : Instant) : RunTask :=
  { task with
    status := if satisfied then .succeeded else .failed
    verificationState := if satisfied then .verified else .failed
    completedAt := some now }

/-- The arguments of `verify`. -/
structure VerifyRequest where
  taskId : Uuid
  verificationTool : PyStr
  summary : PyStr
  satisfied : Bool
  idempotencyKey : PyStr
  deriving DecidableEq

/-- `isinstance(satisfied, bool)`, with its value. -/
def satisfied? : Option Json → Option Bool
  | some (.bool value) => some value
  | _ => none

/-- What `verify` reads of its arguments. -/
def TaskPlatform.verification (platform : TaskPlatform) (arguments : Json) :
    Except TaskRaised VerifyRequest := do
  let taskId ← platform.parse "task_id_invalid" ((arguments.get? (py "task_id")).getD .null)
  let satisfied ← orRaise (satisfied? (arguments.get? (py "satisfied")))
    (.task "task_verification_invalid")
  pure {
    taskId := taskId, verificationTool := platform.argument arguments "verification_tool"
    summary := Knowledge.strip (platform.argument arguments "summary"), satisfied := satisfied
    idempotencyKey := platform.argument arguments "idempotency_key" }

/-- `length(btrim(text)) BETWEEN 1 AND bound`. -/
def hasTrimmedLength (bound : Nat) (text : PyStr) : Bool :=
  let trimmed := Knowledge.trim (fun point => point = 0x20) text
  1 ≤ trimmed.length && trimmed.length ≤ bound

/-- The constraints on the columns of a task. -/
def RunTask.admitted (task : RunTask) : Bool :=
  storableText task.title && hasTrimmedLength 300 task.title &&
    storableText task.description && task.description.length ≤ 2000 &&
    (task.actionToolName.all fun name =>
      storableText name && 2 ≤ name.length && name.length ≤ 64) &&
    storableText task.idempotencyKey &&
    8 ≤ task.idempotencyKey.length && task.idempotencyKey.length ≤ 128

/-- The constraints on the columns of an evidence record. -/
def RunTaskEvidence.admitted (record : RunTaskEvidence) : Bool :=
  storableText record.verificationToolName && 2 ≤ record.verificationToolName.length &&
    record.verificationToolName.length ≤ 64 && storableText record.summary &&
    hasTrimmedLength 2000 record.summary && storableText record.idempotencyKey &&
    8 ≤ record.idempotencyKey.length && record.idempotencyKey.length ≤ 128

namespace TaskTables

variable (tables : TaskTables)

/-- A task depends on another one. -/
def DependsOn (taskId dependsOnTaskId : Uuid) : Prop :=
  (tables.dependencies.find? (taskId, dependsOnTaskId)).isSome = true

/-- A run's task under an idempotency key. -/
def taskKeyed (runId : Uuid) (idempotencyKey : PyStr) : Option (Uuid × RunTask) :=
  tables.runTasks.first? fun _ task => task.runId = runId && task.idempotencyKey = idempotencyKey

/-- A run's evidence under an idempotency key. -/
def evidenceKeyed (runId : Uuid) (idempotencyKey : PyStr) : Option (Uuid × RunTaskEvidence) :=
  tables.evidence.first? fun _ record => record.runId = runId &&
    record.idempotencyKey = idempotencyKey

/-- A run's task. -/
def taskIn (workspaceId runId taskId : Uuid) : Option RunTask :=
  (tables.runTasks.find? taskId).filter fun task =>
    task.workspaceId = workspaceId && task.runId = runId

/-- The goal of a run. -/
def goalOf (workspaceId runId : Uuid) : Option (Uuid × RunTask) :=
  tables.runTasks.first? fun _ task => task.workspaceId = workspaceId && task.runId = runId &&
    task.kind = .goal

/-- `INSERT INTO run_tasks`: the columns are constrained, and a run has one task under an
idempotency key. -/
def insertTask (taskId : Uuid) (task : RunTask) : Except TaskRaised TaskTables := do
  raiseIf (task.admitted = false) (.other .database)
  raiseIf ((tables.taskKeyed task.runId task.idempotencyKey).isSome = true) (.other .database)
  let runTasks ← orRaise (tables.runTasks.insert? taskId task) (.other .database)
  pure { tables with runTasks := runTasks }

/-- `INSERT INTO run_task_evidence`, likewise. -/
def insertEvidence (evidenceId : Uuid) (record : RunTaskEvidence) :
    Except TaskRaised TaskTables := do
  raiseIf (record.admitted = false) (.other .database)
  raiseIf ((tables.evidenceKeyed record.runId record.idempotencyKey).isSome = true)
    (.other .database)
  let evidence ← orRaise (tables.evidence.insert? evidenceId record) (.other .database)
  pure { tables with evidence := evidence }

/-- The latest of a run's succeeded calls of a tool that finished at a time or after it, where
the tool reads or does not, with the time it finished. -/
def latestCall (store : Store) (context : ExecutionContext) (name : PyStr) (reads : Bool)
    (since : Instant) : Option (Uuid × Instant) :=
  let rows := store.toolCalls.select fun callId call =>
    call.workspaceId = context.workspaceId && call.runId = context.runId &&
      call.status = .succeeded &&
      ((store.toolOf call).any fun tool =>
        tool.name = name && decide (tool.sideEffect = .read) = reads) &&
      ((tables.finishedAt callId).any fun finishedAt => since ≤ finishedAt)
  (rows.filterMap fun row => (tables.finishedAt row.1).map fun finishedAt =>
    (row.1, finishedAt)).argmax fun found => toLex (found.2, found.1)

/-- The checks on the tool that performs a follow-up's action, if it names one. -/
def checkActionTool (store : Store) (context : ExecutionContext) :
    Option PyStr → Except TaskRaised Unit
  | none => .ok ()
  | some actionTool => do
      let internal ← context.internalTool actionTool
      raiseIf (((store.toolNamed context.workspaceId internal).any fun entry =>
        entry.2.enabled && entry.2.serverKey ≠ "tasks" && entry.2.sideEffect ≠ .read) = false)
        (.task "task_action_tool_invalid")

/-- `create_follow_up` of a task nobody has asked for under its key. -/
def insertFollowUp (store : Store) (context : ExecutionContext) (request : FollowUpRequest)
    (hash : Nat) (taskId : Uuid) (now : Instant) :
    Except TaskRaised (TaskTables × TaskOutcome) := do
  let (rootId, _) ← orRaise (tables.goalOf context.workspaceId context.runId)
    (.task "task_goal_missing")
  checkActionTool store context request.actionTool
  raiseIf ((request.dependencies.all fun dependency =>
    (tables.taskIn context.workspaceId context.runId dependency).isSome) = false)
    (.task "task_dependency_cross_run")
  let state := if request.actionTool.isSome then VerificationState.pending else .notRequired
  let inserted ← tables.insertTask taskId {
    workspaceId := context.workspaceId, runId := context.runId, parentTaskId := some rootId
    kind := .followUp, title := request.title, description := request.description
    status := .planned, actionToolName := request.actionTool, verificationState := state
    idempotencyKey := request.idempotencyKey, requestHash := hash, createdAt := now
    completedAt := none }
  let dependencies ← orRaise (inserted.dependencies.insertAll? (request.dependencies.map
    fun dependency => ((taskId, dependency), ⟨context.workspaceId, context.runId⟩)))
    (.other .database)
  pure ({ inserted with dependencies := dependencies }, ⟨taskId, .planned, state, none⟩)

/-- `create_follow_up`: a task under the run's goal, once for an idempotency key. -/
def createFollowUp (platform : TaskPlatform) (store : Store) (context : ExecutionContext)
    (arguments : Json) (taskId : Uuid) (clock now : Instant) :
    Except TaskRaised (TaskTables × TaskOutcome) := do
  let request ← platform.followUp arguments
  let hash ← requestHash platform.runtime request.document
  let _ ← ofPlatform (store.executableRun context clock)
  match tables.taskKeyed context.runId request.idempotencyKey with
  | some (existingId, existing) => do
      raiseIf (existing.requestHash ≠ hash) (.task "task_idempotency_conflict")
      pure (tables, existing.outcome existingId)
  | none => tables.insertFollowUp store context request hash taskId now

/-- The call that performed a task's action, when the task names an action tool, and the time
from which a read verifies the task. -/
def observedAction (store : Store) (context : ExecutionContext) (task : RunTask) :
    Except TaskRaised (Option Uuid × Instant) :=
  match task.actionToolName with
  | none => .ok (none, task.createdAt)
  | some actionTool => do
      let internal ← context.internalTool actionTool
      let action ← orRaise (tables.latestCall store context internal false task.createdAt)
        (.task "task_action_not_observed")
      pure (some action.1, action.2)

/-- The calls of the run a verification of a task rests on: the action's, if any, and a later
read. -/
def observedCalls (store : Store) (context : ExecutionContext) (task : RunTask)
    (verificationTool : PyStr) : Except TaskRaised (Option Uuid × Uuid) := do
  let action ← tables.observedAction store context task
  let internal ← context.internalTool verificationTool
  let verification ← orRaise (tables.latestCall store context internal true action.2)
    (.task "task_verification_evidence_missing")
  pure (action.1, verification.1)

/-- A task the given one depends on has not succeeded. -/
def isIncomplete (taskId : Uuid) : Bool :=
  tables.dependencies.any fun edge _ => edge.1 = taskId &&
    (tables.runTasks.find? edge.2).any fun task => task.status ≠ .succeeded

/-- `verify` under a key nobody has used yet. -/
def verifyNew (store : Store) (context : ExecutionContext) (request : VerifyRequest)
    (evidenceId : Uuid) (now : Instant) : Except TaskRaised (TaskTables × TaskOutcome) := do
  let task ← orRaise ((tables.taskIn context.workspaceId context.runId request.taskId).filter
    fun task => task.kind = .followUp) (.task "task_not_found")
  raiseIf (task.status.isTerminal = true) (.task "task_already_terminal")
  raiseIf (tables.isIncomplete request.taskId = true) (.task "task_dependency_incomplete")
  let (actionCallId, verificationCallId) ←
    tables.observedCalls store context task request.verificationTool
  let recorded ← tables.insertEvidence evidenceId {
    workspaceId := context.workspaceId, runId := context.runId, taskId := request.taskId
    actionToolCallId := actionCallId, verificationToolCallId := verificationCallId
    verificationToolName := request.verificationTool, summary := request.summary
    satisfied := request.satisfied, idempotencyKey := request.idempotencyKey }
  let ended := task.ended request.satisfied now
  pure ({ recorded with runTasks := recorded.runTasks.put request.taskId ended },
    ⟨request.taskId, ended.status, ended.verificationState, some evidenceId⟩)

/-- `verify`: end a follow-up on evidence, once for an idempotency key. -/
def verify (platform : TaskPlatform) (store : Store) (context : ExecutionContext)
    (arguments : Json) (evidenceId : Uuid) (clock now : Instant) :
    Except TaskRaised (TaskTables × TaskOutcome) := do
  let request ← platform.verification arguments
  let _ ← ofPlatform (store.executableRun context clock)
  match tables.evidenceKeyed context.runId request.idempotencyKey with
  | some (_, previous) => do
      raiseIf (previous.taskId ≠ request.taskId ∨ previous.satisfied ≠ request.satisfied)
        (.task "task_verification_idempotency_conflict")
      let task ← orRaise (tables.runTasks.find? request.taskId) (.other .database)
      pure (tables, task.outcome request.taskId)
  | none => tables.verifyNew store context request evidenceId now

/-- `TaskMcpAdapter.call_tool_for_context`. -/
def callToolForContext (platform : TaskPlatform) (store : Store) (context : ExecutionContext)
    (remoteName : String) (arguments : Json) (newId : Uuid) (clock now : Instant) :
    Except TaskRaised (TaskTables × TaskOutcome) := do
  raiseIf (context.agentKind ≠ .standard) (.task "task_standard_run_required")
  if remoteName = "child.create" then
    tables.createFollowUp platform store context arguments newId clock now
  else if remoteName = "task.verify" then
    tables.verify platform store context arguments newId clock now
  else .error (.task "task_operation_unknown")

section Effects

variable {tables next : TaskTables} {platform : TaskPlatform} {store : Store}
  {context : ExecutionContext} {arguments : Json} {newId taskId : Uuid} {clock now : Instant}
  {outcome : TaskOutcome} {task : RunTask}

@[simp]
theorem taskIn_eq_some (workspaceId runId taskId : Uuid) (task : RunTask) :
    tables.taskIn workspaceId runId taskId = some task ↔
      tables.runTasks.find? taskId = some task ∧ task.workspaceId = workspaceId ∧
        task.runId = runId := by
  simp [taskIn]

/-- A task is inserted under a new identifier and a key its run has not used. -/
theorem insertTask_eq_ok :
    tables.insertTask taskId task = .ok next ↔
      task.admitted = true ∧ tables.taskKeyed task.runId task.idempotencyKey = none ∧
        tables.runTasks.find? taskId = none ∧
        next = { tables with runTasks := tables.runTasks.put taskId task } := by
  simp only [insertTask, bind_eq_ok, raiseIf_eq_ok, orRaise_eq_ok, Table.insert?_eq_some,
    pure_eq_ok, exists_and_left, exists_const, Bool.not_eq_false, Option.not_isSome_iff_eq_none]
  constructor
  · rintro ⟨admitted, unused, _, ⟨absent, rfl⟩, rfl⟩
    exact ⟨admitted, unused, absent, rfl⟩
  · rintro ⟨admitted, unused, absent, rfl⟩
    exact ⟨admitted, unused, _, ⟨absent, rfl⟩, rfl⟩

/-- What is left behind by a follow-up nobody had asked for under its key. -/
structure Planned (tables next : TaskTables) (context : ExecutionContext)
    (request : FollowUpRequest) (hash : Nat) (taskId : Uuid) (now : Instant) (task : RunTask) :
    Prop where
  workspace : task.workspaceId = context.workspaceId
  ofRun : task.runId = context.runId
  kind : task.kind = .followUp
  status : task.status = .planned
  action : task.actionToolName = request.actionTool
  key : task.idempotencyKey = request.idempotencyKey
  hash : task.requestHash = hash
  createdAt : task.createdAt = now
  absent : tables.runTasks.find? taskId = none
  unused : tables.taskKeyed context.runId request.idempotencyKey = none
  inside : ∀ dependency ∈ request.dependencies, ∃ row,
    tables.runTasks.find? dependency = some row ∧ row.workspaceId = context.workspaceId ∧
      row.runId = context.runId
  runTasks : next.runTasks = tables.runTasks.put taskId task
  dependencies : ∀ edge scope, next.dependencies.find? edge = some scope ↔
    tables.dependencies.find? edge = some scope ∨
      edge.1 = taskId ∧ edge.2 ∈ request.dependencies ∧
        scope = ⟨context.workspaceId, context.runId⟩
  evidence : next.evidence = tables.evidence
  finishedAt : next.finishedAt = tables.finishedAt

theorem insertFollowUp_eq_ok {request : FollowUpRequest} {hash : Nat}
    (unused : tables.taskKeyed context.runId request.idempotencyKey = none)
    (ok : tables.insertFollowUp store context request hash newId now = .ok (next, outcome)) :
    ∃ task, tables.Planned next context request hash newId now task ∧
      outcome = task.outcome newId := by
  simp only [insertFollowUp, bind_eq_ok, orRaise_eq_ok, raiseIf_eq_ok, insertTask_eq_ok, pure_eq_ok,
    Prod.exists, Prod.mk.injEq, exists_and_left, exists_const, Bool.not_eq_false] at ok
  obtain ⟨rootId, root, _, _, _, inside, inserted, ⟨_, _, absent, rfl⟩, dependencies, added, rfl,
    rfl⟩ := ok
  obtain ⟨rows, _⟩ := Table.insertAll?_eq_some added
  refine ⟨_, ⟨rfl, rfl, rfl, rfl, rfl, rfl, rfl, rfl, absent, unused, ?_, rfl, ?_, rfl, rfl⟩, rfl⟩
  · intro dependency member
    have present := List.all_eq_true.mp inside dependency member
    obtain ⟨row, found⟩ := Option.isSome_iff_exists.mp present
    rw [taskIn_eq_some] at found
    exact ⟨row, found⟩
  · intro edge scope
    rw [rows]
    simp only [List.mem_map, Prod.ext_iff]
    constructor
    · rintro (earlier | ⟨dependency, member, ⟨same, rfl⟩, rfl⟩)
      · exact .inl earlier
      · exact .inr ⟨same.symm, member, rfl⟩
    · rintro (earlier | ⟨same, member, rfl⟩)
      · exact .inl earlier
      · exact .inr ⟨edge.2, member, ⟨same.symm, rfl⟩, rfl⟩

/-- `create_follow_up` answers with the task under the key, or plans a new one. -/
theorem createFollowUp_eq_ok
    (ok : tables.createFollowUp platform store context arguments newId clock now =
      .ok (next, outcome)) :
    ∃ request hash, platform.followUp arguments = .ok request ∧
      requestHash platform.runtime request.document = .ok hash ∧
      (∃ run, store.executableRun context clock = .ok run) ∧
      ((∃ existingId existing, next = tables ∧ outcome = existing.outcome existingId ∧
          tables.taskKeyed context.runId request.idempotencyKey = some (existingId, existing) ∧
          existing.requestHash = hash) ∨
        ∃ task, tables.Planned next context request hash newId now task ∧
          outcome = task.outcome newId) := by
  simp only [createFollowUp, bind_eq_ok, ofPlatform_eq_ok] at ok
  obtain ⟨request, parsed, hash, hashed, run, passed, ok⟩ := ok
  refine ⟨request, hash, parsed, hashed, ⟨run, passed⟩, ?_⟩
  split at ok
  case h_1 existingId existing found =>
    simp only [bind_eq_ok, raiseIf_eq_ok, pure_eq_ok, Prod.mk.injEq, exists_and_left, exists_const,
      not_not] at ok
    obtain ⟨same, rfl, rfl⟩ := ok
    exact .inl ⟨existingId, existing, rfl, rfl, found, same⟩
  case h_2 unused => exact .inr (insertFollowUp_eq_ok unused ok)

/-- The latest call is one of those it is chosen from. -/
theorem of_latestCall {name : PyStr} {reads : Bool} {since finishedAt : Instant} {callId : Uuid}
    (found : tables.latestCall store context name reads since = some (callId, finishedAt)) :
    ∃ call tool, store.toolCalls.find? callId = some call ∧
      call.workspaceId = context.workspaceId ∧ call.runId = context.runId ∧
      call.status = .succeeded ∧ store.toolOf call = some tool ∧ tool.name = name ∧
      (tool.sideEffect = .read ↔ reads = true) ∧
      tables.finishedAt callId = some finishedAt ∧ since ≤ finishedAt := by
  have member := List.argmax_mem found
  simp only [List.mem_filterMap, Table.mem_select, Option.map_eq_some_iff, Prod.exists,
    Prod.mk.injEq, Bool.and_eq_true, decide_eq_true_eq, Option.any_eq_true] at member
  obtain ⟨_, call, ⟨present, ⟨⟨⟨workspace, ofRun⟩, succeeded⟩, tool, known, named, effect⟩,
    time, finished, late⟩, _, same, rfl, rfl⟩ := member
  rw [finished] at same
  cases same
  refine ⟨call, tool, present, workspace, ofRun, succeeded, known, named, ?_, finished, late⟩
  rw [← effect, decide_eq_true_eq]

/-- The calls a verification of a task rests on, as the tools' definitions stand: a succeeded
call of the task's action tool that writes, no earlier than the task, and a succeeded call that
reads, no earlier than that. -/
structure Observed (tables : TaskTables) (store : Store) (context : ExecutionContext)
    (task : RunTask) (verificationTool : PyStr) (actionCallId : Option Uuid)
    (verificationCallId : Uuid) (since finishedAt : Instant) : Prop where
  unneeded : task.actionToolName = none → actionCallId = none ∧ since = task.createdAt
  action : ∀ actionTool, task.actionToolName = some actionTool → ∃ internal callId call tool,
    context.internalTool actionTool = .ok internal ∧ actionCallId = some callId ∧
      store.toolCalls.find? callId = some call ∧ call.runId = context.runId ∧
      call.status = .succeeded ∧ store.toolOf call = some tool ∧ tool.name = internal ∧
      tool.sideEffect ≠ .read ∧ tables.finishedAt callId = some since ∧ task.createdAt ≤ since
  verification : ∃ internal call tool, context.internalTool verificationTool = .ok internal ∧
    store.toolCalls.find? verificationCallId = some call ∧ call.runId = context.runId ∧
    call.status = .succeeded ∧ store.toolOf call = some tool ∧ tool.name = internal ∧
    tool.sideEffect = .read ∧ tables.finishedAt verificationCallId = some finishedAt ∧
    since ≤ finishedAt

theorem observedCalls_eq_ok {verificationTool : PyStr} {actionCallId : Option Uuid}
    {verificationCallId : Uuid}
    (ok : tables.observedCalls store context task verificationTool =
      .ok (actionCallId, verificationCallId)) :
    ∃ since finishedAt, tables.Observed store context task verificationTool actionCallId
      verificationCallId since finishedAt := by
  simp only [observedCalls, bind_eq_ok, orRaise_eq_ok, pure_eq_ok, Prod.exists, Prod.mk.injEq] at ok
  obtain ⟨_, since, acted, internal, governed, callId, finishedAt, latest, rfl, rfl⟩ := ok
  refine ⟨since, finishedAt, ?_, ?_, ?_⟩
  · intro unnamed
    simp only [observedAction, unnamed] at acted
    cases acted
    exact ⟨rfl, rfl⟩
  · intro actionTool named
    simp only [observedAction, named, bind_eq_ok, orRaise_eq_ok, pure_eq_ok, Prod.exists,
      Prod.mk.injEq] at acted
    obtain ⟨actionName, allowed, actionId, _, first, rfl, rfl⟩ := acted
    obtain ⟨call, tool, found, _, ofRun, succeeded, known, isTool, effect, finished, late⟩ :=
      of_latestCall first
    have writes : tool.sideEffect ≠ .read := fun reads => Bool.false_ne_true (effect.mp reads)
    exact ⟨actionName, actionId, call, tool, allowed, rfl, found, ofRun, succeeded, known, isTool,
      writes, finished, late⟩
  · obtain ⟨call, tool, found, _, ofRun, succeeded, known, isTool, effect, finished, late⟩ :=
      of_latestCall latest
    exact ⟨internal, call, tool, governed, found, ofRun, succeeded, known, isTool, effect.mpr rfl,
      finished, late⟩

/-- A task is incomplete when one it depends on has not succeeded. -/
theorem isIncomplete_eq_false :
    tables.isIncomplete taskId = false ↔ ∀ dependency task, tables.DependsOn taskId dependency →
      tables.runTasks.find? dependency = some task → task.status = .succeeded := by
  rw [← Bool.not_eq_true, isIncomplete, Table.any_eq_true]
  constructor
  · intro complete dependency task depends found
    obtain ⟨scope, edge⟩ := Option.isSome_iff_exists.mp depends
    by_contra unfinished
    exact complete ⟨(taskId, dependency), scope, edge, by simp [found, unfinished]⟩
  · rintro complete ⟨⟨source, dependency⟩, scope, edge, holds⟩
    simp only [Bool.and_eq_true, decide_eq_true_eq, Option.any_eq_true] at holds
    obtain ⟨rfl, task, found, unfinished⟩ := holds
    exact unfinished (complete dependency task (by simp [DependsOn, edge]) found)

/-- What a verification that is not a repeated one leaves behind. -/
structure Verified (tables next : TaskTables) (store : Store) (context : ExecutionContext)
    (request : VerifyRequest) (evidenceId : Uuid) (now : Instant) (task : RunTask)
    (record : RunTaskEvidence) : Prop where
  found : tables.runTasks.find? request.taskId = some task
  workspace : task.workspaceId = context.workspaceId
  ofRun : task.runId = context.runId
  kind : task.kind = .followUp
  notTerminal : task.status.isTerminal = false
  complete : tables.isIncomplete request.taskId = false
  observed : ∃ since finishedAt, tables.Observed store context task request.verificationTool
    record.actionToolCallId record.verificationToolCallId since finishedAt
  recordTask : record.taskId = request.taskId
  recordRun : record.runId = context.runId
  recordTool : record.verificationToolName = request.verificationTool
  recordSatisfied : record.satisfied = request.satisfied
  recordKey : record.idempotencyKey = request.idempotencyKey
  absent : tables.evidence.find? evidenceId = none
  unused : tables.evidenceKeyed context.runId request.idempotencyKey = none
  runTasks : next.runTasks = tables.runTasks.put request.taskId (task.ended request.satisfied now)
  evidence : next.evidence = tables.evidence.put evidenceId record
  dependencies : next.dependencies = tables.dependencies
  finishedAt : next.finishedAt = tables.finishedAt

theorem verifyNew_eq_ok {request : VerifyRequest}
    (unused : tables.evidenceKeyed context.runId request.idempotencyKey = none)
    (ok : tables.verifyNew store context request newId now = .ok (next, outcome)) :
    ∃ task record, tables.Verified next store context request newId now task record ∧
      outcome = { (task.ended request.satisfied now).outcome request.taskId with
        evidenceId := some newId } := by
  simp only [verifyNew, insertEvidence, bind_eq_ok, orRaise_eq_ok, raiseIf_eq_ok, pure_eq_ok,
    Option.filter_eq_some_iff, taskIn_eq_some, Table.insert?_eq_some, Prod.exists, Prod.mk.injEq,
    exists_and_left, exists_const, Bool.not_eq_true, decide_eq_true_eq] at ok
  obtain ⟨task, ⟨⟨found, workspace, ofRun⟩, kind⟩, notTerminal, complete, actionCallId,
    verificationCallId, observed, recorded, ⟨_, _, _, ⟨absent, rfl⟩, rfl⟩, rfl, rfl⟩ := ok
  refine ⟨task, _, ⟨found, workspace, ofRun, kind, notTerminal, complete, ?_, rfl, rfl, rfl, rfl,
    rfl, absent, unused, rfl, rfl, rfl, rfl⟩, rfl⟩
  exact observedCalls_eq_ok observed

/-- `verify` answers with the task its key has ended, or ends one. -/
theorem verify_eq_ok
    (ok : tables.verify platform store context arguments newId clock now = .ok (next, outcome)) :
    ∃ request, platform.verification arguments = .ok request ∧
      (∃ run, store.executableRun context clock = .ok run) ∧
      ((∃ evidenceId record task, next = tables ∧ outcome = task.outcome request.taskId ∧
          tables.evidenceKeyed context.runId request.idempotencyKey = some (evidenceId, record) ∧
          record.taskId = request.taskId ∧ record.satisfied = request.satisfied ∧
          tables.runTasks.find? request.taskId = some task) ∨
        ∃ task record, tables.Verified next store context request newId now task record ∧
          outcome = { (task.ended request.satisfied now).outcome request.taskId with
            evidenceId := some newId }) := by
  simp only [verify, bind_eq_ok, ofPlatform_eq_ok] at ok
  obtain ⟨request, parsed, run, passed, ok⟩ := ok
  refine ⟨request, parsed, ⟨run, passed⟩, ?_⟩
  split at ok
  case h_1 evidenceId record found =>
    simp only [bind_eq_ok, raiseIf_eq_ok, orRaise_eq_ok, pure_eq_ok, Prod.mk.injEq, exists_and_left,
      exists_const, not_or, not_not] at ok
    obtain ⟨⟨sameTask, sameResult⟩, task, present, rfl, rfl⟩ := ok
    exact .inl ⟨evidenceId, record, task, rfl, rfl, found, sameTask, sameResult, present⟩
  case h_2 unused => exact .inr (verifyNew_eq_ok unused ok)

end Effects

end TaskTables

end Nexora.Run
