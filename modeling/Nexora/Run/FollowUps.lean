import Nexora.Std.Acyclic
import Nexora.Run.Lasting
import Nexora.Run.Tasks

/-!
# Follow-ups close on ordered evidence

The run platform with the tasks of its runs. A step is a step of the platform, which carries
the triggers on runs and the times at which calls finish, or a task tool called by an attempt.
What is verified once stays so, whatever is created and verified afterwards.
-/

namespace Nexora.Run

open Nexora.Std Nexora.Workspace Nexora.Tools Json

/-- The status a run gives its goal. -/
def RunStatus.goalStatus : RunStatus → RunTaskStatus
  | .queued => .planned
  | .running | .waitingForApproval => .running
  | .succeeded => .succeeded
  | .failed => .failed
  | .cancelled => .cancelled

/-- A unit of two bytes in a JSON string that holds no other than ASCII text. -/
def unicodeEscape (unit : Nat) : PyStr :=
  py "\\u" ++ py (String.ofList [Nat.digitChar (unit / 0x1000), Nat.digitChar (unit / 0x100 % 16),
    Nat.digitChar (unit / 16 % 16), Nat.digitChar (unit % 16)])

/-- A JSON string literal of ASCII text. -/
def asciiQuoted (text : PyStr) : PyStr :=
  py "\"" ++ (text.flatMap fun point =>
    if point.val < 0x7f then escapePoint point
    else if point.val < 0x10000 then unicodeEscape point.val
    else unicodeEscape (0xd800 + (point.val - 0x10000) / 0x400) ++
      unicodeEscape (0xdc00 + (point.val - 0x10000) % 0x400)) ++ py "\""

/-- The digest `create_run` takes of a request for a standard run. -/
def runFingerprint (runtime : Runtime) (agentId : Uuid) (inputText : PyStr) : Nat :=
  runtime.sha256 (py "\x7b" ++ commaSeparated [
    asciiQuoted (py "input") ++ py ":" ++ asciiQuoted inputText,
    asciiQuoted (py "tenant_agent_id") ++ py ":" ++ asciiQuoted (py agentId.text)] ++ py "\x7d")

namespace TaskTables

/-- The goal `create_run` inserts with a standard run. -/
def goalTask (platform : TaskPlatform) (workspaceId agentId runId : Uuid) (inputText : PyStr)
    (now : Instant) : RunTask where
  workspaceId := workspaceId
  runId := runId
  parentTaskId := none
  kind := .goal
  title := py "Run goal"
  description := inputText.take 2000
  status := .planned
  actionToolName := none
  verificationState := .notRequired
  idempotencyKey := py ("goal:" ++ runId.text)
  requestHash := runFingerprint platform.runtime agentId inputText
  createdAt := now
  completedAt := none

/-- A call has ended in between. -/
def endedSince (before after : Store) (callId : Uuid) : Bool :=
  ((after.toolCalls.find? callId).any fun call => !call.status.isOpen) &&
    !((before.toolCalls.find? callId).any fun call => !call.status.isOpen)

/-- `sync_run_goal_task_status`, for one task. -/
def syncGoal (before after : Store) (now : Instant) (taskId : Uuid) (task : RunTask) : RunTask :=
  match before.agentRuns.find? taskId, after.agentRuns.find? taskId with
  | some run, some later =>
    if task.kind = .goal ∧ task.runId = taskId ∧ later.status ≠ run.status then
      { task with
        status := later.status.goalStatus
        completedAt := if later.status.isTerminal then some now else none }
    else task
  | _, _ => task

/-- What a transaction of the platform writes besides: the goals follow their runs, and every
statement that ends a call records when. -/
def follow (tables : TaskTables) (before after : Store) (now : Instant) : TaskTables :=
  { tables with
    runTasks := tables.runTasks.mapRows (syncGoal before after now)
    finishedAt := fun callId =>
      if endedSince before after callId then some now else tables.finishedAt callId }

/-- A standard run that has been created gets its goal. -/
def insertGoal (tables : TaskTables) (platform : TaskPlatform) (before after : Store)
    (now : Instant) : Label → Except TaskRaised TaskTables
  | .request (.createStandardRun _ workspaceId agentId _ inputText _ runId _ _ _) =>
    if before.agentRuns.find? runId = none ∧ (after.agentRuns.find? runId).isSome = true then
      tables.insertTask runId (goalTask platform workspaceId agentId runId inputText now)
    else .ok tables
  | _ => .ok tables

end TaskTables

/-- The platform and the tasks of its runs. -/
structure TaskSystem where
  platform : System
  tables : TaskTables

/-- A step of the platform, at the timestamp of its transaction, or a call of a task tool that
is with its adapter. -/
inductive TaskLabel where
  | platform (label : Label) (now : Instant)
  | callTask (workerId : String) (newId : Uuid) (clock now : Instant)

variable {newId : Uuid} {clock : Instant}

namespace TaskSystem

/-- `call_tool` of the server a worker's call is dispatched to, where it is the task server. -/
def callTask (platform : TaskPlatform) (system : TaskSystem) (session : Session)
    (execution : ToolExecution) (newId : Uuid) (clock now : Instant) :
    Except TaskRaised (TaskTables × TaskOutcome) := do
  raiseIf (execution.serverKey ≠ "tasks") (.other .database)
  system.tables.callToolForContext platform system.platform.store session.context
    execution.remoteName execution.arguments newId clock now

/-- The system after a step. -/
def run (platform : TaskPlatform) (system : TaskSystem) :
    TaskLabel → Except TaskRaised TaskSystem
  | .platform label now => do
      let next ← ofPlatform (System.run platform.toPlatform system.platform label)
      let followed := system.tables.follow system.platform.store next.store now
      let tables ← followed.insertGoal platform system.platform.store next.store now label
      pure ⟨next, tables⟩
  | .callTask workerId newId clock now => do
      let session ← orRaise (system.platform.sessions.find? workerId) (.other .database)
      let execution ← orRaise session.stage.dispatched? (.other .database)
      let (tables, _) ← system.callTask platform session execution newId clock now
      pure { system with tables := tables }

/-- A platform nobody has used yet has no tasks. -/
structure Opening (system : TaskSystem) : Prop where
  platform : Run.Opening system.platform
  runTasks : system.tables.runTasks = .empty
  dependencies : system.tables.dependencies = .empty
  evidence : system.tables.evidence = .empty

/-- The platform and its tasks under any sequence of steps. -/
def machine (platform : TaskPlatform) : Machine TaskSystem TaskLabel :=
  .ofFunction Opening (run platform)

variable {platform : TaskPlatform} {system next : TaskSystem}

theorem run_platform {label : Label} {now : Instant} :
    run platform system (.platform label now) = .ok next ↔
      ∃ later tables, System.run platform.toPlatform system.platform label = .ok later ∧
        (system.tables.follow system.platform.store later.store now).insertGoal platform
          system.platform.store later.store now label = .ok tables ∧ next = ⟨later, tables⟩ := by
  simp only [run, bind_eq_ok, ofPlatform_eq_ok, pure_eq_ok, exists_and_left, eq_comm (a := next)]

theorem run_callTask {workerId : String} {now : Instant} :
    run platform system (.callTask workerId newId clock now) = .ok next ↔
      ∃ session execution tables outcome,
        system.platform.sessions.find? workerId = some session ∧
        session.stage.dispatched? = some execution ∧
        system.callTask platform session execution newId clock now = .ok (tables, outcome) ∧
        next = { system with tables := tables } := by
  simp only [run, bind_eq_ok, orRaise_eq_ok, pure_eq_ok, Prod.exists, exists_and_left,
    eq_comm (a := next)]

end TaskSystem

/-- A run's goal is terminal when the run is. -/
theorem RunStatus.isTerminal_goalStatus (status : RunStatus) :
    status.goalStatus.isTerminal = status.isTerminal := by cases status <;> rfl

/-- A later version of a task: what it was planned as stays, and nothing changes once it has
ended. -/
structure RunTask.Follows (task later : RunTask) : Prop where
  workspace : later.workspaceId = task.workspaceId
  ofRun : later.runId = task.runId
  kind : later.kind = task.kind
  action : later.actionToolName = task.actionToolName
  key : later.idempotencyKey = task.idempotencyKey
  hash : later.requestHash = task.requestHash
  createdAt : later.createdAt = task.createdAt
  terminal : task.status.isTerminal = true → later = task

theorem RunTask.Follows.refl (task : RunTask) : task.Follows task :=
  ⟨rfl, rfl, rfl, rfl, rfl, rfl, rfl, fun _ => rfl⟩

theorem RunTask.Follows.trans {task middle later : RunTask} (early : task.Follows middle)
    (late : middle.Follows later) : task.Follows later where
  workspace := late.workspace.trans early.workspace
  ofRun := late.ofRun.trans early.ofRun
  kind := late.kind.trans early.kind
  action := late.action.trans early.action
  key := late.key.trans early.key
  hash := late.hash.trans early.hash
  createdAt := late.createdAt.trans early.createdAt
  terminal ended := by
    have same := early.terminal ended
    rw [late.terminal (same ▸ ended), same]

namespace TaskSystem

/-- What a step leaves as it was: every task follows on from what it was, and evidence and calls
that have ended stay. -/
structure Extends (before after : TaskSystem) : Prop where
  tasks : ∀ taskId task, before.tables.runTasks.find? taskId = some task →
    ∃ later, after.tables.runTasks.find? taskId = some later ∧ task.Follows later
  evidence : ∀ evidenceId record, before.tables.evidence.find? evidenceId = some record →
    after.tables.evidence.find? evidenceId = some record
  calls : ∀ callId call, before.platform.store.toolCalls.find? callId = some call →
    call.status.isOpen = false → after.platform.store.toolCalls.find? callId = some call ∧
      after.tables.finishedAt callId = before.tables.finishedAt callId

theorem Extends.refl (system : TaskSystem) : Extends system system where
  tasks _ task found := ⟨task, found, .refl task⟩
  evidence _ _ found := found
  calls _ _ found _ := ⟨found, rfl⟩

theorem Extends.trans {before middle after : TaskSystem} (early : Extends before middle)
    (late : Extends middle after) : Extends before after where
  tasks taskId task found := by
    obtain ⟨between, betweenFound, first⟩ := early.tasks taskId task found
    obtain ⟨later, laterFound, second⟩ := late.tasks taskId between betweenFound
    exact ⟨later, laterFound, first.trans second⟩
  evidence evidenceId record found := late.evidence _ _ (early.evidence evidenceId record found)
  calls callId call found ended := by
    obtain ⟨between, sameTime⟩ := early.calls callId call found ended
    obtain ⟨later, laterTime⟩ := late.calls callId call between ended
    exact ⟨later, laterTime.trans sameTime⟩

/-- What holds of the tasks in every reachable state. -/
structure Sound (system : TaskSystem) : Prop where
  coupled : Coupled system.platform.store.board
  goals : ∀ taskId task, system.tables.runTasks.find? taskId = some task → task.kind = .goal →
    ∃ run, system.platform.store.agentRuns.find? taskId = some run ∧ task.runId = taskId ∧
      task.status = run.status.goalStatus
  inside : ∀ taskId dependency scope,
    system.tables.dependencies.find? (taskId, dependency) = some scope →
      ∃ task other, system.tables.runTasks.find? taskId = some task ∧
        system.tables.runTasks.find? dependency = some other ∧
        task.workspaceId = scope.workspaceId ∧ task.runId = scope.runId ∧
        other.workspaceId = scope.workspaceId ∧ other.runId = scope.runId
  acyclic : Acyclic system.tables.DependsOn
  evidence : ∀ evidenceId record, system.tables.evidence.find? evidenceId = some record →
    ∃ task, system.tables.runTasks.find? record.taskId = some task ∧ task.runId = record.runId ∧
      task.kind = .followUp ∧ task.status = (if record.satisfied then .succeeded else .failed)
  complete : ∀ taskId task, system.tables.runTasks.find? taskId = some task →
    task.kind = .followUp → task.status = .succeeded →
      ∀ dependency other, system.tables.DependsOn taskId dependency →
        system.tables.runTasks.find? dependency = some other → other.status = .succeeded
  taskKeys : ∀ left leftTask right rightTask, system.tables.runTasks.find? left = some leftTask →
    system.tables.runTasks.find? right = some rightTask → leftTask.runId = rightTask.runId →
      leftTask.idempotencyKey = rightTask.idempotencyKey → left = right
  evidenceKeys : ∀ left leftRecord right rightRecord,
    system.tables.evidence.find? left = some leftRecord →
    system.tables.evidence.find? right = some rightRecord →
      leftRecord.runId = rightRecord.runId →
        leftRecord.idempotencyKey = rightRecord.idempotencyKey → left = right

section Steps

variable {platform : TaskPlatform} {system next : TaskSystem} {label : Label} {later : System}
  {now : Instant} {before after : Store} {task : RunTask} {taskId : Uuid} {tables : TaskTables}
  {context : ExecutionContext}

open TaskTables

theorem find?_follow (tables : TaskTables) (before after : Store) (now : Instant) (taskId : Uuid) :
    (tables.follow before after now).runTasks.find? taskId =
      (tables.runTasks.find? taskId).map (syncGoal before after now taskId) :=
  Table.find?_mapRows tables.runTasks (syncGoal before after now) taskId

/-- A goal that follows its run is planned as it was. -/
theorem syncGoal_kept (before after : Store) (now : Instant) (taskId : Uuid) (task : RunTask)
    (terminal : task.status.isTerminal = true → syncGoal before after now taskId task = task) :
    task.Follows (syncGoal before after now taskId task) := by
  refine ⟨?_, ?_, ?_, ?_, ?_, ?_, ?_, terminal⟩ <;>
  · unfold syncGoal
    split
    · split <;> rfl
    · rfl

/-- Only goals follow runs. -/
theorem syncGoal_followUp (kind : task.kind = .followUp) :
    syncGoal before after now taskId task = task := by
  unfold syncGoal
  split
  · simp [kind]
  · rfl

/-- A task that has ended is left alone, because the run of an ended goal has ended. -/
theorem Sound.syncGoal_terminal (sound : Sound system)
    (ok : System.run platform.toPlatform system.platform label = .ok later)
    (found : system.tables.runTasks.find? taskId = some task)
    (terminal : task.status.isTerminal = true) :
    syncGoal system.platform.store later.store now taskId task = task := by
  cases kind : task.kind with
  | followUp => exact syncGoal_followUp kind
  | goal =>
    obtain ⟨run, runFound, _, status⟩ := sound.goals taskId task found kind
    obtain ⟨row, rowFound, kept⟩ := System.run_status ok runFound
    rw [status, RunStatus.isTerminal_goalStatus] at terminal
    simp [syncGoal, runFound, rowFound, kept terminal]

/-- The goals follow their runs, and nothing else of the tasks changes. -/
theorem Sound.followed (sound : Sound system)
    (ok : System.run platform.toPlatform system.platform label = .ok later) :
    Sound ⟨later, system.tables.follow system.platform.store later.store now⟩ ∧
      Extends system ⟨later, system.tables.follow system.platform.store later.store now⟩ := by
  obtain ⟨coupled, ended⟩ := System.run_endedKept sound.coupled ok
  have follows (taskId : Uuid) (task : RunTask)
      (found : system.tables.runTasks.find? taskId = some task) :
      task.Follows (syncGoal system.platform.store later.store now taskId task) :=
    syncGoal_kept _ _ _ _ _ (sound.syncGoal_terminal ok found)
  -- Every task comes from one that it follows.
  have earlier {taskId : Uuid} {task : RunTask}
      (found : (system.tables.follow system.platform.store later.store now).runTasks.find? taskId =
        some task) : ∃ prior, system.tables.runTasks.find? taskId = some prior ∧
          prior.Follows task ∧
          task = syncGoal system.platform.store later.store now taskId prior := by
    rw [find?_follow, Option.map_eq_some_iff] at found
    obtain ⟨prior, priorFound, rfl⟩ := found
    exact ⟨prior, priorFound, follows taskId prior priorFound, rfl⟩
  have kept {taskId : Uuid} {task : RunTask}
      (found : system.tables.runTasks.find? taskId = some task) :
      (system.tables.follow system.platform.store later.store now).runTasks.find? taskId =
        some (syncGoal system.platform.store later.store now taskId task) := by
    rw [find?_follow, found, Option.map_some]
  constructor
  · refine ⟨coupled, ?_, ?_, sound.acyclic, ?_, ?_, ?_, sound.evidenceKeys⟩
    · intro taskId task found kind
      obtain ⟨prior, priorFound, same, synced⟩ := earlier found
      obtain ⟨run, runFound, ofRun, status⟩ := sound.goals taskId prior priorFound
        (same.kind.symm.trans kind)
      obtain ⟨row, rowFound, _⟩ := System.run_status ok runFound
      refine ⟨row, rowFound, same.ofRun.trans ofRun, ?_⟩
      rw [synced]
      by_cases moved : row.status = run.status
      · simp [syncGoal, runFound, rowFound, moved, status]
      · simp [syncGoal, runFound, rowFound, moved, same.kind.symm.trans kind, ofRun]
    · intro taskId dependency scope edge
      obtain ⟨task, other, found, otherFound, workspace, ofRun, otherWorkspace, otherRun⟩ :=
        sound.inside taskId dependency scope edge
      have first := follows taskId task found
      have second := follows dependency other otherFound
      exact ⟨_, _, kept found, kept otherFound, first.workspace.trans workspace,
        first.ofRun.trans ofRun, second.workspace.trans otherWorkspace,
        second.ofRun.trans otherRun⟩
    · intro evidenceId record recorded
      obtain ⟨task, found, ofRun, kind, status⟩ := sound.evidence evidenceId record recorded
      refine ⟨task, ?_, ofRun, kind, status⟩
      rw [kept found, syncGoal_followUp kind]
    · intro taskId task found kind succeeded dependency other depends otherFound
      obtain ⟨prior, priorFound, same, synced⟩ := earlier found
      rw [syncGoal_followUp (same.kind.symm.trans kind)] at synced
      subst synced
      obtain ⟨row, rowFound, rowSame, _⟩ := earlier otherFound
      have done := sound.complete taskId task priorFound kind succeeded dependency row depends
        rowFound
      rw [rowSame.terminal (by rw [done]; rfl)]
      exact done
    · intro left leftTask right rightTask leftFound rightFound sameRun sameKey
      obtain ⟨_, leftPrior, leftSame, _⟩ := earlier leftFound
      obtain ⟨_, rightPrior, rightSame, _⟩ := earlier rightFound
      rw [leftSame.ofRun, rightSame.ofRun] at sameRun
      rw [leftSame.key, rightSame.key] at sameKey
      exact sound.taskKeys _ _ _ _ leftPrior rightPrior sameRun sameKey
  · refine ⟨?_, fun _ _ found => found, ?_⟩
    · intro taskId task found
      exact ⟨_, kept found, follows taskId task found⟩
    · intro callId call found closed
      refine ⟨ended callId call found closed, ?_⟩
      have before : system.platform.store.toolCalls.find? callId = some call := found
      simp [follow, endedSince, before, closed]

/-- A task that is new, has not succeeded and is depended on by none keeps everything else as it
was. -/
theorem Sound.grown (sound : Sound system) (absent : system.tables.runTasks.find? taskId = none)
    (unused : system.tables.taskKeyed task.runId task.idempotencyKey = none)
    (goal : task.kind = .goal → ∃ run, system.platform.store.agentRuns.find? taskId = some run ∧
      task.runId = taskId ∧ task.status = run.status.goalStatus) (planned : task.status = .planned)
    (runTasks : tables.runTasks = system.tables.runTasks.put taskId task)
    (dependencies : ∀ edge scope, tables.dependencies.find? edge = some scope →
      system.tables.dependencies.find? edge = some scope ∨
        edge.1 = taskId ∧ scope = ⟨task.workspaceId, task.runId⟩ ∧
          ∃ other, system.tables.runTasks.find? edge.2 = some other ∧
            other.workspaceId = task.workspaceId ∧ other.runId = task.runId)
    (evidence : tables.evidence = system.tables.evidence)
    (finishedAt : tables.finishedAt = system.tables.finishedAt) :
    Sound { system with tables := tables } ∧ Extends system { system with tables := tables } := by
  have kept {other : Uuid} {row : RunTask}
      (found : system.tables.runTasks.find? other = some row) :
      tables.runTasks.find? other = some row := by
    rw [runTasks, Table.find?_put_ne _ _ ?_, found]
    rintro rfl
    rw [absent] at found
    cases found
  have earlier {other : Uuid} {row : RunTask} (found : tables.runTasks.find? other = some row) :
      (other = taskId ∧ row = task) ∨ system.tables.runTasks.find? other = some row := by
    rw [runTasks, Table.find?_put_eq] at found
    split at found
    case isTrue same => exact .inl ⟨same, (Option.some.inj found).symm⟩
    case isFalse => exact .inr found
  have isKeyed {other : Uuid} {row : RunTask}
      (found : system.tables.runTasks.find? other = some row) (sameRun : row.runId = task.runId)
      (sameKey : row.idempotencyKey = task.idempotencyKey) : False := by
    have fails := (Table.first?_eq_none _ _).mp unused other row found
    simp [sameRun, sameKey] at fails
  have gained {first second : Uuid} (edge : tables.DependsOn first second) :
      system.tables.DependsOn first second ∨ first = taskId := by
    obtain ⟨scope, found⟩ := Option.isSome_iff_exists.mp edge
    rcases dependencies _ _ found with old | ⟨new, _⟩
    · exact .inl (by simp [TaskTables.DependsOn, old])
    · exact .inr new
  have unreached (first : Uuid) : ¬ tables.DependsOn first taskId := by
    intro edge
    obtain ⟨scope, found⟩ := Option.isSome_iff_exists.mp edge
    rcases dependencies _ _ found with old | ⟨_, _, other, present, _⟩
    · obtain ⟨_, other, _, present, _⟩ := sound.inside _ _ _ old
      rw [absent] at present
      cases present
    · rw [absent] at present
      cases present
  constructor
  · have acyclic := sound.acyclic.grown (fun _ _ => gained) unreached
    refine ⟨sound.coupled, ?_, ?_, acyclic, ?_, ?_, ?_, ?_⟩
    · intro other row found kind
      rcases earlier found with ⟨rfl, rfl⟩ | old
      · exact goal kind
      · exact sound.goals other row old kind
    · intro first second scope edge
      rcases dependencies _ _ edge with old | ⟨same, rfl, other, present, workspace, ofRun⟩
      · obtain ⟨row, other, found, otherFound, facts⟩ := sound.inside _ _ _ old
        exact ⟨row, other, kept found, kept otherFound, facts⟩
      · refine ⟨task, other, ?_, kept present, rfl, rfl, workspace, ofRun⟩
        have isTask : first = taskId := same
        dsimp only
        rw [isTask, runTasks, Table.find?_put]
    · intro evidenceId record recorded
      have recordedBefore : system.tables.evidence.find? evidenceId = some record := by
        rw [← evidence]
        exact recorded
      obtain ⟨row, found, facts⟩ := sound.evidence evidenceId record recordedBefore
      exact ⟨row, kept found, facts⟩
    · intro first row found kind succeeded second other depends otherFound
      rcases earlier found with ⟨_, rfl⟩ | old
      · rw [planned] at succeeded
        cases succeeded
      · have before := (gained depends).resolve_right fun same => by
          rw [same, absent] at old
          cases old
        rcases earlier otherFound with ⟨rfl, _⟩ | otherOld
        · exact absurd depends (unreached first)
        · exact sound.complete first row old kind succeeded second other before otherOld
    · intro left leftTask right rightTask leftFound rightFound sameRun sameKey
      rcases earlier leftFound with ⟨rfl, rfl⟩ | leftOld
      · rcases earlier rightFound with ⟨same, _⟩ | rightOld
        · exact same.symm
        · exact (isKeyed rightOld sameRun.symm sameKey.symm).elim
      · rcases earlier rightFound with ⟨rfl, rfl⟩ | rightOld
        · exact (isKeyed leftOld sameRun sameKey).elim
        · exact sound.taskKeys _ _ _ _ leftOld rightOld sameRun sameKey
    · dsimp only
      rw [evidence]
      exact sound.evidenceKeys
  · refine ⟨fun other row found => ⟨row, kept found, .refl row⟩, ?_, ?_⟩
    · intro evidenceId record found
      dsimp only
      rw [evidence]
      exact found
    · intro callId call found _
      exact ⟨found, congrFun finishedAt callId⟩

/-- A standard run that has been created is queued. -/
theorem created_queued {principal : Principal} {workspaceId agentId runId traceId jobId : Uuid}
    {snapshot : Json} {inputText : PyStr} {idempotencyKey : String} {run : AgentRun}
    (ok : before.createStandardRun principal workspaceId agentId snapshot inputText idempotencyKey
      runId traceId jobId now = .ok after)
    (absent : before.agentRuns.find? runId = none)
    (found : after.agentRuns.find? runId = some run) : run.status = .queued := by
  simp only [Store.createStandardRun, bind_eq_ok] at ok
  obtain ⟨_, _, ok⟩ := ok
  unfold Store.requestRun at ok
  split at ok
  · simp only [bind_eq_ok, raiseIf_eq_ok, pure_eq_ok, exists_and_left, exists_const] at ok
    obtain ⟨_, rfl⟩ := ok
    rw [absent] at found
    cases found
  · simp only [Store.insertRun, bind_eq_ok, orRaise_eq_ok, Table.insert?_eq_some] at ok
    obtain ⟨_, ⟨_, rfl⟩, enqueued⟩ := ok
    have runs : after.agentRuns = _ := congrArg Board.runs (Store.enqueue_board enqueued)
    rw [runs] at found
    simp only [Store.board, Table.find?_put, Option.some.injEq] at found
    rw [← found]
    rfl

/-- A goal is inserted with its run, or nothing is. -/
theorem Sound.insertGoal {followed : TaskTables} {store : Store}
    (ok : System.run platform.toPlatform ⟨store, system.platform.sessions⟩ label = .ok later)
    (sound : Sound ⟨later, followed⟩)
    (inserted : followed.insertGoal platform store later.store now label = .ok tables) :
    Sound ⟨later, tables⟩ ∧ Extends ⟨later, followed⟩ ⟨later, tables⟩ := by
  unfold TaskTables.insertGoal at inserted
  split at inserted
  case h_2 =>
    cases inserted
    exact ⟨sound, .refl _⟩
  case h_1 _ workspaceId agentId _ inputText _ runId _ _ _ =>
    split at inserted
    case isFalse =>
      cases inserted
      exact ⟨sound, .refl _⟩
    case isTrue created =>
      obtain ⟨absentRun, present⟩ := created
      obtain ⟨run, found⟩ := Option.isSome_iff_exists.mp present
      obtain ⟨_, unused, absent, rfl⟩ := TaskTables.insertTask_eq_ok.mp inserted
      obtain ⟨_, made, rfl⟩ := System.run_request.mp ok
      have queued := created_queued made absentRun found
      refine sound.grown absent unused (fun _ => ⟨run, found, rfl, ?_⟩) rfl rfl
        (fun _ _ edge => .inl edge) rfl rfl
      rw [queued]
      rfl

/-- A planned follow-up keeps everything else as it was. -/
theorem Sound.planned (sound : Sound system) {request : FollowUpRequest} {hash : Nat}
    (planned : system.tables.Planned tables context request hash taskId now task) :
    Sound { system with tables := tables } ∧ Extends system { system with tables := tables } := by
  refine sound.grown planned.absent ?_ ?_ planned.status planned.runTasks ?_ planned.evidence
    planned.finishedAt
  · rw [planned.ofRun, planned.key]
    exact planned.unused
  · intro goal
    rw [planned.kind] at goal
    cases goal
  · intro edge scope found
    rcases (planned.dependencies edge scope).mp found with old | ⟨same, member, rfl⟩
    · exact .inl old
    · obtain ⟨other, present, workspace, ofRun⟩ := planned.inside _ member
      refine .inr ⟨same, ?_, other, present, workspace.trans planned.workspace.symm,
        ofRun.trans planned.ofRun.symm⟩
      rw [planned.workspace, planned.ofRun]

/-- A verified follow-up ends with its evidence, and keeps everything else as it was. -/
theorem Sound.verified (sound : Sound system) {request : VerifyRequest} {evidenceId : Uuid}
    {record : RunTaskEvidence}
    (verified : system.tables.Verified tables system.platform.store context request evidenceId now
      task record) :
    Sound { system with tables := tables } ∧ Extends system { system with tables := tables } := by
  have open_ := verified.notTerminal
  have earlier {other : Uuid} {row : RunTask} (found : tables.runTasks.find? other = some row) :
      (other = request.taskId ∧ row = task.ended request.satisfied now) ∨
        other ≠ request.taskId ∧ system.tables.runTasks.find? other = some row := by
    rw [verified.runTasks, Table.find?_put_eq] at found
    split at found
    case isTrue same => exact .inl ⟨same, (Option.some.inj found).symm⟩
    case isFalse distinct => exact .inr ⟨distinct, found⟩
  have unchanged {other : Uuid} {row : RunTask}
      (found : system.tables.runTasks.find? other = some row) (distinct : other ≠ request.taskId) :
      tables.runTasks.find? other = some row := by
    rw [verified.runTasks, Table.find?_put_ne _ _ distinct, found]
  have self : tables.runTasks.find? request.taskId = some (task.ended request.satisfied now) := by
    rw [verified.runTasks, Table.find?_put]
  -- What has ended was another task.
  have distinct {other : Uuid} {row : RunTask}
      (found : system.tables.runTasks.find? other = some row)
      (ended : row.status.isTerminal = true) : other ≠ request.taskId := by
    rintro rfl
    rw [verified.found] at found
    cases found
    rw [open_] at ended
    cases ended
  have depends {first second : Uuid} (edge : tables.DependsOn first second) :
      system.tables.DependsOn first second := by
    unfold TaskTables.DependsOn at edge ⊢
    rw [← verified.dependencies]
    exact edge
  have ended (satisfied : Bool) (status : RunTaskStatus)
      (is : status = if satisfied then .succeeded else .failed) : status.isTerminal = true := by
    rw [is]
    cases satisfied <;> rfl
  constructor
  · refine ⟨sound.coupled, ?_, ?_, ?_, ?_, ?_, ?_, ?_⟩
    · intro taskId row found kind
      rcases earlier found with ⟨_, rfl⟩ | ⟨_, old⟩
      · have impossible := verified.kind.symm.trans kind
        cases impossible
      · exact sound.goals taskId row old kind
    · intro taskId dependency scope edge
      have inside (other : Uuid) (row : RunTask)
          (found : system.tables.runTasks.find? other = some row)
          (workspace : row.workspaceId = scope.workspaceId) (ofRun : row.runId = scope.runId) :
          ∃ later, tables.runTasks.find? other = some later ∧
            later.workspaceId = scope.workspaceId ∧ later.runId = scope.runId := by
        by_cases same : other = request.taskId
        · subst same
          rw [verified.found] at found
          cases found
          exact ⟨_, self, workspace, ofRun⟩
        · exact ⟨row, unchanged found same, workspace, ofRun⟩
      dsimp only at edge
      rw [verified.dependencies] at edge
      obtain ⟨row, other, found, otherFound, workspace, ofRun, otherWorkspace, otherRun⟩ :=
        sound.inside _ _ _ edge
      obtain ⟨first, firstFound, firstFacts⟩ := inside _ row found workspace ofRun
      obtain ⟨second, secondFound, secondFacts⟩ := inside _ other otherFound otherWorkspace otherRun
      exact ⟨first, second, firstFound, secondFound, firstFacts.1, firstFacts.2, secondFacts⟩
    · intro element path
      exact sound.acyclic element (Relation.TransGen.mono (fun _ _ => depends) _ _ path)
    · intro otherId other recorded
      dsimp only at recorded
      rw [verified.evidence, Table.find?_put_eq] at recorded
      split at recorded
      · cases recorded
        rw [verified.recordTask, verified.recordSatisfied, verified.recordRun]
        exact ⟨_, self, verified.ofRun, verified.kind, rfl⟩
      · obtain ⟨row, found, ofRun, kind, status⟩ := sound.evidence otherId other recorded
        exact ⟨row, unchanged found (distinct found (ended _ _ status)), ofRun, kind, status⟩
    · intro taskId row found kind succeeded dependency other edge otherFound
      have old := depends edge
      rcases earlier otherFound with ⟨rfl, _⟩ | ⟨_, otherOld⟩
      · -- The task depends on the one that ends now, so it has not succeeded before.
        rcases earlier found with ⟨rfl, rfl⟩ | ⟨_, rowOld⟩
        · exact (sound.acyclic _ (.single old)).elim
        · have done := sound.complete _ _ rowOld kind succeeded _ _ old verified.found
          rw [done] at open_
          cases open_
      · rcases earlier found with ⟨rfl, rfl⟩ | ⟨_, rowOld⟩
        · exact TaskTables.isIncomplete_eq_false.mp verified.complete dependency other old otherOld
        · exact sound.complete _ _ rowOld kind succeeded _ _ old otherOld
    · have key {taskId : Uuid} {row : RunTask} (found : tables.runTasks.find? taskId = some row) :
          ∃ prior, system.tables.runTasks.find? taskId = some prior ∧ row.runId = prior.runId ∧
            row.idempotencyKey = prior.idempotencyKey := by
        rcases earlier found with ⟨rfl, rfl⟩ | ⟨_, old⟩
        · exact ⟨task, verified.found, rfl, rfl⟩
        · exact ⟨row, old, rfl, rfl⟩
      intro left leftTask right rightTask leftFound rightFound sameRun sameKey
      obtain ⟨leftPrior, leftOld, leftRun, leftKey⟩ := key leftFound
      obtain ⟨rightPrior, rightOld, rightRun, rightKey⟩ := key rightFound
      rw [leftRun, rightRun] at sameRun
      rw [leftKey, rightKey] at sameKey
      exact sound.taskKeys _ _ _ _ leftOld rightOld sameRun sameKey
    · have fresh {otherId : Uuid} {other : RunTaskEvidence}
          (found : system.tables.evidence.find? otherId = some other)
          (sameRun : other.runId = record.runId)
          (sameKey : other.idempotencyKey = record.idempotencyKey) : False := by
        have fails := (Table.first?_eq_none _ _).mp verified.unused otherId other found
        simp [sameRun, sameKey, verified.recordRun, verified.recordKey] at fails
      intro left leftRecord right rightRecord leftFound rightFound sameRun sameKey
      dsimp only at leftFound rightFound
      rw [verified.evidence, Table.find?_put_eq] at leftFound rightFound
      split at leftFound <;> split at rightFound
      · rename_i leftIs rightIs
        exact leftIs.trans rightIs.symm
      · cases leftFound
        exact (fresh rightFound sameRun.symm sameKey.symm).elim
      · cases rightFound
        exact (fresh leftFound sameRun sameKey).elim
      · exact sound.evidenceKeys _ _ _ _ leftFound rightFound sameRun sameKey
  · refine ⟨?_, ?_, ?_⟩
    · intro taskId row found
      by_cases same : taskId = request.taskId
      · subst same
        rw [verified.found] at found
        cases found
        refine ⟨_, self, rfl, rfl, rfl, rfl, rfl, rfl, rfl, fun ended => ?_⟩
        rw [open_] at ended
        cases ended
      · exact ⟨row, unchanged found same, .refl row⟩
    · intro otherId other found
      dsimp only
      rw [verified.evidence, Table.find?_put_ne _ _ ?_, found]
      rintro rfl
      rw [verified.absent] at found
      cases found
    · intro callId call found _
      exact ⟨found, congrFun verified.finishedAt callId⟩

/-- A call of a task tool plans a follow-up, verifies one, or answers from what is stored. -/
theorem callTask_eq_ok {session : Session} {execution : ToolExecution} {outcome : TaskOutcome}
    (ok : system.callTask platform session execution newId clock now = .ok (tables, outcome)) :
    tables = system.tables ∨
    (∃ request hash task,
      system.tables.Planned tables session.context request hash newId now task) ∨
    ∃ request task record, system.tables.Verified tables system.platform.store session.context
      request newId now task record := by
  simp only [callTask, callToolForContext, bind_eq_ok, raiseIf_eq_ok, exists_and_left,
    exists_const] at ok
  obtain ⟨_, _, ok⟩ := ok
  split at ok
  · obtain ⟨request, hash, _, _, _, ⟨_, _, same, _⟩ | ⟨task, planned, _⟩⟩ := createFollowUp_eq_ok ok
    · exact .inl same
    · exact .inr (.inl ⟨request, hash, task, planned⟩)
  split at ok
  · obtain ⟨request, _, _, ⟨_, _, _, same, _⟩ | ⟨task, record, verified, _⟩⟩ := verify_eq_ok ok
    · exact .inl same
    · exact .inr (.inr ⟨request, task, record, verified⟩)
  · cases ok

/-- Every step keeps what holds of the tasks, and what it leaves as it was. -/
theorem Sound.step (sound : Sound system) {label : TaskLabel}
    (ok : run platform system label = .ok next) : Sound next ∧ Extends system next := by
  cases label with
  | platform label now =>
    obtain ⟨later, tables, moved, inserted, rfl⟩ := run_platform.mp ok
    let tracked := system.tables.follow system.platform.store later.store now
    have kept : Sound ⟨later, tracked⟩ ∧ Extends system ⟨later, tracked⟩ := sound.followed moved
    obtain ⟨followed, first⟩ := kept
    obtain ⟨holds, second⟩ := Sound.insertGoal moved followed inserted
    exact ⟨holds, first.trans second⟩
  | callTask workerId newId clock now =>
    obtain ⟨session, execution, tables, outcome, _, _, called, rfl⟩ := run_callTask.mp ok
    rcases callTask_eq_ok called with rfl | ⟨_, _, _, planned⟩ | ⟨_, _, _, verified⟩
    · exact ⟨sound, .refl system⟩
    · exact sound.planned planned
    · exact sound.verified verified

end Steps

end TaskSystem

end Nexora.Run
