import Nexora.Run.FollowUps

/-!
# What a follow-up rests on

A follow-up that has succeeded rests on evidence an earlier verification found, in the order
the calls finished in. Asking again under a key that has been used returns what is stored.
-/

namespace Nexora.Run

open Nexora.Std Nexora.Workspace Nexora.Tools Json

namespace TaskSystem

/-- A call of a run has succeeded, and finished at a time. -/
def Finished (system : TaskSystem) (runId callId : Uuid) (time : Instant) : Prop :=
  ∃ call, system.platform.store.toolCalls.find? callId = some call ∧ call.runId = runId ∧
    call.status = .succeeded ∧ system.tables.finishedAt callId = some time

/-- A follow-up rests on a satisfied record of a verification that found, as the tools'
definitions stood then, a succeeded call that writes, of the follow-up's action tool and no
earlier than the follow-up itself, and no earlier than that a succeeded call that reads. The
calls it names still stand as they were found. -/
structure Evidenced (history : List (Transition TaskSystem TaskLabel)) (system : TaskSystem)
    (taskId : Uuid) (task : RunTask) (record : RunTaskEvidence) (since finishedAt : Instant) :
    Prop where
  ofTask : record.taskId = taskId
  satisfied : record.satisfied = true
  ordered : task.createdAt ≤ since ∧ since ≤ finishedAt
  observed : ∃ transition ∈ history, ∃ context, context.runId = task.runId ∧
    transition.before.tables.Observed transition.before.platform.store context task
      record.verificationToolName record.actionToolCallId record.verificationToolCallId since
      finishedAt
  action : ∀ callId, record.actionToolCallId = some callId →
    system.Finished task.runId callId since
  verification : system.Finished task.runId record.verificationToolCallId finishedAt

variable {platform : TaskPlatform} {history : List (Transition TaskSystem TaskLabel)}
  {system next : TaskSystem} {taskId : Uuid} {task : RunTask} {record : RunTaskEvidence}

theorem Finished.extends {runId callId : Uuid} {time : Instant}
    (finished : system.Finished runId callId time) (extends_ : Extends system next) :
    next.Finished runId callId time := by
  obtain ⟨call, found, ofRun, succeeded, at_⟩ := finished
  obtain ⟨kept, same⟩ := extends_.calls callId call found (by simp [succeeded, CallStatus.isOpen])
  exact ⟨call, kept, ofRun, succeeded, same.trans at_⟩

/-- What a follow-up rests on stays. -/
theorem Evidenced.kept {since finishedAt : Instant} {transition : Transition TaskSystem TaskLabel}
    (evidenced : Evidenced history system taskId task record since finishedAt)
    (extends_ : Extends system next) :
    Evidenced (history ++ [transition]) next taskId task record since finishedAt where
  ofTask := evidenced.ofTask
  satisfied := evidenced.satisfied
  ordered := evidenced.ordered
  observed := by
    obtain ⟨earlier, member, facts⟩ := evidenced.observed
    exact ⟨earlier, List.mem_append_left _ member, facts⟩
  action callId named := (evidenced.action callId named).extends extends_
  verification := evidenced.verification.extends extends_

/-- A step in which a task tool answered an attempt. -/
def Answered (platform : TaskPlatform) (transition : Transition TaskSystem TaskLabel)
    (remoteName : String) (context : ExecutionContext) (arguments : Json)
    (outcome : TaskOutcome) : Prop :=
  ∃ workerId newId clock now session execution,
    transition.label = .callTask workerId newId clock now ∧
    transition.before.platform.sessions.find? workerId = some session ∧
    session.stage.dispatched? = some execution ∧ session.context = context ∧
    execution.remoteName = remoteName ∧ execution.arguments = arguments ∧
    transition.before.callTask platform session execution newId clock now =
      .ok (transition.after.tables, outcome)

end TaskSystem

/-- Two requests for a follow-up have one key and one content. -/
structure FollowUpRequest.Same (first second : FollowUpRequest) : Prop where
  title : second.title = first.title
  description : second.description = first.description
  action : second.actionTool = first.actionTool
  key : second.idempotencyKey = first.idempotencyKey
  dependencies : second.dependencies.Perm first.dependencies

/-- One content is recorded by one document. -/
theorem FollowUpRequest.Same.document {first second : FollowUpRequest}
    (same : first.Same second) : second.document = first.document := by
  have ordered : orderBy id second.dependencies = orderBy id first.dependencies := by
    refine orderBy_eq_of_perm ?_ same.dependencies
    intro left _ right _ equal
    exact equal
  rw [FollowUpRequest.document, FollowUpRequest.document, same.title, same.description, same.action,
    ordered]

namespace TaskSystem

variable {context again : ExecutionContext} {arguments repeated : Json} {outcome : TaskOutcome}
  {transition : Transition TaskSystem TaskLabel} {clock : Instant} {run : AgentRun}
  {platform : TaskPlatform} {history : List (Transition TaskSystem TaskLabel)}
  {system : TaskSystem}

/-- The task an attempt was given for a follow-up is stored under the follow-up's key. -/
theorem Answered.created
    (answered : Answered platform transition "child.create" context arguments outcome) :
    ∃ request hash task, platform.followUp arguments = .ok request ∧
      requestHash platform.runtime request.document = .ok hash ∧
      transition.after.tables.runTasks.find? outcome.taskId = some task ∧
      task.runId = context.runId ∧ task.idempotencyKey = request.idempotencyKey ∧
      task.requestHash = hash := by
  obtain ⟨workerId, newId, clock, now, session, execution, _, _, _, rfl, named, rfl, called⟩ :=
    answered
  simp only [callTask, TaskTables.callToolForContext, named, if_true, bind_eq_ok, raiseIf_eq_ok,
    exists_and_left, exists_const] at called
  obtain ⟨_, _, created⟩ := called
  obtain ⟨request, hash, parsed, hashed, _, stored | ⟨task, planned, is⟩⟩ :=
    TaskTables.createFollowUp_eq_ok created
  · obtain ⟨existingId, existing, same, is, found, sameHash⟩ := stored
    obtain ⟨present, meets⟩ := Table.of_first? found
    simp only [Bool.and_eq_true, decide_eq_true_eq] at meets
    refine ⟨request, hash, existing, parsed, hashed, ?_, meets.1, meets.2, sameHash⟩
    rw [same, is]
    exact present
  · refine ⟨request, hash, task, parsed, hashed, ?_, planned.ofRun, planned.key, planned.hash⟩
    rw [planned.runTasks, is]
    exact Table.find?_put _ _ _

/-- The evidence an attempt was answered from, and the task it ended. -/
theorem Answered.verified (sound : Sound transition.after)
    (answered : Answered platform transition "task.verify" context arguments outcome) :
    ∃ request evidenceId record task, platform.verification arguments = .ok request ∧
      transition.after.tables.evidence.find? evidenceId = some record ∧
      record.runId = context.runId ∧ record.idempotencyKey = request.idempotencyKey ∧
      record.taskId = request.taskId ∧ record.satisfied = request.satisfied ∧
      transition.after.tables.runTasks.find? request.taskId = some task ∧
      task.status.isTerminal = true ∧
      task.outcome request.taskId = { outcome with evidenceId := none } := by
  obtain ⟨workerId, newId, clock, now, session, execution, _, _, _, rfl, named, rfl, called⟩ :=
    answered
  simp only [callTask, TaskTables.callToolForContext, named, if_true, bind_eq_ok, raiseIf_eq_ok,
    exists_and_left, exists_const] at called
  obtain ⟨_, _, called⟩ := called
  have verified : transition.before.tables.verify platform transition.before.platform.store
      session.context execution.arguments newId clock now =
        .ok (transition.after.tables, outcome) := by simpa using called
  obtain ⟨request, parsed, _, stored | ⟨task, record, facts, is⟩⟩ :=
    TaskTables.verify_eq_ok verified
  · obtain ⟨evidenceId, record, task, same, is, found, sameTask, sameResult, present⟩ := stored
    rw [← same] at found present
    obtain ⟨recorded, meets⟩ := Table.of_first? found
    simp only [Bool.and_eq_true, decide_eq_true_eq] at meets
    obtain ⟨row, rowFound, _, _, status⟩ := sound.evidence _ _ recorded
    rw [sameTask, present] at rowFound
    cases rowFound
    refine ⟨request, evidenceId, record, task, parsed, recorded, meets.1, meets.2, sameTask,
      sameResult, present, ?_, ?_⟩
    · rw [status]
      cases record.satisfied <;> rfl
    · rw [is]
      rfl
  · refine ⟨request, newId, record, task.ended request.satisfied now, parsed, ?_,
      facts.recordRun, facts.recordKey, facts.recordTask, facts.recordSatisfied, ?_, ?_, ?_⟩
    · rw [facts.evidence, Table.find?_put]
    · rw [facts.runTasks]
      exact Table.find?_put _ _ _
    · cases satisfied : request.satisfied <;> rfl
    · rw [is]
      rfl

/-- An attempt calls a tool, with what the task server does of it, and the call succeeds. -/
def exampleCall (key name : String) (arguments : List (String × Json)) (callId : Uuid)
    (answered : List TaskLabel) (now : Instant) : List TaskLabel :=
  [.platform (.act "worker" (.prepareCall (py key) (py name)
      (.object (arguments.map fun entry => (py entry.1, entry.2))) callId 9 now now)) now,
    .platform (.act "worker" (.markRunning now)) now] ++ answered ++
  [.platform (.act "worker" (.settle (.result (.object [])) now)) now]

end TaskSystem

end Nexora.Run
