import Nexora.Run.Coupling

/-!
# The database guards never fire

While the board is coupled, no operation asks a status trigger for a transition it rejects, or
for a second approval of one call: whatever error it raises is another one.
-/

namespace Nexora.Run

open Nexora.Std Nexora.Workspace Nexora.Tools Json Board

/-- The exception of a status trigger, or of the index on the approval of a call. -/
def Raised.isGuard : Raised → Prop
  | .trigger | .duplicateApproval => True
  | _ => False

/-- No guard of the database stops the transaction. -/
abbrev Admitted {α : Type} (transaction : Except Raised α) : Prop :=
  Spares Raised.isGuard transaction

variable {run : AgentRun} {runId callId approvalId : Uuid}

section Statements

variable {α : Type} {store : Store} {change : AgentRun → AgentRun}

theorem ofRequest_admitted (check : Except Failure α) : Admitted (ofRequest check) :=
  .mapError fun _ => id

theorem ofContract_admitted (check : Except PyError α) : Admitted (ofContract check) :=
  .mapError fun _ => id

theorem storeJson_admitted (platform : Platform) (value : Json) :
    Admitted (storeJson platform value) :=
  .bind (.raiseIf fun guard _ => guard) fun _ _ => .pure _

theorem updateRun_admitted
    (admits : ∀ run, store.agentRuns.find? runId = some run →
      run.status.mayBecome (change run).status = true) :
    Admitted (store.updateRun runId change) := by
  refine .bind (.raiseIf fun _ => ?_) fun _ _ => .pure _
  rintro ⟨run, found, refused⟩
  rw [admits run found] at refused
  cases refused

theorem updateCall_admitted {change : ToolCall → ToolCall}
    (admits : ∀ call, store.toolCalls.find? callId = some call →
      call.status.mayBecome (change call).status = true) :
    Admitted (store.updateCall callId change) := by
  refine .bind (.raiseIf fun _ => ?_) fun _ _ => .pure _
  rintro ⟨call, found, refused⟩
  rw [admits call found] at refused
  cases refused

theorem updateApproval_admitted {change : ToolApproval → ToolApproval}
    (admits : ∀ approval, store.toolApprovals.find? approvalId = some approval →
      approval.status.mayBecome (change approval).status = true) :
    Admitted (store.updateApproval approvalId change) := by
  refine .bind (.raiseIf fun _ => ?_) fun _ _ => .pure _
  rintro ⟨approval, found, refused⟩
  rw [admits approval found] at refused
  cases refused

/-- A run that is executed may get any status. -/
theorem updateRunning_admitted (store : Store) (found : store.agentRuns.find? runId = some run)
    (running : run.status = .running) :
    Admitted (store.updateRun runId change) := by
  refine updateRun_admitted fun other present => ?_
  rw [found] at present
  cases present
  rw [running]
  rfl

theorem enqueue_admitted (store : Store) (jobId runId : Uuid) (run : AgentRun)
    (availableAt : Instant) : Admitted (store.enqueue jobId run runId availableAt) :=
  .bind (.orRaise id) fun _ _ => .pure _

/-- Giving up a call is a transition the trigger admits. -/
theorem closed_admitted (call : ToolCall) (errorCode : PyStr) :
    call.status.mayBecome (call.closed errorCode).status = true := by
  unfold ToolCall.closed
  cases status : call.status <;> simp [CallStatus.isOpen, CallStatus.mayBecome, status]

end Statements

namespace Store

variable {store : Store} {job : WorkerJob} {workerId : String} {now : Instant}

theorem cancelLocked_admitted (found : store.agentRuns.find? job.runId = some run)
    (status : run.status = .running ∨ run.status = .queued) :
    Admitted (store.cancelLocked job workerId now) := by
  refine .bind (updateRun_admitted fun other present => ?_) fun _ _ => .pure _
  rw [found] at present
  cases present
  rcases status with running | queued
  · rw [running]
    rfl
  · rw [queued]
    rfl

theorem claim_admitted (store : Store) (job : WorkerJob) (workerId : String) (leaseSeconds : Nat)
    (now : Instant) : Admitted (store.claim job workerId leaseSeconds now) := by
  refine .bind (.raiseIf fun guard _ => guard) fun _ _ => ?_
  split
  · exact .pure _
  rename_i run profile target
  have claimable := claimable_of_claimTarget target
  refine .ite (fun _ => .pure _) fun open_ => ?_
  refine .ite (fun _ => .pure _) fun notWaiting => ?_
  refine .ite (fun _ => .pure _) fun _ => ?_
  refine .ite (fun _ => .pure _) fun notHeld => ?_
  refine .bind (.ite (fun running => ?_) fun _ => .ok _) fun recovered recovery => ?_
  · exact updateRunning_admitted (store.supersedeReceipts job.runId false) claimable.present running
  · have free := recovered_of_recoverClaimed (by simpa using open_) notWaiting notHeld recovery
    obtain ⟨row, found, queued, _⟩ := free.row claimable.present
    refine .ite (fun _ => ?_) fun _ => ?_
    · exact .bind (cancelLocked_admitted found (.inr queued)) fun _ _ => .pure _
    · refine .bind (.bind (updateRun_admitted fun other present => ?_) fun _ _ => .pure _)
        fun _ _ => .pure _
      rw [found] at present
      cases present
      rw [queued]
      rfl

theorem waitForApproval_admitted (store : Store) (job : WorkerJob) (workerId : String)
    (toolCallId approvalId : Uuid) (now : Instant) :
    Admitted (store.waitForApproval job workerId toolCallId approvalId now) := by
  unfold waitForApproval
  split
  · exact .pure _
  rename_i run owned
  have owns := owns_of_ownedProcessing owned
  refine .ite (fun _ => ?_) fun _ => .ite (fun _ => ?_) fun _ => .pure _
  · exact .bind (cancelLocked_admitted owns.present (.inl owns.running)) fun _ _ => .pure _
  · exact .bind (updateRunning_admitted _ owns.present owns.running) fun _ _ => .pure _

theorem completeSuccess_admitted (store : Store) (job : WorkerJob) (workerId : String)
    (now : Instant) : Admitted (store.completeSuccess job workerId now) := by
  unfold completeSuccess
  split
  · exact .pure _
  rename_i run owned
  have owns := owns_of_ownedProcessing owned
  refine .ite (fun _ => ?_) fun _ => ?_
  · exact .bind (cancelLocked_admitted owns.present (.inl owns.running)) fun _ _ => .pure _
  · exact .bind (updateRunning_admitted _ owns.present owns.running) fun _ _ => .pure _

theorem completeFailure_admitted (store : Store) (job : WorkerJob) (workerId : String)
    (errorCode : PyStr) (retryable : Bool) (newJobId : Uuid) (delay now : Instant) :
    Admitted (store.completeFailure job workerId errorCode retryable newJobId delay now) := by
  refine .bind (.raiseIf fun guard _ => guard) fun _ _ => ?_
  split
  · exact .pure _
  rename_i run owned
  have owns := owns_of_ownedProcessing owned
  refine .ite (fun _ => ?_) fun _ => .ite (fun _ => ?_) fun _ => ?_
  · exact .bind (cancelLocked_admitted owns.present (.inl owns.running)) fun _ _ => .pure _
  · refine .bind (updateRunning_admitted _ owns.present owns.running) fun _ _ => ?_
    refine .bind (.raiseIf fun guard _ => guard) fun _ _ => ?_
    exact .bind (enqueue_admitted _ _ _ _ _) fun _ _ => .pure _
  · refine .bind (.raiseIf fun guard _ => guard) fun _ _ => ?_
    exact .bind (updateRunning_admitted _ owns.present owns.running) fun _ _ => .pure _

theorem finish_admitted (store : Store) (workerId : String) (session : Session) (newJobId : Uuid)
    (delay now : Instant) : Admitted (finish store workerId session newJobId delay now) := by
  unfold finish
  split
  · exact completeSuccess_admitted _ _ _ _
  · exact waitForApproval_admitted _ _ _ _ _ _
  · exact completeFailure_admitted _ _ _ _ _ _ _ _
  · exact completeFailure_admitted _ _ _ _ _ _ _ _
  · exact completeFailure_admitted _ _ _ _ _ _ _ _
  · exact completeFailure_admitted _ _ _ _ _ _ _ _
  · exact .error id

theorem recoverStale_admitted (store : Store) (limit orphanSeconds : Nat)
    (expired orphans : List (Uuid × Uuid)) (now : Instant) :
    Admitted (store.recoverStale limit orphanSeconds expired orphans now) := by
  refine .bind (.raiseIf fun guard _ => guard) fun _ _ => ?_
  refine .bind (.raiseIf fun guard _ => guard) fun _ _ => ?_
  refine .bind (.raiseIf fun guard _ => guard) fun _ _ => ?_
  refine .bind (.foldlM (fun _ => True) ?_ (fun _ _ _ _ _ => trivial) trivial) fun _ _ => ?_
  · intro state recovery _
    refine .bind (.orRaise id) fun run found => ?_
    simp only [orRaise_eq_ok, Option.filter_eq_some_iff, Bool.and_eq_true, decide_eq_true_eq]
      at found
    refine .bind ?_ fun _ _ => enqueue_admitted _ _ _ _ _
    exact updateRunning_admitted (state.supersedeReceipts recovery.1 true) found.1 found.2.1
  · refine .foldlM (fun _ => True) ?_ (fun _ _ _ _ _ => trivial) trivial
    intro state recovery _
    refine .bind (.orRaise id) fun run _ => ?_
    refine .bind (updateRun_admitted fun other _ => ?_) fun _ _ => enqueue_admitted _ _ _ _ _
    cases other.status <;> rfl

theorem cancelApproval_admitted (store : Store) (approvalId : Uuid) (approval : ToolApproval)
    (status : ApprovalStatus) (now : Instant) :
    Admitted (store.cancelApproval approvalId approval status now) := by
  refine .bind (updateApproval_admitted fun row _ => ?_) fun _ _ => ?_
  · cases standing : row.status <;> simp [ApprovalStatus.mayBecome, standing]
  refine .bind (updateCall_admitted fun call _ => closed_admitted call _) fun withdrawn _ => ?_
  split
  · exact .pure _
  rename_i run there
  obtain ⟨found, _⟩ := (runIn_eq_some _ _ _ _).mp there
  refine .ite (fun status => updateRun_admitted fun other present => ?_) fun _ => .pure _
  rw [found] at present
  cases present
  rcases status with running | waiting
  · rw [running]
    rfl
  · rw [waiting]
    rfl

theorem expireApproval_admitted (now : Instant) (store : Store) (approvalId : Uuid) :
    Admitted (expireApproval now store approvalId) :=
  .bind (.orRaise id) fun _ _ => cancelApproval_admitted _ _ _ _ _

theorem approvalStands_admitted (store : Store) (platform : Platform) (approval : ToolApproval)
    (call : ToolCall) (tool : ToolDefinition) :
    Admitted (store.approvalStands platform approval call tool) := by
  refine .bind (ofContract_admitted _) fun _ _ => ?_
  refine .ite (fun _ => .pure _) fun _ => .ite (fun _ => .pure _) fun _ => ?_
  split
  · exact .pure _
  · exact .error id
  · exact .pure _

theorem decideApproval_admitted (coupled : Coupled store.board) (platform : Platform)
    (principal : Principal) (workspaceId approvalId : Uuid) (decision : Decision) (jobId : Uuid)
    (now : Instant) :
    Admitted (store.decideApproval platform principal workspaceId approvalId decision jobId now) := by
  refine .bind (ofRequest_admitted _) fun _ _ => .bind (.orRaise id) fun approval found => ?_
  rw [orRaise_eq_ok, Option.filter_eq_some_iff] at found
  refine .bind (.orRaise id) fun call callFound => .bind (.orRaise id) fun tool _ => ?_
  rw [orRaise_eq_ok] at callFound
  refine .ite (fun _ => .pure _) fun pending => ?_
  rw [ne_eq, not_not] at pending
  refine .ite (fun _ => cancelApproval_admitted _ _ _ _ _) fun _ => ?_
  refine .bind (.orRaise id) fun run runFound => ?_
  simp only [orRaise_eq_ok, Option.filter_eq_some_iff, runIn_eq_some, decide_eq_true_eq] at runFound
  obtain ⟨⟨runPresent, _⟩, waiting⟩ := runFound
  -- The call of a pending approval asks for it, and may be approved or denied.
  have asks : call.status = .pendingApproval := by
    obtain ⟨row, rowFound, _, allows⟩ := coupled.call approvalId approval found.1
    have rows := rowFound.symm.trans callFound
    cases rows
    rw [pending] at allows
    exact of_decide_eq_true allows
  have decides (status : ApprovalStatus) :
      Admitted (store.setApproval approvalId status (some principal)) := by
    refine updateApproval_admitted fun other present => ?_
    rw [found.1] at present
    cases present
    rw [pending]
    rfl
  have answers {decided : Store} {status : CallStatus} {answer : ApprovalStatus}
      (done : store.setApproval approvalId answer (some principal) = .ok decided)
      (admits : CallStatus.mayBecome .pendingApproval status = true) :
      Admitted (decided.updateCall approval.toolCallId fun call =>
        { call with status := status }) := by
    rw [setApproval, updateApproval_eq_ok] at done
    obtain ⟨_, rfl⟩ := done
    refine updateCall_admitted fun other present => ?_
    have rows := callFound.symm.trans present
    cases rows
    rw [asks]
    exact admits
  have leaves {decided answered : Store} {change : ToolCall → ToolCall} {status : RunStatus}
      {answer : ApprovalStatus}
      (done : store.setApproval approvalId answer (some principal) = .ok decided)
      (updated : decided.updateCall approval.toolCallId change = .ok answered)
      (admits : RunStatus.mayBecome .waitingForApproval status = true) :
      Admitted (answered.leaveRun approval.runId status now) := by
    rw [setApproval, updateApproval_eq_ok] at done
    obtain ⟨_, rfl⟩ := done
    rw [updateCall_eq_ok] at updated
    obtain ⟨_, rfl⟩ := updated
    refine updateRun_admitted fun other present => ?_
    have rows := runPresent.symm.trans present
    cases rows
    rw [waiting]
    exact admits
  cases decision with
  | rejected =>
    refine .bind (decides .rejected) fun decided done => ?_
    exact .bind (answers done rfl) fun answered updated => leaves done updated rfl
  | approved =>
    refine .bind (approvalStands_admitted _ _ _ _ _) fun stands _ => ?_
    refine .ite (fun _ => ?_) fun _ => cancelApproval_admitted _ _ _ _ _
    refine .bind (decides .approved) fun decided done => ?_
    refine .bind (answers done rfl) fun answered updated => ?_
    exact .bind (leaves done updated rfl) fun _ _ => enqueue_admitted _ _ _ _ _

theorem requestRun_admitted (store : Store) (principal : Principal) (workspaceId : Uuid)
    (target : AgentTarget) (inputText : PyStr) (idempotencyKey : String)
    (runId traceId jobId : Uuid) (now : Instant) :
    Admitted (store.requestRun principal workspaceId target inputText idempotencyKey runId traceId
      jobId now) := by
  unfold requestRun
  split
  · exact .bind (.raiseIf fun guard _ => guard) fun _ _ => .pure _
  · exact .bind (.orRaise id) fun _ _ => enqueue_admitted _ _ _ _ _

theorem cancelRun_admitted (store : Store) (principal : Principal) (workspaceId runId : Uuid)
    (now : Instant) : Admitted (store.cancelRun principal workspaceId runId now) := by
  refine .bind (ofRequest_admitted _) fun _ _ => .bind (.orRaise id) fun run found => ?_
  rw [orRaise_eq_ok, runIn_eq_some] at found
  refine .bind (.raiseIf fun guard _ => guard) fun _ _ => ?_
  refine .ite (fun _ => .pure _) fun open_ => .ite (fun running => ?_) fun _ => ?_
  · exact updateRunning_admitted (store.withdrawCalls runId) found.1 running
  · refine updateRun_admitted fun other present => ?_
    have rows := found.1.symm.trans present
    cases rows
    cases status : run.status <;> simp_all [RunStatus.isTerminal, RunStatus.mayBecome]

end Store

theorem Request.run_admitted {store : Store} (coupled : Coupled store.board) (platform : Platform)
    (request : Request) : Admitted (request.run platform store) := by
  cases request with
  | setMember => exact .bind (ofRequest_admitted _) fun _ _ => .pure _
  | upsertTool principal workspaceId name body toolId =>
    refine .bind (ofContract_admitted _) fun _ _ => .bind (ofContract_admitted _) fun _ _ => ?_
    refine .bind (ofRequest_admitted _) fun _ _ => .bind (storeJson_admitted _ _) fun _ _ => ?_
    refine .bind ?_ fun _ _ => ?_
    · cases body.outputSchema with
      | none => exact .pure _
      | some schema => exact .bind (storeJson_admitted _ _) fun _ _ => .pure _
    · split
      · exact .pure _
      · exact .bind (.orRaise id) fun _ _ => .pure _
  | setPolicy =>
    refine .bind (ofRequest_admitted _) fun _ _ => .bind (.orRaise id) fun _ _ => .pure _
  | createRun =>
    refine .bind (ofRequest_admitted _) fun _ _ => ?_
    refine .bind (.raiseIf fun guard _ => guard) fun _ _ => ?_
    apply Store.requestRun_admitted
  | createStandardRun =>
    refine .bind (ofRequest_admitted _) fun _ _ => ?_
    apply Store.requestRun_admitted
  | cancelRun => apply Store.cancelRun_admitted
  | decideApproval => apply Store.decideApproval_admitted coupled
  | listApprovals =>
    refine .bind (ofRequest_admitted _) fun _ _ => .bind (.raiseIf fun guard _ => guard) fun _ _ => ?_
    exact .foldlM (fun _ => True) (fun _ _ _ => Store.expireApproval_admitted _ _ _)
      (fun _ _ _ _ _ => trivial) trivial
  | expireDue =>
    refine .bind (.raiseIf fun guard _ => guard) fun _ _ => ?_
    refine .bind (.raiseIf fun guard _ => guard) fun _ _ => ?_
    exact .foldlM (fun _ => True) (fun _ _ _ => Store.expireApproval_admitted _ _ _)
      (fun _ _ _ _ _ => trivial) trivial
  | recoverStale => apply Store.recoverStale_admitted
  | publish => exact .bind (.orRaise id) fun _ _ => .pure _

namespace Store

variable {store : Store} (platform : Platform) (context : ExecutionContext)

theorem executableRun_admitted (store : Store) (context : ExecutionContext) (clock : Instant) :
    Admitted (store.executableRun context clock) := by
  refine .bind (.orRaise id) fun _ _ => ?_
  split
  · exact .pure _
  · exact .error id

theorem insertCall_admitted (store : Store) (platform : Platform) (callId : Uuid)
    (call : ToolCall) : Admitted (store.insertCall platform callId call) :=
  .bind (storeJson_admitted _ _) fun _ _ => .bind (.orRaise id) fun _ _ => .pure _

/-- A call without an approval, planned or just inserted, may be asked about. -/
theorem createApproval_admitted {tool : ToolDefinition} {arguments : Json} {argumentsHash : Nat}
    {reason : PyStr} {now : Instant} (unasked : store.approvalForCall callId = none)
    (status : ∀ call, store.toolCalls.find? callId = some call →
      call.status = .planned ∨ call.status = .pendingApproval) :
    Admitted (store.createApproval platform run runId callId tool arguments argumentsHash reason
      approvalId now) := by
  refine .bind (.orRaise id) fun call found => ?_
  refine .bind (updateCall_admitted fun other present => ?_) fun asked updated => ?_
  · rcases status other present with planned | pending
    · rw [planned]
      rfl
    · rw [pending]
      rfl
  rw [updateCall_eq_ok] at updated
  obtain ⟨_, rfl⟩ := updated
  refine .bind (storeJson_admitted _ _) fun _ _ => ?_
  refine .bind (.raiseIf fun _ => ?_) fun _ _ => .bind (.orRaise id) fun _ _ => .pure _
  intro asked
  have same : store.approvalForCall callId ≠ none := Option.isSome_iff_ne_none.mp asked
  exact same unasked

theorem contractChanged_admitted (store : Store) (callId : Uuid) (tool : ToolDefinition) :
    Admitted (store.contractChanged callId tool) := by
  refine .bind ?_ fun _ _ => ?_
  · unfold withdrawApproval
    split
    · rename_i approvalId approval first
      refine .ite (fun pending => updateApproval_admitted fun other present => ?_) fun _ => .ok _
      rw [(Table.of_first? first).1] at present
      cases present
      rw [pending]
      rfl
    · exact .ok _
  · exact .bind (updateCall_admitted fun call _ => closed_admitted call _) fun _ _ => .pure _

theorem prepareExisting_admitted (coupled : Coupled store.board) {existingId : Uuid}
    {existing : ToolCall} (found : store.toolCalls.find? existingId = some existing)
    (run : AgentRun) (toolId : Uuid) (tool : ToolDefinition) (arguments : Json)
    (argumentsHash contractHash : Nat) (effective : PolicyDecision) (reason : PyStr)
    (approvalId : Uuid) (now : Instant) :
    Admitted (store.prepareExisting platform run existingId existing toolId tool arguments
      argumentsHash contractHash effective reason approvalId now) := by
  refine .ite (fun _ => .error id) fun _ => .ite (fun _ => .ok _) fun _ => ?_
  refine .ite (fun _ => contractChanged_admitted _ _ _) fun _ => .ite (fun _ => .ok _) fun open_ => ?_
  dsimp only
  split
  · exact .ok _
  refine .ite (fun _ => ?_) fun _ => .ite (fun _ => .ite (fun _ => .ok _) fun planned => ?_)
    fun _ => .ok _
  · refine .bind (updateCall_admitted fun call present => ?_) fun _ _ => .pure _
    rw [found] at present
    cases present
    cases status : existing.status <;> simp_all [CallStatus.isOpen, CallStatus.mayBecome]
  · rw [ne_eq, not_not] at planned
    apply createApproval_admitted
    · -- A call with an approval is not planned any more.
      refine (Table.first?_eq_none _ _).mpr fun otherId approval present => ?_
      by_contra same
      have ofCall : approval.toolCallId = existingId := by simpa using same
      obtain ⟨call, callFound, _, allows⟩ := coupled.call otherId approval present
      rw [ofCall] at callFound
      have rows := callFound.symm.trans found
      cases rows
      rw [planned] at allows
      cases standing : approval.status <;> simp_all [ApprovalStatus.allows]
    · intro call present
      rw [found] at present
      cases present
      exact .inl planned

theorem prepareNew_admitted (coupled : Coupled store.board) (run : AgentRun) (call : CallRequest)
    (tool : ToolDefinition) (effective : PolicyDecision) (reason : PyStr)
    (callId approvalId : Uuid) (now : Instant) :
    Admitted (store.prepareNew platform run call tool effective reason callId approvalId now) := by
  cases effective with
  | deny => exact .bind (insertCall_admitted _ _ _ _) fun _ _ => .pure _
  | allow => exact .bind (insertCall_admitted _ _ _ _) fun _ _ => .pure _
  | requireApproval =>
    refine .bind (insertCall_admitted _ _ _ _) fun planned inserted => ?_
    obtain ⟨absent, written, _, approvals⟩ := insertCall_written inserted
    apply createApproval_admitted
    · -- An approval is of a call that is there, and this one has just been inserted.
      refine (Table.first?_eq_none _ _).mpr fun otherId approval present => ?_
      by_contra same
      have ofCall : approval.toolCallId = callId := by simpa using same
      rw [approvals] at present
      obtain ⟨other, found, _⟩ := coupled.call otherId approval present
      rw [ofCall] at found
      have rows := absent.symm.trans found
      cases rows
    · intro row present
      rw [written.self] at present
      cases present
      exact .inr rfl

theorem prepareCall_admitted (coupled : Coupled store.board) (callKey toolName : PyStr)
    (arguments : Json) (callId approvalId : Uuid) (clock now : Instant) :
    Admitted (store.prepareCall platform context callKey toolName arguments callId approvalId clock
      now) := by
  refine .bind (.raiseIf fun guard _ => guard) fun _ _ => ?_
  refine .bind (executableRun_admitted _ _ _) fun run _ => .ite (fun _ => ?_) fun _ => ?_
  · refine .bind (.orRaise id) fun _ _ => .bind (ofContract_admitted _) fun _ _ => ?_
    refine .bind (ofContract_admitted _) fun _ _ => ?_
    split
    · exact .pure _
    · exact .bind (insertCall_admitted _ _ _ _) fun _ _ => .pure _
  · refine .bind (.orRaise id) fun _ _ => .bind (ofContract_admitted _) fun _ _ => ?_
    refine .bind (ofContract_admitted _) fun _ _ => ?_
    dsimp only
    cases keyed : store.callKeyed context.runId callKey with
    | some entry =>
      have found := (Table.of_first? keyed).1
      exact prepareExisting_admitted platform coupled found _ _ _ _ _ _ _ _ _ _
    | none => exact prepareNew_admitted platform coupled _ _ _ _ _ _ _ _

theorem markRunning_admitted (store : Store) (callId : Uuid) (clock : Instant) :
    Admitted (store.markRunning platform callId context clock) := by
  refine .bind (executableRun_admitted _ _ _) fun _ _ => .bind (.orRaise id) fun call found => ?_
  rw [orRaise_eq_ok, Option.filter_eq_some_iff] at found
  refine .bind (.orRaise id) fun _ _ => .bind (.orRaise id) fun _ _ => ?_
  refine .bind (.raiseIf fun guard _ => guard) fun _ _ => .bind ?_ fun _ checked => ?_
  · refine .bind (.raiseIf fun guard _ => guard) fun _ _ => .bind (ofContract_admitted _) fun _ _ => ?_
    refine .bind (.raiseIf fun guard _ => guard) fun _ _ => ?_
    refine .bind (.raiseIf fun guard _ => guard) fun _ _ => .bind (ofContract_admitted _) fun _ _ => ?_
    exact .bind (.raiseIf fun guard _ => guard) fun _ _ => .raiseIf fun guard _ => guard
  · have status := (checkExecutable_eq_ok checked).2.2.2.2.2
    refine .bind (updateCall_admitted fun other present => ?_) fun _ _ => .pure _
    rw [found.1] at present
    cases present
    cases standing : call.status <;> simp_all [CallStatus.mayBecome]

theorem completeCallSuccess_admitted (store : Store) (callId : Uuid) (result : Json)
    (clock : Instant) :
    Admitted (store.completeCallSuccess platform callId result context clock) := by
  refine .bind (executableRun_admitted _ _ _) fun _ _ => ?_
  split
  · exact .pure _
  rename_i row tool joined
  refine .bind (ofContract_admitted _) fun _ _ => .bind (storeJson_admitted _ _) fun _ _ => ?_
  refine .bind (updateCall_admitted fun call present => ?_) fun _ _ => .pure _
  obtain ⟨other, running, _⟩ := Option.bind_eq_some_iff.mp joined
  obtain ⟨found, status, _⟩ := runningCall_eq_some.mp running
  rw [found] at present
  cases present
  rw [status]
  rfl

theorem completeCallFailure_admitted (store : Store) (callId : Uuid) (errorCode : PyStr)
    (retryable : Bool) (clock : Instant) :
    Admitted (store.completeCallFailure callId errorCode retryable context clock) := by
  refine .bind (.raiseIf fun guard _ => guard) fun _ _ => ?_
  refine .bind (executableRun_admitted _ _ _) fun _ _ => ?_
  split
  · exact .pure _
  rename_i row running
  refine .bind (.raiseIf fun guard _ => guard) fun _ _ => ?_
  refine .bind (updateCall_admitted fun call present => ?_) fun _ _ => .pure _
  obtain ⟨found, status, _⟩ := runningCall_eq_some.mp running
  rw [found] at present
  cases present
  rw [status]
  dsimp only
  split
  · split <;> rfl
  · rfl

end Store

/-- In every reachable state the statuses of calls, approvals and runs agree, and no
operation is stopped by a status trigger or by a second approval of one call. -/
theorem statuses_stay_coupled {platform : Platform} {history : List (Transition System Label)}
    {system : System} (runs : (machine platform).Runs history system) :
    Coupled system.store.board ∧
    (∀ request : Request, Admitted (request.run platform system.store)) ∧
    (∀ job workerId leaseSeconds now,
      Admitted (system.store.claim job workerId leaseSeconds now)) ∧
    (∀ workerId session newJobId delay now,
      Admitted (finish system.store workerId session newJobId delay now)) ∧
    ∀ context clock,
      (∀ callKey toolName arguments callId approvalId now,
        Admitted (system.store.prepareCall platform context callKey toolName arguments callId
          approvalId clock now)) ∧
      (∀ callId, Admitted (system.store.markRunning platform callId context clock)) ∧
      (∀ callId result,
        Admitted (system.store.completeCallSuccess platform callId result context clock)) ∧
      ∀ callId errorCode retryable,
        Admitted (system.store.completeCallFailure callId errorCode retryable context clock) := by
  have coupled := coupled_of_runs runs
  refine ⟨coupled, ?_, ?_, ?_, ?_⟩
  · intro request
    exact request.run_admitted coupled platform
  · intro job workerId leaseSeconds now
    exact Store.claim_admitted _ _ _ _ _
  · intro workerId session newJobId delay now
    exact Store.finish_admitted _ _ _ _ _ _
  · intro context clock
    refine ⟨?_, ?_, ?_, ?_⟩
    · intro callKey toolName arguments callId approvalId now
      exact Store.prepareCall_admitted platform context coupled _ _ _ _ _ _ _
    · intro callId
      exact Store.markRunning_admitted platform context _ _ _
    · intro callId result
      exact Store.completeCallSuccess_admitted platform context _ _ _ _
    · intro callId errorCode retryable
      exact Store.completeCallFailure_admitted context _ _ _ _ _

/-- A call asks for an approval, which parks its run until it is given. -/
def approvedCall : List Label :=
  [exampleUpsertTool, exampleSetPolicy .requireApproval, exampleCreateRun,
    .claim "worker" (exampleJob 5) 30 0, .act "worker" (examplePrepareCall 1),
    .finish "worker" 9 0 2, .request (.decideApproval exampleOwner 1 8 .approved 10 3)]

theorem statuses_stay_coupled_approved : ∃ history system call,
    (machine examplePlatform).Runs history system ∧
      system.store.toolCalls.find? 7 = some call ∧ call.status = .approved ∧
      Coupled system.store.board ∧
      Admitted (system.store.claim (exampleJob 10) "worker" 30 4) := by
  obtain ⟨history, system, runs, checked⟩ := Machine.exists_run_of_trace Opening
    (System.run examplePlatform) approvedCall exampleOpening
    (fun _ system => (system.store.toolCalls.find? 7).any fun call => call.status = .approved)
    (opening_openingWith _ _) (by decide +kernel)
  obtain ⟨call, found, status⟩ := (Option.any_eq_true _ _).mp checked
  obtain ⟨coupled, _, claims, _⟩ := statuses_stay_coupled runs
  exact ⟨history, system, call, runs, found, of_decide_eq_true status, coupled, claims _ _ _ _⟩

end Nexora.Run
