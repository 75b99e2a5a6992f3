import Nexora.Run.Standing

/-!
# What an attempt writes

An attempt's transactions write two groups of tables: calls and approvals, or the journal
and the ledger. None of them touches a run, a receipt or a job, and every one that passes
the fence has checked that the attempt holds its run.
-/

namespace Nexora.Run

open Nexora.Std Nexora.Workspace Nexora.Tools Json

variable {callId : Uuid} {workerId : String} {session : Session} {execution : ToolExecution}
  {retryable : Bool} {action : Action} {stage after : Stage}

namespace Store

/-- At most calls and approvals differ. -/
def OnlyCalls (before after : Store) : Prop :=
  ∃ toolCalls toolApprovals,
    after = { before with toolCalls := toolCalls, toolApprovals := toolApprovals }

/-- At most the journal, the answer cache and the ledger differ. -/
def OnlyJournal (before after : Store) : Prop :=
  ∃ modelSteps retrievals answerCache ledger,
    after = { before with
      modelSteps := modelSteps, retrievals := retrievals, answerCache := answerCache
      ledger := ledger }

theorem OnlyCalls.refl (store : Store) : OnlyCalls store store := ⟨_, _, rfl⟩

variable {first second third : Store}

theorem OnlyCalls.trans (early : OnlyCalls first second) (late : OnlyCalls second third) :
    OnlyCalls first third := by
  obtain ⟨_, _, rfl⟩ := early
  obtain ⟨_, _, rfl⟩ := late
  exact ⟨_, _, rfl⟩

theorem OnlyJournal.refl (store : Store) : OnlyJournal store store := ⟨_, _, _, _, rfl⟩

variable {store next : Store} {platform : Platform} {context : ExecutionContext}
  {clock now : Instant} {plan : ToolCallPlan} {tool : ToolDefinition} {arguments : Json}
  {run : AgentRun} {call : ToolCall} {reason callKey toolName : PyStr} {approvalId : Uuid}
  {argumentsHash stepNo : Nat} {effective : PolicyDecision} {completed : Bool}

/-- What `executable_run` has checked when it returns a run. -/
structure Holds (store : Store) (context : ExecutionContext) (clock : Instant) (run : AgentRun) :
    Prop where
  present : store.agentRuns.find? context.runId = some run
  workspace : run.workspaceId = context.workspaceId
  running : run.status = .running
  notCancelled : run.cancelRequestedAt = none
  attempt : run.attemptCount = context.attemptCount
  agent : run.target.agentId = context.agentId ∧ run.target.kind = context.agentKind ∧
    run.traceId = context.traceId
  leased : ∃ lease receipt, run.lease = some lease ∧ clock < lease.expiresAt ∧
    store.receipts.find? context.jobId = some receipt ∧
    receipt.processes context.runId lease.owner ∧ receipt.live clock = true

/-- The fence lets a context pass exactly when it holds its run and the requester may run
agents. -/
theorem executableRun_eq_ok (run : AgentRun) :
    store.executableRun context clock = .ok run ↔
      store.agentRuns.find? context.runId = some run ∧ run.workspaceId = context.workspaceId ∧
      store.holdsRun context run clock = true ∧
      scopedMember store.memberships run.requestedBy context.workspaceId .runAgents = .ok () := by
  simp only [executableRun, bind_eq_ok, orRaise_eq_ok, Option.filter_eq_some_iff, runIn_eq_some]
  constructor
  · rintro ⟨held, ⟨⟨present, workspace⟩, holds⟩, passed⟩
    split at passed
    case h_1 member =>
      cases passed
      exact ⟨present, workspace, holds, member⟩
    case h_2 => cases passed
  · rintro ⟨present, workspace, holds, member⟩
    exact ⟨run, ⟨⟨present, workspace⟩, holds⟩, by rw [member]; rfl⟩

theorem holds_of_executableRun (ok : store.executableRun context clock = .ok run) :
    store.Holds context clock run := by
  obtain ⟨present, workspace, holds, _⟩ := (executableRun_eq_ok run).mp ok
  simp only [holdsRun, AgentRun.live, Bool.and_eq_true, decide_eq_true_eq, Option.any_eq_true,
    Option.isNone_iff_eq_none] at holds
  obtain ⟨⟨⟨⟨⟨⟨⟨running, lease, leased, alive⟩, notCancelled⟩, attempt⟩, agent⟩, kind⟩, trace⟩,
    receipt, found, ⟨⟨⟨_, runId⟩, processing⟩, holder, held, owner⟩, receiptAlive⟩ := holds
  rw [leased] at held
  cases held
  exact ⟨present, workspace, running, notCancelled, attempt, ⟨agent, kind, trace⟩, lease, receipt,
    leased, alive, found, ⟨runId, processing, owner⟩, receiptAlive⟩

theorem updateCall_onlyCalls {change : ToolCall → ToolCall}
    (ok : store.updateCall callId change = .ok next) : OnlyCalls store next := by
  rw [updateCall_eq_ok] at ok
  exact ⟨_, _, ok.2⟩

theorem insertCall_onlyCalls (ok : store.insertCall platform callId call = .ok next) :
    OnlyCalls store next := by
  simp only [insertCall, bind_eq_ok, pure_eq_ok] at ok
  obtain ⟨_, _, _, _, rfl⟩ := ok
  exact ⟨_, _, rfl⟩

theorem createApproval_onlyCalls {runId : Uuid}
    (ok : store.createApproval platform run runId callId tool arguments argumentsHash reason
      approvalId now = .ok (next, plan)) : OnlyCalls store next := by
  simp only [createApproval, bind_eq_ok, updateCall_eq_ok, pure_eq_ok, Prod.mk.injEq] at ok
  obtain ⟨_, _, _, ⟨_, rfl⟩, _, _, _, _, _, _, rfl, _⟩ := ok
  exact ⟨_, _, rfl⟩

theorem contractChanged_onlyCalls (ok : store.contractChanged callId tool = .ok (next, plan)) :
    OnlyCalls store next := by
  simp only [contractChanged, bind_eq_ok, pure_eq_ok, Prod.mk.injEq] at ok
  obtain ⟨_, withdrawn, _, updated, rfl, _⟩ := ok
  refine OnlyCalls.trans ?_ (updateCall_onlyCalls updated)
  unfold withdrawApproval at withdrawn
  split at withdrawn
  · split at withdrawn
    · rw [setApproval, updateApproval_eq_ok] at withdrawn
      exact ⟨_, _, withdrawn.2⟩
    · cases withdrawn
      exact .refl store
  · cases withdrawn
    exact .refl store

theorem prepareExisting_onlyCalls {existingId toolId : Uuid} {existing : ToolCall}
    {contractHash : Nat}
    (ok : store.prepareExisting platform run existingId existing toolId tool arguments argumentsHash
      contractHash effective reason approvalId now = .ok (next, plan)) : OnlyCalls store next := by
  unfold prepareExisting at ok
  split at ok
  · cases ok
  split at ok
  · cases ok
    exact .refl store
  split at ok
  · exact contractChanged_onlyCalls ok
  split at ok
  · cases ok
    exact .refl store
  dsimp only at ok
  split at ok
  · cases ok
    exact .refl store
  split at ok
  · simp only [policyDenied, bind_eq_ok, pure_eq_ok, Prod.mk.injEq] at ok
    obtain ⟨_, updated, rfl, _⟩ := ok
    exact updateCall_onlyCalls updated
  split at ok
  · split at ok
    · cases ok
      exact .refl store
    · exact createApproval_onlyCalls ok
  · cases ok
    exact .refl store

theorem prepareNew_onlyCalls {call : CallRequest}
    (ok : store.prepareNew platform run call tool effective reason callId approvalId now =
      .ok (next, plan)) : OnlyCalls store next := by
  cases effective with
  | deny =>
    simp only [prepareNew, bind_eq_ok, pure_eq_ok, Prod.mk.injEq] at ok
    obtain ⟨_, inserted, rfl, _⟩ := ok
    exact insertCall_onlyCalls inserted
  | requireApproval =>
    simp only [prepareNew, bind_eq_ok] at ok
    obtain ⟨_, inserted, ok⟩ := ok
    exact (insertCall_onlyCalls inserted).trans (createApproval_onlyCalls ok)
  | allow =>
    simp only [prepareNew, bind_eq_ok, pure_eq_ok, Prod.mk.injEq] at ok
    obtain ⟨_, inserted, rfl, _⟩ := ok
    exact insertCall_onlyCalls inserted

/-- What planning a call has read by the time it looks for the call: the fence let it pass,
and the named tool, its arguments and its contract are in order. -/
structure Plannable (store : Store) (platform : Platform) (context : ExecutionContext)
    (callKey toolName : PyStr) (arguments : Json) (clock : Instant) (run : AgentRun)
    (toolId : Uuid) (tool : ToolDefinition) (argumentsHash contractHash : Nat) : Prop where
  key : isCallKey callKey = true
  passed : store.executableRun context clock = .ok run
  named : store.toolNamed context.workspaceId toolName = some (toolId, tool)
  valid : ∃ canonical, validateArguments platform.runtime arguments tool.inputSchema =
    .ok (canonical, argumentsHash)
  hashed : tool.hash platform.runtime = .ok contractHash

/-- What the policy of a named tool comes to. -/
def effectiveFor (store : Store) (workspaceId toolId : Uuid) (tool : ToolDefinition) :
    PolicyDecision :=
  if tool.enabled then effectivePolicy (store.policyOf workspaceId toolId) tool.sideEffect
  else .deny

/-- The reason recorded with an approval of a named tool. -/
def reasonFor (store : Store) (workspaceId toolId : Uuid) : PyStr :=
  ((store.toolPolicies.find? (workspaceId, toolId)).map ToolPolicy.reason).getD
    defaultPolicyReason

/-- A plan is made for the call under the key, or for a new one. -/
theorem prepareCall_eq_ok
    (ok : store.prepareCall platform context callKey toolName arguments callId approvalId clock now =
      .ok (next, plan)) :
    ∃ run toolId tool argumentsHash contractHash,
      store.Plannable platform context callKey toolName arguments clock run toolId tool
        argumentsHash contractHash ∧
      ((∃ existingId existing, store.callKeyed context.runId callKey = some (existingId, existing) ∧
        store.prepareExisting platform run existingId existing toolId tool arguments argumentsHash
          contractHash (store.effectiveFor context.workspaceId toolId tool)
          (store.reasonFor context.workspaceId toolId) approvalId now = .ok (next, plan)) ∨
      (store.callKeyed context.runId callKey = none ∧
        store.prepareNew platform run {
          workspaceId := context.workspaceId, runId := context.runId, toolId := toolId
          callKey := callKey, arguments := arguments, argumentsHash := argumentsHash
          contractHash := contractHash } tool
          (store.effectiveFor context.workspaceId toolId tool)
          (store.reasonFor context.workspaceId toolId) callId approvalId now = .ok (next, plan))) := by
  simp only [prepareCall, bind_eq_ok, raiseIf_eq_ok, Bool.not_eq_false, exists_and_left,
    exists_const] at ok
  obtain ⟨key, run, passed, ok⟩ := ok
  have member := ((executableRun_eq_ok run).mp passed).2.2.2
  rw [if_neg (by simp [member])] at ok
  simp only [bind_eq_ok, orRaise_eq_ok, ofContract_eq_ok, Prod.exists] at ok
  obtain ⟨toolId, tool, named, canonical, argumentsHash, valid, contractHash, hashed, ok⟩ := ok
  refine ⟨run, toolId, tool, argumentsHash, contractHash,
    ⟨key, passed, named, ⟨canonical, valid⟩, hashed⟩, ?_⟩
  split at ok
  case h_1 existingId existing found => exact .inl ⟨existingId, existing, found, ok⟩
  case h_2 absent => exact .inr ⟨absent, ok⟩

theorem prepareCall_onlyCalls
    (ok : store.prepareCall platform context callKey toolName arguments callId approvalId clock now =
      .ok (next, plan)) : OnlyCalls store next := by
  obtain ⟨_, _, _, _, _, _, existing | new⟩ := prepareCall_eq_ok ok
  · obtain ⟨_, _, _, done⟩ := existing
    exact prepareExisting_onlyCalls done
  · exact prepareNew_onlyCalls new.2

/-- What `mark_running` has checked when it returns an execution. -/
structure Startable (store : Store) (platform : Platform) (callId : Uuid)
    (context : ExecutionContext) (clock : Instant) (call : ToolCall) (tool : ToolDefinition) :
    Prop where
  passed : ∃ run, store.executableRun context clock = .ok run
  present : store.toolCalls.find? callId = some call
  ofRun : call.runId = context.runId
  known : store.toolOf call = some tool
  requester : ∃ run, store.runIn call.workspaceId call.runId = some run ∧ run.status = .running ∧
    scopedMember store.memberships run.requestedBy call.workspaceId .runAgents = .ok ()
  enabled : tool.enabled = true
  contract : tool.hash platform.runtime = .ok call.contractHash
  policy : effectivePolicy (store.policyOf call.workspaceId call.toolId) tool.sideEffect ≠ .deny
  validArguments : ∃ digest, validateArguments platform.runtime call.arguments tool.inputSchema =
    .ok digest
  approval : effectivePolicy (store.policyOf call.workspaceId call.toolId) tool.sideEffect =
    .requireApproval → ∃ approvalId approval,
      store.approvalForCall callId = some (approvalId, approval) ∧
        approvalCovers call approval = true
  status : call.status ∈ [CallStatus.planned, .approved, .running]

/-- What the checks on a call, its tool and its policy have found. -/
theorem checkExecutable_eq_ok (ok : store.checkExecutable platform callId call tool = .ok ()) :
    tool.enabled = true ∧ tool.hash platform.runtime = .ok call.contractHash ∧
    effectivePolicy (store.policyOf call.workspaceId call.toolId) tool.sideEffect ≠ .deny ∧
    (∃ digest, validateArguments platform.runtime call.arguments tool.inputSchema = .ok digest) ∧
    (effectivePolicy (store.policyOf call.workspaceId call.toolId) tool.sideEffect =
      .requireApproval → ∃ approvalId approval,
        store.approvalForCall callId = some (approvalId, approval) ∧
          approvalCovers call approval = true) ∧
    call.status ∈ [CallStatus.planned, .approved, .running] := by
  simp only [checkExecutable, bind_eq_ok, raiseIf_eq_ok, ofContract_eq_ok, exists_and_left,
    exists_const, Bool.not_eq_false, not_and, not_not] at ok
  obtain ⟨enabled, hash, hashed, contract, allowed, digest, valid, approval, status⟩ := ok
  refine ⟨enabled, contract ▸ hashed, allowed, ⟨digest, valid⟩, fun required => ?_, status⟩
  obtain ⟨⟨approvalId, row⟩, found, covers⟩ := (Option.any_eq_true _ _).mp (approval required)
  exact ⟨approvalId, row, found, covers⟩

/-- The execution an adapter is handed, and the call it is recorded with as running. -/
theorem markRunning_eq_ok
    (ok : store.markRunning platform callId context clock = .ok (next, execution)) :
    ∃ call tool, store.Startable platform callId context clock call tool ∧
      execution = {
        callId := callId, serverKey := tool.serverKey, remoteName := tool.remoteName
        arguments := call.arguments, outputSchema := tool.outputSchema } ∧
      next = { store with toolCalls := store.toolCalls.modify callId fun call =>
        { call with
          status := .running, attemptCount := call.attemptCount + 1, errorCode := none } } := by
  simp only [markRunning, bind_eq_ok, orRaise_eq_ok, raiseIf_eq_ok,
    updateCall_eq_ok, pure_eq_ok, Option.filter_eq_some_iff, Prod.mk.injEq,
    exists_and_left, exists_const, Bool.and_eq_true, decide_eq_true_eq, not_not] at ok
  obtain ⟨run, passed, call, ⟨present, _, sameRun⟩, tool, known, row, ⟨found, running⟩, requester,
    _, checked, _, ⟨_, rfl⟩, written, given⟩ := ok
  obtain ⟨enabled, contract, allowed, valid, approval, status⟩ := checkExecutable_eq_ok checked
  exact ⟨call, tool, ⟨⟨run, passed⟩, present, sameRun, known, ⟨row, found, running, requester⟩,
    enabled, contract, allowed, valid, approval, status⟩, given.symm, written.symm⟩

/-- Whether an attempt may record an outcome of a call, and what the row was. -/
theorem runningCall_eq_some :
    store.runningCall callId context = some call ↔
      store.toolCalls.find? callId = some call ∧ call.status = .running ∧
        call.runId = context.runId := by
  simp [runningCall]

/-- A recorded result: nothing, or the stored result on the attempt's running call. -/
theorem completeCallSuccess_eq_ok {result : Json}
    (ok : store.completeCallSuccess platform callId result context clock = .ok (next, completed)) :
    (∃ run, store.executableRun context clock = .ok run) ∧
    ((completed = false ∧ next = store) ∨
      (completed = true ∧ (∃ call tool, store.runningCall callId context = some call ∧
        store.toolOf call = some tool ∧
        validateResult platform.runtime result tool.outputSchema = .ok ()) ∧
        storable result = true ∧
        next = { store with toolCalls := store.toolCalls.modify callId fun call =>
          { call with
            status := .succeeded, result := some (platform.jsonb result)
            errorCode := none } })) := by
  simp only [completeCallSuccess, bind_eq_ok] at ok
  obtain ⟨run, passed, ok⟩ := ok
  refine ⟨⟨run, passed⟩, ?_⟩
  split at ok
  case h_1 =>
    cases ok
    exact .inl ⟨rfl, rfl⟩
  case h_2 call tool found =>
    simp only [bind_eq_ok, ofContract_eq_ok, storeJson_eq_ok, updateCall_eq_ok, pure_eq_ok,
      Prod.mk.injEq] at ok
    obtain ⟨_, valid, _, ⟨accepted, rfl⟩, _, ⟨_, rfl⟩, rfl, rfl⟩ := ok
    obtain ⟨row, present, joined⟩ := Option.bind_eq_some_iff.mp found
    obtain ⟨other, known, same⟩ := Option.map_eq_some_iff.mp joined
    cases same
    exact .inr ⟨rfl, ⟨call, tool, present, known, valid⟩, accepted, rfl⟩

/-- The status a failed call is left with. -/
def failedStatus (store : Store) (callId : Uuid) (retryable : Bool) : CallStatus :=
  if retryable then
    (if (store.approvalForCall callId).any fun entry => entry.2.status = .approved then .approved
    else .planned)
  else .failed

/-- A recorded failure: nothing, or the code on the attempt's running call. -/
theorem completeCallFailure_eq_ok {errorCode : PyStr}
    (ok : store.completeCallFailure callId errorCode retryable context clock =
      .ok (next, completed)) :
    (errorCode ≠ [] ∧ errorCode.length ≤ 100) ∧
    (∃ run, store.executableRun context clock = .ok run) ∧
    ((completed = false ∧ next = store) ∨
      (completed = true ∧ (∃ call, store.runningCall callId context = some call) ∧
        storableText errorCode = true ∧
        next = { store with toolCalls := store.toolCalls.modify callId fun call =>
          { call with
            status := store.failedStatus callId retryable, errorCode := some errorCode } })) := by
  simp only [completeCallFailure, bind_eq_ok, raiseIf_eq_ok, not_or, not_lt, exists_and_left,
    exists_const] at ok
  obtain ⟨code, run, passed, ok⟩ := ok
  refine ⟨code, ⟨run, passed⟩, ?_⟩
  split at ok
  case h_1 =>
    cases ok
    exact .inl ⟨rfl, rfl⟩
  case h_2 call found =>
    simp only [bind_eq_ok, raiseIf_eq_ok, updateCall_eq_ok, pure_eq_ok, Prod.mk.injEq,
      exists_and_left, exists_const, Bool.not_eq_false] at ok
    obtain ⟨accepted, _, ⟨_, rfl⟩, rfl, rfl⟩ := ok
    exact .inr ⟨rfl, ⟨call, found⟩, accepted, rfl⟩

theorem recordSpend_onlyJournal (store : Store) (workspaceId : Uuid) (sourceKey : SourceKey)
    (record : SpendRecord) : OnlyJournal store (store.recordSpend workspaceId sourceKey record) := by
  unfold recordSpend
  split
  · exact .refl store
  · exact ⟨_, _, _, _, rfl⟩

theorem recordStepCost_onlyJournal (store : Store) (context : ExecutionContext) (stepNo : Nat)
    (cost : Option SpendRecord) : OnlyJournal store (store.recordStepCost context stepNo cost) := by
  unfold recordStepCost
  split
  · exact recordSpend_onlyJournal _ _ _ _
  · exact .refl store

theorem insertStep_onlyJournal {step : ModelStep}
    (ok : store.insertStep context stepNo step = .ok next) : OnlyJournal store next := by
  simp only [insertStep, bind_eq_ok, pure_eq_ok] at ok
  obtain ⟨_, _, rfl⟩ := ok
  exact ⟨_, _, _, _, rfl⟩

theorem OnlyJournal.trans (early : OnlyJournal first second) (late : OnlyJournal second third) :
    OnlyJournal first third := by
  obtain ⟨_, _, _, _, rfl⟩ := early
  obtain ⟨_, _, _, _, rfl⟩ := late
  exact ⟨_, _, _, _, rfl⟩

theorem restoreAnswer_onlyJournal {provider model cacheKey reason : String}
    (ok : store.restoreAnswer context stepNo provider model cacheKey reason clock now = .ok next) :
    OnlyJournal store next ∧ ∃ run, store.executableRun context clock = .ok run := by
  simp only [restoreAnswer, bind_eq_ok] at ok
  obtain ⟨run, passed, ok⟩ := ok
  refine ⟨?_, run, passed⟩
  split at ok
  · cases ok
    exact .refl store
  · exact insertStep_onlyJournal ok

end Store

open Store

/-- An executor's write passes the fence and touches the journal only. -/
theorem Write.run_onlyJournal {platform : Platform} {store next : Store}
    {context : ExecutionContext} {entry : Write}
    (ok : entry.run platform store context = .ok next) :
    OnlyJournal store next ∧ ∃ run, store.executableRun context entry.clock = .ok run := by
  cases entry with
  | save stepNo step cost cached clock =>
    simp only [Write.run, Store.save, bind_eq_ok] at ok
    obtain ⟨run, passed, _, _, stepped, inserted, ok⟩ := ok
    refine ⟨(insertStep_onlyJournal inserted).trans ?_, run, passed⟩
    refine (recordStepCost_onlyJournal stepped context stepNo cost).trans ?_
    split at ok
    · cases ok
      exact .refl _
    · simp only [bind_eq_ok, pure_eq_ok] at ok
      obtain ⟨_, _, rfl⟩ := ok
      exact ⟨_, _, _, _, rfl⟩
  | restoreAnswerCache => exact restoreAnswer_onlyJournal ok
  | restoreSemanticAnswerCache => exact restoreAnswer_onlyJournal ok
  | saveRetrieval =>
    simp only [Write.run, Store.saveRetrieval, bind_eq_ok, raiseIf_eq_ok, exists_and_left,
      exists_const] at ok
    obtain ⟨run, passed, _, ok⟩ := ok
    refine ⟨?_, run, passed⟩
    split at ok
    · cases ok
      exact ⟨_, _, _, _, rfl⟩
    · simp only [bind_eq_ok, raiseIf_eq_ok, pure_eq_ok, exists_and_left, exists_const] at ok
      exact ok.2 ▸ .refl store
  | recordSemanticCacheEmbedding =>
    simp only [Write.run, Store.recordSemanticCacheEmbedding, bind_eq_ok, pure_eq_ok] at ok
    obtain ⟨run, passed, rfl⟩ := ok
    exact ⟨recordSpend_onlyJournal _ _ _ _, run, passed⟩

/-- The wall clock when an action passes the fence, if it does. -/
def Action.clock? : Action → Option Instant
  | .write entry => some entry.clock
  | .prepareCall _ _ _ _ _ clock _ | .markRunning clock | .settle _ clock
  | .settleUnavailable clock | .settleInvalid clock => some clock
  | .renewLease _ _ | .recordEmbeddingSpend _ | .stopIfCancelled | .executorReturns
  | .executorRaises _ => none

/-- Everything an action of an attempt can do to the store. -/
inductive ActionEffect (platform : Platform) (store : Store) (workerId : String)
    (session : Session) : Action → Store → Stage → Prop where
  | renewed (leaseSeconds : Nat) (now : Instant) :
      ActionEffect platform store workerId session (.renewLease leaseSeconds now)
        (store.renewLease session.context.jobId session.context.runId workerId leaseSeconds now)
        session.stage
  | wrote {next : Store} (entry : Write) (ok : entry.run platform store session.context = .ok next) :
      ActionEffect platform store workerId session (.write entry) next .executing
  | embedded (record : SpendRecord) :
      ActionEffect platform store workerId session (.recordEmbeddingSpend record)
        (store.recordEmbeddingSpend session.context.workspaceId session.context.runId record)
        .executing
  | planned {next : Store} {callKey toolName : PyStr} {arguments : Json}
      {callId approvalId : Uuid} {clock now : Instant} {plan : ToolCallPlan}
      (ok : store.prepareCall platform session.context callKey
        (session.context.governedToolName toolName) arguments callId approvalId clock now =
          .ok (next, plan)) :
      ActionEffect platform store workerId session
        (.prepareCall callKey toolName arguments callId approvalId clock now) next (.ofPlan plan)
  | started {next : Store} {callId : Uuid} {clock : Instant} {execution : ToolExecution}
      (at_ : session.stage = .planned callId)
      (ok : store.markRunning platform callId session.context clock = .ok (next, execution)) :
      ActionEffect platform store workerId session (.markRunning clock) next
        (.ofExecution platform workerId execution)
  | succeeded {next : Store} {execution : ToolExecution} {value : Json} {clock : Instant}
      {completed : Bool} {stage : Stage} (at_ : session.stage = .dispatched execution)
      (ok : store.completeCallSuccess platform execution.callId value session.context clock =
        .ok (next, completed)) :
      ActionEffect platform store workerId session (.settle (.result value) clock) next stage
  | failed {next : Store} {action : Action} {callId : Uuid} {code : PyStr} {retryable : Bool}
      {clock : Instant} {completed : Bool} {stage : Stage} (clocked : action.clock? = some clock)
      (ok : store.completeCallFailure callId code retryable session.context clock =
        .ok (next, completed)) :
      ActionEffect platform store workerId session action next stage
  | unchanged {action : Action} {stage : Stage} :
      ActionEffect platform store workerId session action store stage

/-- A failure is recorded, or nothing is. -/
theorem recordFailure_effect {platform : Platform} {store next : Store} {code : PyStr}
    {clock : Instant} (clocked : action.clock? = some clock)
    (ok : recordFailure store session callId code retryable stage clock = (next, after)) :
    ActionEffect platform store workerId session action next after := by
  unfold recordFailure at ok
  split at ok
  case h_1 done =>
    cases ok
    exact .failed clocked done
  case h_2 =>
    cases ok
    exact .unchanged

/-- A result is recorded, or nothing is. -/
theorem recordResult_effect {platform : Platform} {store next : Store} {value : Json}
    {clock : Instant} (at_ : session.stage = .dispatched execution)
    (ok : recordResult platform store session execution.callId value clock = (next, after)) :
    ActionEffect platform store workerId session (.settle (.result value) clock) next after := by
  unfold recordResult at ok
  split at ok
  case h_1 done =>
    cases ok
    exact .succeeded at_ done
  case h_2 done =>
    cases ok
    exact .succeeded at_ done
  all_goals
    cases ok
    exact .unchanged

/-- An action does nothing else. -/
theorem Action.effect {platform : Platform} {store next : Store}
    (ok : action.run platform store workerId session = some (next, stage)) :
    ActionEffect platform store workerId session action next stage := by
  cases action with
  | renewLease leaseSeconds now =>
    cases ok
    exact .renewed leaseSeconds now
  | write entry =>
    simp only [Action.run, Option.bind_eq_bind, Option.bind_eq_some_iff, Option.pure_def,
      Option.some.injEq] at ok
    obtain ⟨_, _, ok⟩ := ok
    unfold journalled at ok
    split at ok
    case h_1 done =>
      cases ok
      exact .wrote entry done
    case h_2 =>
      cases ok
      exact .unchanged
  | recordEmbeddingSpend record =>
    simp only [Action.run, Option.bind_eq_bind, Option.bind_eq_some_iff, Option.pure_def,
      Option.some.injEq, Prod.mk.injEq] at ok
    obtain ⟨_, _, rfl, rfl⟩ := ok
    exact .embedded record
  | prepareCall callKey toolName arguments callId approvalId clock now =>
    simp only [Action.run, Option.bind_eq_bind, Option.bind_eq_some_iff, Option.pure_def,
      Option.some.injEq] at ok
    obtain ⟨_, _, ok⟩ := ok
    unfold plan at ok
    split at ok
    case h_1 done =>
      cases ok
      exact .planned done
    case h_2 =>
      cases ok
      exact .unchanged
  | stopIfCancelled =>
    simp only [Action.run, Option.bind_eq_bind, Option.bind_eq_some_iff, Option.pure_def,
      Option.some.injEq, Prod.mk.injEq] at ok
    obtain ⟨_, _, _, _, rfl, _⟩ := ok
    exact .unchanged
  | markRunning clock =>
    simp only [Action.run, Option.bind_eq_bind, Option.bind_eq_some_iff, Option.pure_def,
      Option.some.injEq, Stage.planned?_eq_some] at ok
    obtain ⟨callId, at_, ok⟩ := ok
    unfold start at ok
    split at ok
    case h_1 done =>
      cases ok
      exact .started at_ done
    case h_2 =>
      cases ok
      exact .unchanged
  | settle outcome clock =>
    simp only [Action.run, Option.bind_eq_bind, Option.bind_eq_some_iff, Option.pure_def,
      Option.some.injEq, Stage.dispatched?_eq_some] at ok
    obtain ⟨execution, at_, ok⟩ := ok
    cases outcome with
    | result value => exact recordResult_effect at_ ok
    | error => exact recordFailure_effect rfl ok
    | timeout => exact recordFailure_effect rfl ok
    | cancelled => exact recordFailure_effect rfl ok
    | exception => exact recordFailure_effect rfl ok
  | settleUnavailable clock =>
    simp only [Action.run, Option.bind_eq_bind, Option.bind_eq_some_iff, Option.pure_def,
      Option.some.injEq] at ok
    obtain ⟨callId, _, ok⟩ := ok
    exact recordFailure_effect rfl ok
  | settleInvalid clock =>
    simp only [Action.run, Option.bind_eq_bind, Option.bind_eq_some_iff, Option.pure_def,
      Option.some.injEq] at ok
    obtain ⟨callId, _, ok⟩ := ok
    exact recordFailure_effect rfl ok
  | executorReturns =>
    simp only [Action.run, Option.bind_eq_bind, Option.bind_eq_some_iff, Option.pure_def,
      Option.some.injEq, Prod.mk.injEq] at ok
    obtain ⟨_, _, rfl, _⟩ := ok
    exact .unchanged
  | executorRaises error =>
    simp only [Action.run, Option.bind_eq_bind, Option.bind_eq_some_iff, Option.pure_def,
      Option.some.injEq, Prod.mk.injEq] at ok
    obtain ⟨_, _, rfl, _⟩ := ok
    exact .unchanged

end Nexora.Run
