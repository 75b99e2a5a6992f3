import Nexora.Run.Cancellation

/-!
# Calls, approvals and runs stay coupled

A call is asked about at most once, and how it stands says how its approval stands; a run
waits only while it has a pending approval. Every move of the board keeps this, and while it
holds no operation asks a status trigger for a transition it rejects, or for a second approval
of one call.
-/

namespace Nexora.Run

open Nexora.Std Nexora.Workspace Nexora.Tools Json

/-- How a call may stand whose approval has a status. -/
def ApprovalStatus.allows : ApprovalStatus → CallStatus → Bool
  | .pending, status => status = .pendingApproval
  | .approved, status => status ∈ [.approved, .running, .succeeded, .failed, .cancelled]
  | .rejected, status => status = .denied
  | .expired, status | .cancelled, status => status = .cancelled

/-- The statuses of approvals, calls and runs agree. -/
structure Coupled (board : Board) : Prop where
  single : ∀ left leftRow right rightRow, board.approvals.find? left = some leftRow →
    board.approvals.find? right = some rightRow → leftRow.toolCallId = rightRow.toolCallId →
      left = right
  call : ∀ approvalId approval, board.approvals.find? approvalId = some approval →
    ∃ call, board.calls.find? approval.toolCallId = some call ∧ call.runId = approval.runId ∧
      approval.status.allows call.status = true
  pending : ∀ callId call, board.calls.find? callId = some call →
    call.status = .pendingApproval → ∃ approvalId approval,
      board.approvals.find? approvalId = some approval ∧ approval.toolCallId = callId ∧
        approval.status = .pending
  waiting : ∀ runId run, board.runs.find? runId = some run → run.status = .waitingForApproval →
    ∃ approvalId approval, board.approvals.find? approvalId = some approval ∧
      approval.runId = runId ∧ approval.workspaceId = run.workspaceId ∧
        approval.status = .pending

namespace Coupled

open Board

variable {before after : Board} {callId approvalId : Uuid} {runId : Uuid} {approval : ToolApproval}
  {later call : ToolCall}

/-- The approval of a call is the one that is found for it. -/
theorem approvalFor (coupled : Coupled before)
    (found : before.approvals.find? approvalId = some approval) :
    before.approvalFor approval.toolCallId = some (approvalId, approval) := by
  refine Table.first?_eq_some_of_unique found (by simp) ?_
  intro other otherRow otherFound same
  exact coupled.single other otherRow approvalId approval otherFound found (by simpa using same)

/-- Runs change, and what now waits has a pending approval. -/
theorem of_runs (coupled : Coupled before) (calls : after.calls = before.calls)
    (approvals : after.approvals = before.approvals)
    (waiting : ∀ runId run, after.runs.find? runId = some run →
      run.status = .waitingForApproval → ∃ approvalId approval,
        before.approvals.find? approvalId = some approval ∧ approval.runId = runId ∧
        approval.workspaceId = run.workspaceId ∧ approval.status = .pending) : Coupled after := by
  obtain ⟨single, call, pending, _⟩ := coupled
  refine ⟨?_, ?_, ?_, ?_⟩
  · rw [approvals]
    exact single
  · rw [approvals, calls]
    exact call
  · rw [approvals, calls]
    exact pending
  · rw [approvals]
    exact waiting

/-- One run is written, which waits only with a pending approval. -/
theorem write_run (coupled : Coupled before) {later : AgentRun}
    (runs : before.runs.Written after.runs runId later) (calls : after.calls = before.calls)
    (approvals : after.approvals = before.approvals)
    (waiting : later.status = .waitingForApproval → ∃ approvalId approval,
      before.approvals.find? approvalId = some approval ∧ approval.runId = runId ∧
      approval.workspaceId = later.workspaceId ∧ approval.status = .pending) : Coupled after := by
  refine coupled.of_runs calls approvals fun other run found waits => ?_
  rcases runs.found found with ⟨rfl, rfl⟩ | ⟨_, unchanged⟩
  · exact waiting waits
  · exact coupled.waiting other run unchanged waits

/-- One call is written that agrees with its approval and does not start to ask for one. -/
theorem write_call (coupled : Coupled before) (runs : after.runs = before.runs)
    (calls : before.calls.Written after.calls callId later)
    (approvals : after.approvals = before.approvals)
    (agrees : ∀ approvalId approval, before.approvals.find? approvalId = some approval →
      approval.toolCallId = callId → later.runId = approval.runId ∧
        approval.status.allows later.status = true) (notPending : later.status ≠ .pendingApproval) :
    Coupled after := by
  refine ⟨?_, ?_, ?_, ?_⟩
  · rw [approvals]
    exact coupled.single
  · intro approvalId approval found
    rw [approvals] at found
    obtain ⟨call, present, ofRun, allows⟩ := coupled.call approvalId approval found
    rcases calls.kept present with ⟨same, written⟩ | ⟨_, unchanged⟩
    · obtain ⟨sameRun, allowed⟩ := agrees approvalId approval found same
      exact ⟨later, written, sameRun, allowed⟩
    · exact ⟨call, unchanged, ofRun, allows⟩
  · intro other call found asks
    rw [approvals]
    rcases calls.found found with ⟨_, rfl⟩ | ⟨_, unchanged⟩
    · exact absurd asks notPending
    · exact coupled.pending other call unchanged asks
  · rw [runs, approvals]
    exact coupled.waiting

/-- A pending approval is settled together with its call, and its run waits no more. -/
theorem settle_approval (coupled : Coupled before) {later : ToolApproval}
    (change : ToolCall → ToolCall) (found : before.approvals.find? approvalId = some approval)
    (pending : approval.status = .pending)
    (calls : ∀ call, before.calls.find? approval.toolCallId = some call →
      before.calls.Written after.calls approval.toolCallId (change call))
    (approvals : before.approvals.Written after.approvals approvalId later)
    (request : later.toApprovalRequest = approval.toApprovalRequest)
    (keeps : ∀ call, (change call).runId = call.runId)
    (settled : ∀ call, call.status = .pendingApproval →
      later.status.allows (change call).status = true ∧ (change call).status ≠ .pendingApproval)
    (waiting : ∀ runId run, after.runs.find? runId = some run → run.status = .waitingForApproval →
      ∃ earlier, before.runs.find? runId = some earlier ∧ earlier.status = .waitingForApproval ∧
        earlier.workspaceId = run.workspaceId ∧
        ¬ (approval.runId = runId ∧ approval.workspaceId = run.workspaceId)) : Coupled after := by
  have sameCall : later.toolCallId = approval.toolCallId :=
    congrArg ApprovalRequest.toolCallId request
  obtain ⟨asked, askedFound, askedRun, allows⟩ := coupled.call approvalId approval found
  have asks : asked.status = .pendingApproval := by
    rw [pending] at allows
    exact of_decide_eq_true allows
  have written := calls asked askedFound
  -- Every other approval is of another call.
  have other (otherId : Uuid) (row : ToolApproval) (distinct : otherId ≠ approvalId)
      (present : before.approvals.find? otherId = some row) :
      row.toolCallId ≠ approval.toolCallId := fun same =>
    distinct (coupled.single otherId row approvalId approval present found same)
  refine ⟨?_, ?_, ?_, ?_⟩
  · intro left leftRow right rightRow leftFound rightFound same
    rcases approvals.found leftFound with ⟨leftIs, rfl⟩ | ⟨leftOther, leftBefore⟩ <;>
      rcases approvals.found rightFound with ⟨rightIs, rfl⟩ | ⟨rightOther, rightBefore⟩
    · exact leftIs.trans rightIs.symm
    · exact absurd (same.symm.trans sameCall) (other right rightRow rightOther rightBefore)
    · exact absurd (same.trans sameCall) (other left leftRow leftOther leftBefore)
    · exact coupled.single left leftRow right rightRow leftBefore rightBefore same
  · intro otherId row present
    rcases approvals.found present with ⟨_, rfl⟩ | ⟨distinct, unchanged⟩
    · refine ⟨change asked, ?_, ?_, (settled asked asks).1⟩
      · rw [sameCall]
        exact written.self
      · rw [keeps, askedRun]
        exact (congrArg ApprovalRequest.runId request).symm
    · obtain ⟨call, callFound, ofRun, allowed⟩ := coupled.call otherId row unchanged
      refine ⟨call, ?_, ofRun, allowed⟩
      rw [written.other (other otherId row distinct unchanged)]
      exact callFound
  · intro callId call callFound callAsks
    rcases written.found callFound with ⟨_, rfl⟩ | ⟨notAsked, unchanged⟩
    · exact absurd callAsks (settled asked asks).2
    · obtain ⟨otherId, row, present, ofCall, rowPending⟩ :=
        coupled.pending callId call unchanged callAsks
      refine ⟨otherId, row, ?_, ofCall, rowPending⟩
      rw [approvals.other, present]
      rintro rfl
      rw [found] at present
      cases present
      exact notAsked ofCall.symm
  · intro runId run runFound waits
    obtain ⟨earlier, earlierFound, earlierWaits, workspace, notIts⟩ :=
      waiting runId run runFound waits
    obtain ⟨otherId, row, present, ofRun, sameWorkspace, rowPending⟩ :=
      coupled.waiting runId earlier earlierFound earlierWaits
    refine ⟨otherId, row, ?_, ofRun, sameWorkspace.trans workspace, rowPending⟩
    rw [approvals.other, present]
    rintro rfl
    rw [found] at present
    cases present
    exact notIts ⟨ofRun, sameWorkspace.trans workspace⟩

/-- What an attempt does to a call keeps it in agreement with its approval. -/
theorem change_agrees (coupled : Coupled before) (found : before.calls.find? callId = some call)
    (change : CallChange before callId call later) :
    (∀ approvalId approval, before.approvals.find? approvalId = some approval →
      approval.toolCallId = callId → later.runId = approval.runId ∧
        approval.status.allows later.status = true) ∧
      later.status ≠ .pendingApproval := by
  constructor
  · rintro approvalId approval present rfl
    obtain ⟨row, rowFound, ofRun, allows⟩ := coupled.call approvalId approval present
    rw [found] at rowFound
    cases rowFound
    have asked := coupled.approvalFor present
    refine ⟨?_, ?_⟩
    · rw [change.toCallRequest]
      exact ofRun
    -- An approval of a call that may be executed, or is, has been granted.
    cases change with
    | denied open_ unasked target =>
      have notPending := unasked _ asked
      subst target
      cases standing : approval.status <;> cases status : call.status <;>
        simp_all [ApprovalStatus.allows, CallStatus.isOpen]
    | started executable =>
      cases standing : approval.status <;> cases status : call.status <;>
        simp_all [ApprovalStatus.allows]
    | succeeded running | failed running =>
      rw [running] at allows
      cases standing : approval.status <;> simp_all [ApprovalStatus.allows]
    | retried running target =>
      rw [running] at allows
      rw [asked] at target
      subst target
      cases standing : approval.status <;> simp_all [ApprovalStatus.allows]
  · cases change with
    | denied _ _ target =>
      subst target
      split <;> simp
    | retried _ target =>
      subst target
      split <;> simp
    | started | succeeded | failed => simp

/-- A withdrawn run's approvals and calls are withdrawn together. -/
theorem withdraw (coupled : Coupled before) {later : AgentRun}
    (ended : later.status ≠ .waitingForApproval) (runs : before.runs.Written after.runs runId later)
    (calls : after.calls = before.calls.mapRows fun _ call => call.withdrawn runId)
    (approvals : after.approvals =
      before.approvals.mapRows fun _ approval => approval.withdrawn runId) : Coupled after := by
  have request (approval : ToolApproval) :
      (approval.withdrawn runId).toApprovalRequest = approval.toApprovalRequest := by
    unfold ToolApproval.withdrawn
    split <;> rfl
  have ofRun (call : ToolCall) : (call.withdrawn runId).runId = call.runId := by
    unfold ToolCall.withdrawn
    split <;> rfl
  have earlier {approvalId : Uuid} {row : ToolApproval}
      (found : after.approvals.find? approvalId = some row) :
      ∃ approval, before.approvals.find? approvalId = some approval ∧
        approval.withdrawn runId = row := by
    rw [approvals, Table.find?_mapRows, Option.map_eq_some_iff] at found
    exact found
  -- Another run's approvals are left alone.
  have untouched {approvalId : Uuid} {approval : ToolApproval}
      (found : before.approvals.find? approvalId = some approval) (other : approval.runId ≠ runId) :
      after.approvals.find? approvalId = some approval := by
    rw [approvals, Table.find?_mapRows, found, Option.map_some]
    simp [ToolApproval.withdrawn, other]
  refine ⟨?_, ?_, ?_, ?_⟩
  · intro left leftRow right rightRow leftFound rightFound same
    obtain ⟨leftBefore, leftPresent, rfl⟩ := earlier leftFound
    obtain ⟨rightBefore, rightPresent, rfl⟩ := earlier rightFound
    rw [request, request] at same
    exact coupled.single _ _ _ _ leftPresent rightPresent same
  · intro approvalId row found
    obtain ⟨approval, present, rfl⟩ := earlier found
    obtain ⟨call, callFound, sameRun, allows⟩ := coupled.call approvalId approval present
    refine ⟨call.withdrawn runId, ?_, ?_, ?_⟩
    · rw [calls, Table.find?_mapRows, request, callFound]
      rfl
    · rw [ofRun, request]
      exact sameRun
    · unfold ToolCall.withdrawn ToolApproval.withdrawn
      rw [sameRun]
      by_cases isRun : approval.runId = runId
      · cases standing : approval.status <;> cases status : call.status <;>
          simp_all [ApprovalStatus.allows]
      · simpa [isRun] using allows
  · intro callId row found asks
    rw [calls, Table.find?_mapRows, Option.map_eq_some_iff] at found
    obtain ⟨call, callFound, rfl⟩ := found
    have kept : ¬ (call.runId = runId ∧
        call.status ∈ [CallStatus.planned, .pendingApproval, .approved]) := by
      intro withdrawn
      rw [ToolCall.withdrawn, if_pos withdrawn] at asks
      cases asks
    rw [ToolCall.withdrawn, if_neg kept] at asks
    obtain ⟨approvalId, approval, present, ofCall, pending⟩ :=
      coupled.pending callId call callFound asks
    refine ⟨approvalId, approval, untouched present ?_, ofCall, pending⟩
    obtain ⟨other, otherFound, sameRun, _⟩ := coupled.call approvalId approval present
    rw [ofCall, callFound] at otherFound
    cases otherFound
    rw [← sameRun]
    exact fun isRun => kept ⟨isRun, by simp [asks]⟩
  · intro id run found waits
    rcases runs.found found with ⟨_, rfl⟩ | ⟨distinct, unchanged⟩
    · exact absurd waits ended
    · obtain ⟨approvalId, approval, present, isOf, workspace, pending⟩ :=
        coupled.waiting id run unchanged waits
      exact ⟨approvalId, approval, untouched present (isOf ▸ distinct), isOf, workspace, pending⟩

/-- A call that is asked about for the first time. -/
theorem ask (coupled : Coupled before) (status : later.status = .pendingApproval)
    (unasked : before.approvalFor callId = none) (free : before.approvals.find? approvalId = none)
    (pending : approval.status = .pending) (ofCall : approval.toolCallId = callId)
    (ofRun : approval.runId = later.runId) (runs : after.runs = before.runs)
    (calls : before.calls.Written after.calls callId later)
    (approvals : before.approvals.Written after.approvals approvalId approval) :
    Coupled after := by
  have others (otherId : Uuid) (row : ToolApproval)
      (present : before.approvals.find? otherId = some row) : row.toolCallId ≠ callId := by
    simpa using (Table.first?_eq_none _ _).mp unasked otherId row present
  have distinct (otherId : Uuid) (row : ToolApproval)
      (present : before.approvals.find? otherId = some row) : otherId ≠ approvalId := by
    rintro rfl
    rw [free] at present
    cases present
  have stays {otherId : Uuid} {row : ToolApproval}
      (present : before.approvals.find? otherId = some row) :
      after.approvals.find? otherId = some row := by
    rw [approvals.other (distinct otherId row present)]
    exact present
  refine ⟨?_, ?_, ?_, ?_⟩
  · intro left leftRow right rightRow leftFound rightFound same
    rcases approvals.found leftFound with ⟨leftIs, rfl⟩ | ⟨_, leftBefore⟩ <;>
      rcases approvals.found rightFound with ⟨rightIs, rfl⟩ | ⟨_, rightBefore⟩
    · exact leftIs.trans rightIs.symm
    · exact absurd (same.symm.trans ofCall) (others right rightRow rightBefore)
    · exact absurd (same.trans ofCall) (others left leftRow leftBefore)
    · exact coupled.single left leftRow right rightRow leftBefore rightBefore same
  · intro otherId row present
    rcases approvals.found present with ⟨_, rfl⟩ | ⟨_, unchanged⟩
    · refine ⟨later, ofCall ▸ calls.self, ofRun.symm, ?_⟩
      rw [pending, status]
      rfl
    · obtain ⟨call, found, sameRun, allows⟩ := coupled.call otherId row unchanged
      exact ⟨call, (calls.other (others otherId row unchanged)).trans found, sameRun, allows⟩
  · intro otherId call found asks
    rcases calls.found found with ⟨rfl, rfl⟩ | ⟨_, unchanged⟩
    · exact ⟨approvalId, approval, approvals.self, ofCall, pending⟩
    · obtain ⟨rowId, row, present, sameCall, rowPending⟩ :=
        coupled.pending otherId call unchanged asks
      exact ⟨rowId, row, stays present, sameCall, rowPending⟩
  · intro runId run found waits
    rw [runs] at found
    obtain ⟨rowId, row, present, isOf, workspace, rowPending⟩ :=
      coupled.waiting runId run found waits
    exact ⟨rowId, row, stays present, isOf, workspace, rowPending⟩

/-- Giving up a pending call closes it. -/
theorem closed_settled {status : ApprovalStatus} (target : status = .expired ∨ status = .cancelled)
    (errorCode : PyStr) (call : ToolCall) (asks : call.status = .pendingApproval) :
    status.allows (call.closed errorCode).status = true ∧
      (call.closed errorCode).status ≠ .pendingApproval := by
  have closed : (call.closed errorCode).status = .cancelled := by
    simp [ToolCall.closed, asks, CallStatus.isOpen]
  rw [closed]
  rcases target with rfl | rfl <;> exact ⟨rfl, by simp⟩

/-- A call whose contract has changed is given up with its pending approval. -/
theorem drop (coupled : Coupled before) (held : before.Held call.runId)
    (found : before.calls.find? callId = some call) (runs : after.runs = before.runs)
    (calls : before.calls.Written after.calls callId (call.closed (py "tool_contract_changed")))
    (approvals : (∃ approvalId approval,
        before.approvalFor callId = some (approvalId, approval) ∧ approval.status = .pending ∧
        before.approvals.Written after.approvals approvalId
          { approval with status := .cancelled }) ∨
      (after.approvals = before.approvals ∧
        ∀ entry, before.approvalFor callId = some entry → entry.2.status ≠ .pending)) :
    Coupled after := by
  rcases approvals with ⟨approvalId, approval, first, pending, written⟩ | ⟨unchanged, decided⟩
  · obtain ⟨present, same⟩ := Table.of_first? first
    obtain rfl : approval.toolCallId = callId := of_decide_eq_true same
    refine coupled.settle_approval (fun call => call.closed (py "tool_contract_changed")) present
      pending ?_ written rfl ?_ (closed_settled (.inr rfl) _) ?_
    · intro row rowFound
      rw [found] at rowFound
      cases rowFound
      exact calls
    · exact fun call => congrArg CallRequest.runId (closed_kept call _).1
    · -- The call's run is executing, so it does not wait.
      intro runId run runFound waits
      rw [runs] at runFound
      refine ⟨run, runFound, waits, rfl, ?_⟩
      rintro ⟨isRun, _⟩
      obtain ⟨row, rowFound, ofRun, _⟩ := coupled.call approvalId approval present
      rw [found] at rowFound
      cases rowFound
      obtain ⟨executing, executingFound, running, _⟩ := held
      rw [ofRun, isRun, runFound] at executingFound
      cases executingFound
      rw [waits] at running
      cases running
  · refine coupled.write_call runs calls unchanged ?_ ?_
    · rintro approvalId approval present rfl
      obtain ⟨row, rowFound, ofRun, allows⟩ := coupled.call approvalId approval present
      rw [found] at rowFound
      cases rowFound
      have notPending := decided _ (coupled.approvalFor present)
      refine ⟨?_, ?_⟩
      · rw [(closed_kept call _).1]
        exact ofRun
      · unfold ToolCall.closed
        cases standing : approval.status <;> cases status : call.status <;>
          simp_all [ApprovalStatus.allows, CallStatus.isOpen]
    · intro asks
      have wasPending : call.status = .pendingApproval := by
        unfold ToolCall.closed at asks
        split at asks
        · cases asks
        · exact asks
      rw [ToolCall.closed, wasPending] at asks
      cases asks

/-- Every move keeps the coupling. -/
theorem move (coupled : Coupled before) (move : Move before after) : Coupled after := by
  -- A run that waits afterwards waited before, unless it is the one that is written.
  have waited {target : Uuid} {later : AgentRun}
      (runs : before.runs.Written after.runs target later)
      (ended : later.status ≠ .waitingForApproval) (workspaceId runId : Uuid) (run : AgentRun)
      (found : after.runs.find? runId = some run) (waits : run.status = .waitingForApproval) :
      ∃ earlier, before.runs.find? runId = some earlier ∧ earlier.status = .waitingForApproval ∧
        earlier.workspaceId = run.workspaceId ∧
        ¬ (target = runId ∧ workspaceId = run.workspaceId) := by
    rcases runs.found found with ⟨_, rfl⟩ | ⟨distinct, unchanged⟩
    · exact absurd waits ended
    · exact ⟨run, unchanged, waits, rfl, fun same => distinct same.1.symm⟩
  cases move with
  | created _ queued _ _ runs calls approvals =>
    refine coupled.write_run runs calls approvals fun waits => ?_
    rw [queued] at waits
    cases waits
  | run found change runs calls approvals =>
    refine coupled.write_run runs calls approvals fun waits => ?_
    cases change with
    | kept => exact coupled.waiting _ _ found waits
    | renewed running =>
      have impossible := running.symm.trans waits
      cases impossible
    | touched queued =>
      have impossible := queued.symm.trans waits
      cases impossible
    | requeued | halted => cases waits
    | parked _ _ asked pending ofRun workspace => exact ⟨_, _, asked, ofRun, workspace, pending⟩
    | ended _ _ result =>
      dsimp only at waits
      rw [waits] at result
      rcases result with impossible | impossible <;> cases impossible
  | withdrawn found change runs calls approvals =>
    refine coupled.withdraw ?_ runs calls approvals
    cases change with
    | requested running => simp [running]
    | cancelled => simp
  | approved found pending runFound waiting runs calls approvals =>
    refine coupled.settle_approval (fun call => { call with status := .approved }) found pending
      (fun call callFound => .ofModify calls callFound) approvals rfl (fun _ => rfl)
      (fun _ _ => ⟨rfl, by simp⟩) ?_
    exact waited runs (by simp) _
  | rejected found pending runFound waiting runs calls approvals =>
    refine coupled.settle_approval (fun call => { call with status := .denied }) found pending
      (fun call callFound => .ofModify calls callFound) approvals rfl (fun _ => rfl)
      (fun _ _ => ⟨rfl, by simp⟩) ?_
    exact waited runs (by simp) _
  | @lapsed approvalId approval status now found pending target runs calls approvals =>
    have closed (call : ToolCall) (callFound : before.calls.find? approval.toolCallId = some call) :=
      Table.Written.ofModify calls callFound
    refine coupled.settle_approval (fun call => call.closed (py status.text)) found pending
      closed approvals rfl (fun call => congrArg CallRequest.runId (closed_kept call _).1)
      (closed_settled target _) ?_
    intro runId run runFound waits
    rw [runs, Option.map_eq_some_iff] at runFound
    obtain ⟨earlier, earlierFound, rfl⟩ := runFound
    by_cases isRun : runId = approval.runId
    · rw [if_pos isRun] at waits ⊢
      unfold AgentRun.lapsed at waits ⊢
      split at waits
      · cases waits
      · rename_i kept
        rw [if_neg kept]
        exact ⟨earlier, earlierFound, waits, rfl, fun both => kept ⟨both.2.symm, .inr waits⟩⟩
    · rw [if_neg isRun] at waits ⊢
      exact ⟨earlier, earlierFound, waits, rfl, fun both => isRun both.1.symm⟩
  | added _ absent _ status _ runs calls approvals =>
    refine coupled.write_call runs calls approvals ?_ ?_
    · rintro approvalId approval present rfl
      obtain ⟨call, found, _⟩ := coupled.call approvalId approval present
      rw [absent] at found
      cases found
    · rcases status with planned | denied
      · simp [planned]
      · simp [denied]
  | call _ found change runs calls approvals =>
    obtain ⟨agrees, notPending⟩ := coupled.change_agrees found change
    exact coupled.write_call runs calls approvals agrees notPending
  | asked _ _ status unasked free pending ofCall ofRun runs calls approvals =>
    exact coupled.ask status unasked free pending ofCall ofRun runs calls approvals
  | dropped held found _ runs calls approvals => exact coupled.drop held found runs calls approvals

/-- Starting an attempt keeps the coupling. -/
theorem start (coupled : Coupled before) {run : AgentRun} (starts : Starts before after runId run) :
    Coupled after := by
  obtain ⟨lease, now, runs⟩ := starts.runs
  exact coupled.write_run runs starts.calls starts.approvals (by simp)

end Coupled

/-- In every reachable state the board is coupled. -/
theorem coupled_of_runs {platform : Platform} {history : List (Transition System Label)}
    {system : System} (runs : (machine platform).Runs history system) :
    Coupled system.store.board := by
  refine runs.invariant (fun system => Coupled system.store.board) ?_ ?_
  · rintro opening ⟨_, memberships, agentDefinitions, unused⟩
    rw [unused]
    refine ⟨?_, ?_, ?_, ?_⟩
    · rintro left leftRow right rightRow found
      cases found
    · rintro approvalId approval found
      cases found
    · rintro callId call found
      cases found
    · rintro runId run found
      cases found
  · intro system label next coupled ok
    exact System.run_keeps Coupled (fun _ _ holds move => holds.move move)
      (fun _ _ _ _ holds starts => holds.start starts) coupled ok

end Nexora.Run
