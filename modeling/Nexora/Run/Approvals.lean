import Nexora.Run.Coupling
import Nexora.Run.Fencing

/-!
# Pending approvals and their runs

While no attempt is lost between being told to wait for an approval and parking its run, a
pending approval has a run that waits for it, or whose attempt is about to park it. Nothing else
ends such a run than what answers the approval.
-/

namespace Nexora.Run

open Nexora.Std Nexora.Workspace Nexora.Tools Json

/-- The run stands as it did: its status, its owner and whether it is to be cancelled. -/
structure AgentRun.StandsAs (run later : AgentRun) : Prop where
  status : later.status = run.status
  workspace : later.workspaceId = run.workspaceId
  cancel : later.cancelRequestedAt = run.cancelRequestedAt
  owner : later.lease.map Lease.owner = run.lease.map Lease.owner

theorem AgentRun.StandsAs.refl (run : AgentRun) : run.StandsAs run := ⟨rfl, rfl, rfl, rfl⟩

theorem AgentRun.StandsAs.trans {run middle later : AgentRun} (early : run.StandsAs middle)
    (late : middle.StandsAs later) : run.StandsAs later :=
  ⟨late.status.trans early.status, late.workspace.trans early.workspace,
    late.cancel.trans early.cancel, late.owner.trans early.owner⟩

variable {approval : ToolApproval}

namespace Board

/-- A person is still asked for the approval. -/
def Pending (board : Board) (approvalId : Uuid) (approval : ToolApproval) : Prop :=
  board.approvals.find? approvalId = some approval ∧ approval.status = .pending

/-- Every pending approval is the only one of its run, which has not ended and is not to be
cancelled. -/
structure Asks (board : Board) : Prop where
  run : ∀ approvalId approval, board.Pending approvalId approval →
    ∃ run, board.runs.find? approval.runId = some run ∧ run.workspaceId = approval.workspaceId ∧
      run.cancelRequestedAt = none ∧ (run.status = .running ∨ run.status = .waitingForApproval)
  single : ∀ left leftRow right rightRow, board.Pending left leftRow →
    board.Pending right rightRow → leftRow.runId = rightRow.runId → left = right

/-- What is pending afterwards was pending before, and its run stands as it did. -/
def Attends (before after : Board) : Prop :=
  ∀ approvalId approval, after.Pending approvalId approval → before.Pending approvalId approval ∧
    ∀ run, before.runs.find? approval.runId = some run →
      ∃ later, after.runs.find? approval.runId = some later ∧ run.StandsAs later

namespace Attends

variable {before middle after : Board} {runId : Uuid} {run later : AgentRun}

theorem of_eq (runs : after.runs = before.runs) (approvals : after.approvals = before.approvals) :
    Attends before after := by
  rintro approvalId approval ⟨found, pending⟩
  refine ⟨⟨by rw [← approvals]; exact found, pending⟩, fun run present => ?_⟩
  exact ⟨run, by rw [runs]; exact present, .refl run⟩

theorem refl (board : Board) : Attends board board := of_eq rfl rfl

theorem trans (early : Attends before middle) (late : Attends middle after) :
    Attends before after := by
  intro approvalId approval pending
  obtain ⟨pendingBetween, lateRun⟩ := late approvalId approval pending
  obtain ⟨pendingBefore, earlyRun⟩ := early approvalId approval pendingBetween
  refine ⟨pendingBefore, fun run found => ?_⟩
  obtain ⟨between, betweenFound, first⟩ := earlyRun run found
  obtain ⟨later, laterFound, second⟩ := lateRun between betweenFound
  exact ⟨later, laterFound, first.trans second⟩

/-- One run is written, that stands as it did or of which nothing is pending. -/
theorem of_written (runs : before.runs.Written after.runs runId later)
    (approvals : after.approvals = before.approvals)
    (either : (∀ run, before.runs.find? runId = some run → run.StandsAs later) ∨
      ∀ approvalId approval, before.Pending approvalId approval → approval.runId ≠ runId) :
    Attends before after := by
  rintro approvalId approval ⟨found, pending⟩
  rw [approvals] at found
  refine ⟨⟨found, pending⟩, fun run present => ?_⟩
  rcases runs.kept present with ⟨isRun, written⟩ | ⟨_, unchanged⟩
  · rcases either with stands | none
    · exact ⟨later, written, stands run (isRun ▸ present)⟩
    · exact absurd isRun (none approvalId approval ⟨found, pending⟩)
  · exact ⟨run, unchanged, .refl run⟩

/-- The only pending approval of a run is settled, and the run changes. -/
theorem of_settled {approvalId : Uuid} {settled : ToolApproval} (asks : before.Asks)
    (pending : before.Pending approvalId approval) (answered : settled.status ≠ .pending)
    (approvals : before.approvals.Written after.approvals approvalId settled)
    (runs : ∀ other, other ≠ approval.runId → after.runs.find? other = before.runs.find? other) :
    Attends before after := by
  rintro otherId other ⟨found, otherPending⟩
  rcases approvals.found found with ⟨_, rfl⟩ | ⟨distinct, earlier⟩
  · exact absurd otherPending answered
  · refine ⟨⟨earlier, otherPending⟩, fun run present => ?_⟩
    have otherRun : other.runId ≠ approval.runId := fun same =>
      distinct (asks.single _ _ _ _ ⟨earlier, otherPending⟩ pending same)
    exact ⟨run, (runs _ otherRun).trans present, .refl run⟩

/-- An approval of a call is withdrawn, if it is pending. -/
theorem of_withdrawn (change : Uuid → ToolApproval → ToolApproval)
    (runs : after.runs = before.runs)
    (approvals : ∀ approvalId, after.approvals.find? approvalId =
      (before.approvals.find? approvalId).map (change approvalId))
    (kept : ∀ approvalId approval, before.approvals.find? approvalId = some approval →
      (change approvalId approval).status = .pending → change approvalId approval = approval) :
    Attends before after := by
  rintro approvalId later ⟨found, pending⟩
  rw [approvals, Option.map_eq_some_iff] at found
  obtain ⟨approval, earlier, rfl⟩ := found
  have same := kept approvalId approval earlier pending
  rw [same] at pending ⊢
  exact ⟨⟨earlier, pending⟩, fun run present => ⟨run, by rw [runs]; exact present, .refl run⟩⟩

end Attends

theorem Asks.attends {before after : Board} (asks : before.Asks) (attends : Attends before after) :
    after.Asks where
  run approvalId approval pending := by
    obtain ⟨earlier, kept⟩ := attends approvalId approval pending
    obtain ⟨run, found, workspace, notCancelled, status⟩ := asks.run approvalId approval earlier
    obtain ⟨later, laterFound, stands⟩ := kept run found
    refine ⟨later, laterFound, stands.workspace.trans workspace, stands.cancel.trans notCancelled, ?_⟩
    rw [stands.status]
    exact status
  single left leftRow right rightRow leftPending rightPending same :=
    asks.single _ _ _ _ (attends _ _ leftPending).1 (attends _ _ rightPending).1 same

end Board

open Board

variable {arguments : Json} {callId approvalId : Uuid} {callKey toolName : PyStr}

namespace Store

variable {store next : Store} {job : WorkerJob} {workerId : String} {now : Instant}
  {recovery : Uuid × Uuid}

/-- A run of which nothing is pending is updated. -/
theorem updateRun_attends {runId : Uuid} {run : AgentRun} {change : AgentRun → AgentRun}
    (found : store.agentRuns.find? runId = some run)
    (none : ∀ approvalId approval, store.board.Pending approvalId approval →
      approval.runId ≠ runId) (ok : store.updateRun runId change = .ok next) :
    Attends store.board next.board := by
  rw [updateRun_eq_ok] at ok
  obtain ⟨_, rfl⟩ := ok
  exact .of_written (.modify change found) rfl (.inr none)

/-- Nothing is pending of a run that is not executed and does not wait. -/
theorem none_pending (asks : store.board.Asks) {runId : Uuid}
    (other : ∀ run, store.agentRuns.find? runId = some run →
      run.cancelRequestedAt = none → run.status ≠ .running ∧ run.status ≠ .waitingForApproval) :
    ∀ approvalId approval, store.board.Pending approvalId approval → approval.runId ≠ runId := by
  rintro approvalId approval pending rfl
  obtain ⟨run, found, _, notCancelled, status⟩ := asks.run approvalId approval pending
  obtain ⟨notRunning, notWaiting⟩ := other run found notCancelled
  exact status.elim notRunning notWaiting

/-- A run is written of which everything that was asked is withdrawn. -/
theorem withdrawCalls_attends {runId : Uuid} {run : AgentRun} (change : AgentRun → AgentRun)
    (found : store.agentRuns.find? runId = some run) :
    Attends store.board { (store.withdrawCalls runId).board with
      runs := store.agentRuns.modify runId change } := by
  have withdrawn : Attends store.board (store.withdrawCalls runId).board := by
    refine .of_withdrawn (fun _ approval => approval.withdrawn runId) rfl ?_ ?_
    · intro approvalId
      exact Table.find?_mapRows _ _ _
    · intro approvalId approval _ pending
      unfold ToolApproval.withdrawn at pending ⊢
      split at pending
      · cases pending
      · rename_i kept
        rw [if_neg kept]
  have none (approvalId : Uuid) (approval : ToolApproval)
      (pending : (store.withdrawCalls runId).board.Pending approvalId approval) :
      approval.runId ≠ runId := by
    obtain ⟨there, status⟩ := pending
    have mapped : ((store.toolApprovals.find? approvalId).map fun approval =>
        approval.withdrawn runId) = some approval := by
      rw [← there]
      exact (Table.find?_mapRows store.toolApprovals (fun _ row => row.withdrawn runId) _).symm
    obtain ⟨row, _, rfl⟩ := Option.map_eq_some_iff.mp mapped
    unfold ToolApproval.withdrawn at status ⊢
    split at status
    · cases status
    · rename_i kept
      rw [if_neg kept]
      exact fun same => kept ⟨same, status⟩
  exact withdrawn.trans (.of_written (.modify change found) rfl (.inr none))

theorem cancelApproval_attends {status : ApprovalStatus} (asks : store.board.Asks)
    (pending : store.board.Pending approvalId approval) (answered : status ≠ .pending)
    (ok : store.cancelApproval approvalId approval status now = .ok next) :
    Attends store.board next.board := by
  obtain ⟨found, stillAsked⟩ := pending
  simp only [cancelApproval, bind_eq_ok, updateApproval_eq_ok, updateCall_eq_ok] at ok
  obtain ⟨_, ⟨_, rfl⟩, withdrawn, ⟨_, rfl⟩, ok⟩ := ok
  have approvals := Table.Written.modify (fun row : ToolApproval =>
    if row.status = .pending then { row with status := status } else row) found
  rw [if_pos stillAsked] at approvals
  split at ok
  · cases ok
    exact .of_settled asks ⟨found, stillAsked⟩ answered approvals fun _ _ => rfl
  split at ok
  · rw [leaveRun, updateRun_eq_ok] at ok
    obtain ⟨_, rfl⟩ := ok
    refine .of_settled asks ⟨found, stillAsked⟩ answered approvals fun other distinct => ?_
    exact Table.find?_modify_ne _ _ distinct
  · cases ok
    exact .of_settled asks ⟨found, stillAsked⟩ answered approvals fun _ _ => rfl

theorem expireApproval_attends (asks : store.board.Asks)
    (ok : expireApproval now store approvalId = .ok next) : Attends store.board next.board := by
  simp only [expireApproval, bind_eq_ok, orRaise_eq_ok, Option.filter_eq_some_iff,
    Bool.and_eq_true, decide_eq_true_eq] at ok
  obtain ⟨approval, ⟨found, pending, _⟩, ok⟩ := ok
  have answered : ApprovalStatus.expired ≠ .pending := by simp
  exact cancelApproval_attends asks ⟨found, pending⟩ answered ok

theorem recoverExpired_attends
    (none : ∀ run, store.agentRuns.find? recovery.1 = some run → run.status = .running →
      ∀ approvalId approval, store.board.Pending approvalId approval →
        approval.runId ≠ recovery.1) (ok : recoverExpired now store recovery = .ok next) :
    Attends store.board next.board := by
  simp only [recoverExpired, bind_eq_ok, orRaise_eq_ok, Option.filter_eq_some_iff,
    Bool.and_eq_true, decide_eq_true_eq] at ok
  obtain ⟨run, ⟨found, running, _⟩, queued, taken, enqueued⟩ := ok
  rw [enqueue_board enqueued]
  have released : Attends (store.supersedeReceipts recovery.1 true).board queued.board :=
    updateRun_attends found (none run found running) taken
  exact released

theorem requeueOrphan_attends {orphanSeconds : Nat} (asks : store.board.Asks)
    (ok : requeueOrphan orphanSeconds now store recovery = .ok next) :
    Attends store.board next.board := by
  simp only [requeueOrphan, bind_eq_ok, orRaise_eq_ok, Option.filter_eq_some_iff,
    Bool.and_eq_true, decide_eq_true_eq] at ok
  obtain ⟨run, ⟨found, ⟨queued, _⟩, _⟩, touched, done, enqueued⟩ := ok
  rw [enqueue_board enqueued]
  refine updateRun_attends found (none_pending asks fun other present _ => ?_) done
  rw [found] at present
  cases present
  rw [queued]
  exact ⟨by simp, by simp⟩

theorem renewLease_attends (store : Store) (jobId runId : Uuid) (workerId : String)
    (leaseSeconds : Nat) (now : Instant) :
    Attends store.board (store.renewLease jobId runId workerId leaseSeconds now).board := by
  rintro approvalId approval pending
  refine ⟨pending, fun run found => ?_⟩
  by_cases same : approval.runId = runId
  · subst same
    refine ⟨_, Table.Written.self (.modify _ found), ?_⟩
    split
    case isTrue renews =>
      obtain ⟨lease, leased, owner⟩ := (Option.any_eq_true _ _).mp renews.2.2
      refine ⟨rfl, rfl, rfl, ?_⟩
      rw [leased]
      simpa using (of_decide_eq_true owner).symm
    case isFalse => exact .refl run
  · exact ⟨run, (Table.find?_modify_ne _ _ same).trans found, .refl run⟩

/-- What ends or parks an attempt of a run of which nothing is pending. -/
theorem cancelLocked_attends {run : AgentRun} (found : store.agentRuns.find? job.runId = some run)
    (none : ∀ approvalId approval, store.board.Pending approvalId approval →
      approval.runId ≠ job.runId)
    (ok : store.cancelLocked job workerId now = .ok next) : Attends store.board next.board := by
  simp only [cancelLocked, bind_eq_ok, pure_eq_ok] at ok
  obtain ⟨cancelled, done, rfl⟩ := ok
  have left_ : Attends store.board cancelled.board := updateRun_attends found none done
  exact left_

/-- A fold of steps after which what is pending is attended to. -/
theorem foldlM_attends {Item : Type} {step : Store → Item → Except Raised Store}
    {items : List Item} (asks : store.board.Asks)
    (each : ∀ current item next, item ∈ items → current.board.Asks →
      Attends store.board current.board → step current item = .ok next →
      Attends current.board next.board)
    (ok : items.foldlM step store = .ok next) : Attends store.board next.board :=
  foldlM_invariant (fun current => Attends store.board current.board)
    (fun current item member after before done =>
      before.trans (each current item after member (asks.attends before) before done))
    (.refl _) ok

section Calls

variable {platform : Platform} {context : ExecutionContext} {clock : Instant} {run : AgentRun}
  {plan : ToolCallPlan} {tool : ToolDefinition} {reason : PyStr} {argumentsHash : Nat}
  {effective : PolicyDecision}

/-- A person is asked about a call of a run, and the attempt is told to wait for the answer. -/
structure AsksFor (store next : Store) (runId : Uuid) (run : AgentRun) (plan : ToolCallPlan)
    (approvalId : Uuid) (approval : ToolApproval) : Prop where
  runs : next.agentRuns = store.agentRuns
  approvals : store.toolApprovals.Written next.toolApprovals approvalId approval
  pending : approval.status = .pending
  ofRun : approval.runId = runId
  workspace : approval.workspaceId = run.workspaceId
  answer : plan.action = .approval approvalId
  ofCall : plan.callId = approval.toolCallId

theorem createApproval_asksFor {runId : Uuid}
    (ok : store.createApproval platform run runId callId tool arguments argumentsHash reason
      approvalId now = .ok (next, plan)) :
    ∃ approval, store.AsksFor next runId run plan approvalId approval := by
  simp only [createApproval, bind_eq_ok, orRaise_eq_ok, updateCall_eq_ok, storeJson_eq_ok,
    raiseIf_eq_ok, Table.insert?_eq_some, pure_eq_ok, Prod.mk.injEq] at ok
  obtain ⟨call, _, _, ⟨_, rfl⟩, _, ⟨_, rfl⟩, _, _, _, ⟨_, rfl⟩, rfl, rfl⟩ := ok
  exact ⟨_, rfl, .put _ _ _, rfl, rfl, rfl, rfl, rfl⟩

theorem contractChanged_attends (ok : store.contractChanged callId tool = .ok (next, plan)) :
    Attends store.board next.board := by
  simp only [contractChanged, bind_eq_ok, updateCall_eq_ok, pure_eq_ok, Prod.mk.injEq] at ok
  obtain ⟨settled, withdrawn, _, ⟨_, rfl⟩, rfl, _⟩ := ok
  unfold withdrawApproval at withdrawn
  split at withdrawn
  case h_2 =>
    cases withdrawn
    exact .of_eq rfl rfl
  case h_1 withdrawnId approval asked =>
    split at withdrawn
    case isFalse =>
      cases withdrawn
      exact .of_eq rfl rfl
    case isTrue pending =>
      rw [setApproval, updateApproval_eq_ok] at withdrawn
      obtain ⟨_, rfl⟩ := withdrawn
      refine .of_withdrawn (fun approvalId row => if approvalId = withdrawnId then
        { row with status := .cancelled, approver := approval.approver } else row) rfl ?_ ?_
      · intro approvalId
        have modified := Table.find?_modify store.toolApprovals withdrawnId approvalId
          fun row => { row with status := .cancelled, approver := approval.approver }
        refine modified.trans ?_
        split
        case isTrue same => rw [same]; rfl
        case isFalse => exact Option.map_id'.symm
      · intro approvalId row _ still
        split at still
        · cases still
        · rename_i other
          rw [if_neg other]

theorem prepareExisting_attends {existingId toolId : Uuid} {existing : ToolCall}
    {contractHash : Nat}
    (ok : store.prepareExisting platform run existingId existing toolId tool arguments argumentsHash
      contractHash effective reason approvalId now = .ok (next, plan)) :
    Attends store.board next.board ∨
      ∃ approvalId approval, store.AsksFor next existing.runId run plan approvalId approval := by
  unfold prepareExisting at ok
  split at ok
  · cases ok
  split at ok
  · cases ok
    exact .inl (.refl _)
  split at ok
  · exact .inl (contractChanged_attends ok)
  split at ok
  · cases ok
    exact .inl (.refl _)
  dsimp only at ok
  split at ok
  · cases ok
    exact .inl (.refl _)
  split at ok
  · simp only [policyDenied, bind_eq_ok, updateCall_eq_ok, pure_eq_ok, Prod.mk.injEq] at ok
    obtain ⟨_, ⟨_, rfl⟩, rfl, _⟩ := ok
    exact .inl (.of_eq rfl rfl)
  split at ok
  · split at ok
    · cases ok
      exact .inl (.refl _)
    · exact .inr ⟨approvalId, createApproval_asksFor ok⟩
  · cases ok
    exact .inl (.refl _)

theorem insertCall_attends {call : ToolCall}
    (ok : store.insertCall platform callId call = .ok next) : Attends store.board next.board := by
  obtain ⟨_, _, runs, approvals⟩ := insertCall_written ok
  exact .of_eq runs approvals

theorem prepareNew_attends {call : CallRequest}
    (ok : store.prepareNew platform run call tool effective reason callId approvalId now =
      .ok (next, plan)) :
    Attends store.board next.board ∨
      ∃ approvalId approval, store.AsksFor next call.runId run plan approvalId approval := by
  cases effective with
  | deny =>
    simp only [prepareNew, bind_eq_ok, pure_eq_ok, Prod.mk.injEq] at ok
    obtain ⟨_, inserted, rfl, _⟩ := ok
    exact .inl (insertCall_attends inserted)
  | requireApproval =>
    simp only [prepareNew, bind_eq_ok] at ok
    obtain ⟨planned, inserted, ok⟩ := ok
    obtain ⟨_, _, runs, approvals⟩ := insertCall_written inserted
    obtain ⟨approval, asksFor⟩ := createApproval_asksFor ok
    refine .inr ⟨approvalId, approval, asksFor.runs.trans runs, ?_, asksFor.pending,
      asksFor.ofRun, asksFor.workspace, asksFor.answer, asksFor.ofCall⟩
    rw [← approvals]
    exact asksFor.approvals
  | allow =>
    simp only [prepareNew, bind_eq_ok, pure_eq_ok, Prod.mk.injEq] at ok
    obtain ⟨_, inserted, rfl, _⟩ := ok
    exact .inl (insertCall_attends inserted)

/-- Planning a call asks at most one person, about a call of the run the fence let pass. -/
theorem prepareCall_attends
    (ok : store.prepareCall platform context callKey toolName arguments callId approvalId clock now =
      .ok (next, plan)) :
    ∃ run, store.executableRun context clock = .ok run ∧
      (Attends store.board next.board ∨
        ∃ approvalId approval, store.AsksFor next context.runId run plan approvalId approval) := by
  obtain ⟨run, toolId, tool, argumentsHash, contractHash, plannable, existing | new⟩ :=
    prepareCall_eq_ok ok
  · obtain ⟨existingId, existing, keyed, done⟩ := existing
    obtain ⟨_, meets⟩ := Table.of_first? keyed
    simp only [Bool.and_eq_true, decide_eq_true_eq] at meets
    refine ⟨run, plannable.passed, ?_⟩
    rw [← meets.1]
    exact prepareExisting_attends done
  · exact ⟨run, plannable.passed, prepareNew_attends new.2⟩

end Calls

end Store

/-- The worker that executes a run has been told to wait for a pending approval. -/
structure Asking (system : System) (workerId : String) (session : Session) (approvalId : Uuid)
    (approval : ToolApproval) : Prop where
  pending : system.store.board.Pending approvalId approval
  holds : ∃ run, system.store.agentRuns.find? approval.runId = some run ∧ run.status = .running ∧
    run.lease.map Lease.owner = some workerId
  present : system.sessions.find? workerId = some session
  ofRun : session.job.runId = approval.runId
  told : session.stage = .raised (.approvalRequired approval.toolCallId approvalId)

/-- No attempt that has been told to wait is lost before it has parked its run: its worker does
not stop, neither its leases nor the approval have expired when it comes to wait, and its run is
not recovered. -/
def NotLost (transition : Transition System Label) : Prop :=
  ∀ workerId session approvalId approval,
    Asking transition.before workerId session approvalId approval →
    match transition.label with
    | .crash other => other ≠ workerId
    | .finish other _ _ now => other = workerId → now < approval.expiresAt ∧
        (transition.before.store.ownedProcessing session.job workerId now).isSome = true
    | .claim _ job _ now => job.runId = approval.runId →
        ∀ run, transition.before.store.agentRuns.find? job.runId = some run → run.live now = true
    | .request (.recoverStale _ _ expired _ _) => ∀ recovery ∈ expired,
        recovery.1 ≠ approval.runId
    | _ => True

/-- A pending approval's run waits for it, or the attempt that executes it has been told to. -/
structure Attended (system : System) : Prop where
  asks : system.store.board.Asks
  told : ∀ approvalId approval run, system.store.board.Pending approvalId approval →
    system.store.agentRuns.find? approval.runId = some run → run.status = .running →
      ∃ workerId session, Asking system workerId session approvalId approval

variable {session : Session} {newJobId : Uuid} {handled : Bool}

/-- An attempt that holds nothing any more leaves everything as it is. -/
theorem finish_unowned {store after : Store} {workerId : String} {delay now : Instant}
    (owned : store.ownedProcessing session.job workerId now = none)
    (ok : finish store workerId session newJobId delay now = .ok (after, handled)) :
    after = store := by
  cases finish_effect ok with
  | stands same => exact same
  | cancelled other => cases owned.symm.trans other
  | waiting _ other => cases owned.symm.trans other
  | ended other => cases owned.symm.trans other
  | retried other => cases owned.symm.trans other

namespace Attended

variable {platform : Platform} {system next : System} {label : Label} {action : Action}
  {stage : Stage}

theorem opening (valid : Opening system) : Attended system := by
  obtain ⟨_, memberships, agentDefinitions, unused⟩ := valid
  rw [Store.empty] at unused
  refine ⟨⟨?_, ?_⟩, ?_⟩
  · rintro approvalId approval ⟨found, _⟩
    simp [unused, Store.board] at found
  · rintro left leftRow _ _ ⟨found, _⟩
    simp [unused, Store.board] at found
  · rintro approvalId approval _ ⟨found, _⟩
    simp [unused, Store.board] at found

/-- Whoever has been told to wait still has, if the board attends to what is pending. -/
theorem keep (attended : Attended system) (attends : Attends system.store.board next.store.board)
    (sessions : ∀ workerId session approvalId approval,
      Asking system workerId session approvalId approval → ∃ later,
        next.sessions.find? workerId = some later ∧ later.job = session.job ∧
          later.stage = session.stage) : Attended next := by
  refine ⟨attended.asks.attends attends, ?_⟩
  intro approvalId approval run pending found running
  obtain ⟨earlier, stood⟩ := attends approvalId approval pending
  obtain ⟨before, beforeFound, _⟩ := attended.asks.run approvalId approval earlier
  obtain ⟨later, laterFound, stands⟩ := stood before beforeFound
  have rows : later = run := Option.some.inj (laterFound.symm.trans found)
  subst rows
  obtain ⟨workerId, session, asking⟩ := attended.told approvalId approval before earlier beforeFound
    (stands.status.symm.trans running)
  obtain ⟨kept, present, sameJob, sameStage⟩ := sessions workerId session approvalId approval asking
  obtain ⟨holder, holderFound, _, owner⟩ := asking.holds
  have same : holder = before := Option.some.inj (holderFound.symm.trans beforeFound)
  subst same
  refine ⟨workerId, kept, pending, ⟨later, found, running, stands.owner.trans owner⟩, present, ?_, ?_⟩
  · rw [sameJob]
    exact asking.ofRun
  · rw [sameStage]
    exact asking.told

/-- Nothing is pending of a run whose holder has not been told to wait. -/
theorem none_pending (attended : Attended system) {workerId : String} {runId : Uuid}
    {run : AgentRun} (present : system.sessions.find? workerId = some session)
    (found : system.store.agentRuns.find? runId = some run) (running : run.status = .running)
    (owner : run.lease.map Lease.owner = some workerId)
    (untold : ∀ toolCallId approvalId, session.stage ≠ .raised (.approvalRequired toolCallId
      approvalId)) :
    ∀ approvalId approval, system.store.board.Pending approvalId approval →
      approval.runId ≠ runId := by
  rintro approvalId approval pending rfl
  obtain ⟨holder, other, asking⟩ := attended.told approvalId approval run pending found running
  obtain ⟨row, rowFound, _, rowOwner⟩ := asking.holds
  have rows : row = run := Option.some.inj (rowFound.symm.trans found)
  subst rows
  have workers : holder = workerId := Option.some.inj (rowOwner.symm.trans owner)
  subst workers
  have sessions := asking.present.symm.trans present
  cases sessions
  exact untold _ _ asking.told

theorem request (attended : Attended system) {request : Request} {store : Store}
    (notLost : NotLost ⟨system, .request request, { system with store := store }⟩)
    (ok : request.run platform system.store = .ok store) :
    Attended { system with store := store } := by
  have asks := attended.asks
  have kept (attends : Attends system.store.board store.board) :
      Attended { system with store := store } :=
    attended.keep attends fun _ session _ _ asking => ⟨session, asking.present, rfl, rfl⟩
  cases Request.effect ok with
  | stands same => exact kept (same ▸ .refl _)
  | settings same => exact kept (same ▸ .of_eq rfl rfl)
  | created absent enqueued =>
    refine kept ?_
    rw [Store.enqueue_board enqueued]
    refine .of_written (.put _ _ _) rfl (.inr (Store.none_pending asks fun run found => ?_))
    rw [absent] at found
    cases found
  | requested present _ same => exact kept (same ▸ Store.withdrawCalls_attends _ present)
  | cancelled present _ same => exact kept (same ▸ Store.withdrawCalls_attends _ present)
  | lapsed found pending target done =>
    refine kept (Store.cancelApproval_attends asks ⟨found, pending⟩ ?_ done)
    rcases target with rfl | rfl
    · simp
    · simp
  | rejected found pending _ _ same =>
    subst same
    refine kept (.of_settled asks ⟨found, pending⟩ ?_ (.modify _ found) fun other distinct => ?_)
    · exact (by simp : ApprovalStatus.rejected ≠ .pending)
    · exact Table.find?_modify_ne _ _ distinct
  | approved found pending _ _ enqueued =>
    refine kept ?_
    rw [Store.enqueue_board enqueued]
    refine .of_settled asks ⟨found, pending⟩ ?_ (.modify _ found) fun other distinct => ?_
    · exact (by simp : ApprovalStatus.approved ≠ .pending)
    · exact Table.find?_modify_ne _ _ distinct
  | expired done =>
    refine kept (Store.foldlM_attends asks (fun current _ _ _ still _ done => ?_) done)
    exact Store.expireApproval_attends still done
  | published _ done =>
    simp only [Store.publish, bind_eq_ok, pure_eq_ok] at done
    obtain ⟨_, _, rfl⟩ := done
    exact kept (.of_eq rfl rfl)
  | @recovered limit orphanSeconds expired orphans now recovered asked first second =>
    subst asked
    have early : Attends system.store.board recovered.board := by
      refine Store.foldlM_attends asks (fun current recovery _ member still attends done => ?_) first
      refine Store.recoverExpired_attends ?_ done
      rintro run found running approvalId approval pending ofRun
      -- The run was executed from the start, by an attempt that had been told to wait.
      obtain ⟨earlier, stood⟩ := attends approvalId approval pending
      obtain ⟨before, beforeFound, _⟩ := asks.run approvalId approval earlier
      obtain ⟨later, laterFound, stands⟩ := stood before beforeFound
      rw [ofRun] at laterFound
      have rows : later = run := Option.some.inj (laterFound.symm.trans found)
      subst rows
      obtain ⟨workerId, session, asking⟩ := attended.told approvalId approval before earlier
        beforeFound (stands.status.symm.trans running)
      exact notLost workerId session approvalId approval asking recovery member ofRun.symm
    refine kept (early.trans ?_)
    refine Store.foldlM_attends (asks.attends early) (fun current _ _ _ still _ done => ?_) second
    exact Store.requeueOrphan_attends still done

theorem claim (attended : Attended system) {workerId : String} {job : WorkerJob}
    {leaseSeconds : Nat} {now : Instant}
    (notLost : NotLost ⟨system, .claim workerId job leaseSeconds now, next⟩)
    (ok : System.run platform system (.claim workerId job leaseSeconds now) = .ok next) :
    Attended next := by
  obtain ⟨idle, store, handed, claimed, rfl⟩ := System.run_claim.mp ok
  -- A run that is claimed is not executed by anyone who has been told to wait.
  have none {run : AgentRun} {profile : ExecutionProfile} {recovered : Store}
      (claimable : system.store.Claimable job run profile)
      (free : Store.Recovered system.store job run now recovered) :
      ∀ approvalId approval, system.store.board.Pending approvalId approval →
        approval.runId ≠ job.runId := by
    rintro approvalId approval pending ofRun
    obtain ⟨row, found, _, _, status⟩ := attended.asks.run approvalId approval pending
    rw [ofRun] at found
    have rows : row = run := Option.some.inj (found.symm.trans claimable.present)
    subst rows
    cases free with
    | queued queued =>
      rw [queued] at status
      rcases status with running | waiting
      · cases running
      · cases waiting
    | expired running expired _ =>
      rw [← ofRun] at found
      obtain ⟨holder, session, asking⟩ := attended.told approvalId approval row pending found running
      have live := notLost holder session approvalId approval asking ofRun.symm row
        claimable.present
      rw [expired] at live
      cases live
  have recovers {run : AgentRun} {profile : ExecutionProfile} {recovered : Store}
      (claimable : system.store.Claimable job run profile)
      (free : Store.Recovered system.store job run now recovered) :
      Attends system.store.board recovered.board := by
    have nothing := none claimable free
    cases free with
    | queued => exact .refl _
    | expired running expired taken =>
      have taken_ : Attends (system.store.supersedeReceipts job.runId false).board
          recovered.board := Store.updateRun_attends claimable.present nothing taken
      exact taken_
  have attends : Attends system.store.board store.board := by
    cases Store.claim_effect claimed with
    | untouched => exact .refl _
    | answered => exact .of_eq rfl rfl
    | cancelled run profile recovered _ claimable free requested done =>
      have early := recovers claimable free
      obtain ⟨row, found, _⟩ := free.row claimable.present
      refine early.trans (Store.cancelLocked_attends found ?_ done)
      intro approvalId approval pending
      exact none claimable free approvalId approval (early approvalId approval pending).1
    | started run profile recovered _ claimable _ free requested done =>
      have early := recovers claimable free
      obtain ⟨row, found, _⟩ := free.row claimable.present
      refine early.trans ?_
      simp only [Store.startAttempt, bind_eq_ok, pure_eq_ok] at done
      obtain ⟨started, moved, rfl⟩ := done
      have begun : Attends recovered.board started.board := by
        refine Store.updateRun_attends found ?_ moved
        intro approvalId approval pending
        exact none claimable free approvalId approval (early approvalId approval pending).1
      exact begun
  refine attended.keep attends fun other session approvalId approval asking => ?_
  refine ⟨session, ?_, rfl, rfl⟩
  have distinct : other ≠ workerId := by
    rintro rfl
    have there := idle.symm.trans asking.present
    cases there
  cases handed with
  | none => exact asking.present
  | some context => simp [distinct, asking.present]

/-- An attempt ends that has not been told to wait. -/
theorem finish_untold (attended : Attended system) {workerId : String} {delay now : Instant}
    {store : Store} {run : AgentRun} (present : system.sessions.find? workerId = some session)
    (owned : system.store.ownedProcessing session.job workerId now = some run)
    (untold : ∀ toolCallId approvalId,
      session.stage ≠ .raised (.approvalRequired toolCallId approvalId))
    (ok : Run.finish system.store workerId session newJobId delay now = .ok (store, handled)) :
    Attends system.store.board store.board := by
  have owns := Store.owns_of_ownedProcessing owned
  obtain ⟨lease, leased, owner, _⟩ := owns.held
  have none := attended.none_pending present owns.present owns.running (by simp [leased, owner])
    untold
  cases finish_effect ok with
  | stands same => exact same ▸ .refl _
  | cancelled _ _ done => exact Store.cancelLocked_attends owns.present none done
  | waiting told => exact absurd told (untold _ _)
  | ended _ _ _ _ done closed =>
    subst closed
    exact (Store.updateRun_attends owns.present none done :)
  | retried _ done enqueued =>
    rw [Store.enqueue_board enqueued]
    exact (Store.updateRun_attends owns.present none done :)

/-- An attempt that has been told to wait parks its run. -/
theorem park (attended : Attended system) {workerId : String} {now : Instant} {store : Store}
    {run : AgentRun} (present : system.sessions.find? workerId = some session)
    (owns : system.store.Owns session.job workerId now run)
    (notCancelled : run.cancelRequestedAt = none)
    (ok : system.store.leaveRun session.job.runId .waitingForApproval now = .ok store) :
    Attended {
      store := store.closeReceipt session.job.jobId .superseded
      sessions := system.sessions.erase workerId } := by
  rw [Store.leaveRun, Store.updateRun_eq_ok] at ok
  obtain ⟨_, rfl⟩ := ok
  have runs := Table.Written.modify (fun run : AgentRun =>
    { run with status := .waitingForApproval, lease := none, updatedAt := now }) owns.present
  refine ⟨⟨?_, ?_⟩, ?_⟩
  · intro approvalId approval pending
    obtain ⟨row, found, workspace, _, status⟩ := attended.asks.run approvalId approval pending
    by_cases same : approval.runId = session.job.runId
    · rw [same] at found ⊢
      have rows : row = run := Option.some.inj (found.symm.trans owns.present)
      subst rows
      exact ⟨_, runs.self, workspace, notCancelled, .inr rfl⟩
    · exact ⟨row, (runs.other same).trans found, workspace, by assumption, status⟩
  · intro left leftRow right rightRow leftPending rightPending same
    exact attended.asks.single left leftRow right rightRow leftPending rightPending same
  · intro approvalId approval later pending found running
    rcases runs.found found with ⟨_, rfl⟩ | ⟨distinct, earlier⟩
    · cases running
    · obtain ⟨other, session', asking⟩ := attended.told approvalId approval later pending earlier
        running
      have otherWorker : other ≠ workerId := by
        rintro rfl
        have sessions := asking.present.symm.trans present
        cases sessions
        exact distinct asking.ofRun.symm
      obtain ⟨row, rowFound, _, owner⟩ := asking.holds
      have rows : row = later := Option.some.inj (rowFound.symm.trans earlier)
      subst rows
      refine ⟨other, session', pending, ⟨row, found, running, owner⟩,
        ?_, asking.ofRun, asking.told⟩
      rw [Table.find?_erase, if_neg otherWorker]
      exact asking.present

theorem finish (attended : Attended system) {workerId : String} {delay now : Instant}
    (notLost : NotLost ⟨system, .finish workerId newJobId delay now, next⟩)
    (ok : System.run platform system (.finish workerId newJobId delay now) = .ok next) :
    Attended next := by
  obtain ⟨session, store, handled, present, done, rfl⟩ := System.run_finish.mp ok
  have kept (attends : Attends system.store.board store.board)
      (unasked : ∀ approvalId approval, ¬ Asking system workerId session approvalId approval) :
      Attended { store := store, sessions := system.sessions.erase workerId } := by
    refine attended.keep attends fun other session' approvalId approval asking => ?_
    have distinct : other ≠ workerId := by
      rintro rfl
      have sessions := asking.present.symm.trans present
      cases sessions
      exact unasked approvalId approval asking
    refine ⟨session', ?_, rfl, rfl⟩
    rw [Table.find?_erase, if_neg distinct]
    exact asking.present
  have told (approvalId : Uuid) (approval : ToolApproval)
      (asking : Asking system workerId session approvalId approval) :
      now < approval.expiresAt ∧
        (system.store.ownedProcessing session.job workerId now).isSome = true :=
    notLost workerId session approvalId approval asking rfl
  cases owned : system.store.ownedProcessing session.job workerId now with
  | none =>
    have same := finish_unowned owned done
    refine kept (by rw [same]; exact .refl _) fun approvalId approval asking => ?_
    have held := (told approvalId approval asking).2
    rw [owned] at held
    cases held
  | some run =>
    have owns := Store.owns_of_ownedProcessing owned
    by_cases waits : ∃ toolCallId approvalId,
        session.stage = .raised (.approvalRequired toolCallId approvalId)
    · obtain ⟨toolCallId, approvalId, stage⟩ := waits
      unfold Run.finish at done
      rw [stage] at done
      simp only [Store.waitForApproval, owned] at done
      split at done
      case isTrue requested =>
        -- Nothing is pending of a run that is to be cancelled.
        have none : ∀ approvalId approval, system.store.board.Pending approvalId approval →
            approval.runId ≠ session.job.runId := by
          refine Store.none_pending attended.asks fun other found notCancelled => ?_
          have rows : other = run := Option.some.inj (found.symm.trans owns.present)
          subst rows
          rw [notCancelled] at requested
          cases requested
        simp only [bind_eq_ok, pure_eq_ok, Prod.mk.injEq] at done
        obtain ⟨_, cancelled, rfl, _⟩ := done
        refine kept (Store.cancelLocked_attends owns.present none cancelled) ?_
        intro approvalId approval asking
        exact none approvalId approval asking.pending asking.ofRun.symm
      case isFalse notCancelled =>
        split at done
        case isTrue =>
          simp only [bind_eq_ok, pure_eq_ok, Prod.mk.injEq] at done
          obtain ⟨_, parked, rfl, _⟩ := done
          exact attended.park present owns (by simpa using notCancelled) parked
        case isFalse refused =>
          cases done
          refine kept (.refl _) fun otherId approval asking => refused ?_
          have stages := stage.symm.trans asking.told
          cases stages
          obtain ⟨row, found, workspace, _⟩ := attended.asks.run approvalId approval asking.pending
          rw [← asking.ofRun] at found
          have rows : row = run := Option.some.inj (found.symm.trans owns.present)
          subst rows
          have ofRun := asking.ofRun.symm
          have sameWorkspace := workspace.symm.trans owns.workspace
          have status := asking.pending.2
          have early := (told approvalId approval asking).1
          rw [Option.any_eq_true]
          exact ⟨approval, asking.pending.1, by simp [ofRun, sameWorkspace, status, early]⟩
    · have untold (toolCallId approvalId : Uuid) :
          session.stage ≠ .raised (.approvalRequired toolCallId approvalId) :=
        fun stage => waits ⟨toolCallId, approvalId, stage⟩
      refine kept (attended.finish_untold present owned untold done) ?_
      intro approvalId approval asking
      exact untold _ _ asking.told

/-- While it is told to wait, an attempt does nothing but extend its leases. -/
theorem renews_of_raised {store after : Store} {workerId : String} {error : ExecutionError}
    (raised : session.stage = .raised error)
    (ok : action.run platform store workerId session = some (after, stage)) :
    ∃ leaseSeconds now, action = .renewLease leaseSeconds now ∧ stage = session.stage := by
  cases action with
  | renewLease leaseSeconds now =>
    cases ok
    exact ⟨leaseSeconds, now, rfl, rfl⟩
  | _ => simp [Action.run, raised, Stage.planned?, Stage.dispatched?, Stage.unavailable?,
      Stage.invalidResult?] at ok

/-- An attempt that plans a call has been told nothing yet. -/
theorem executing_of_prepareCall {store after : Store} {workerId : String} {clock now : Instant}
    (ok : Action.run platform store workerId session
      (.prepareCall callKey toolName arguments callId approvalId clock now) = some (after, stage)) :
    session.stage = .executing := by
  simp only [Action.run, Option.bind_eq_bind, Option.bind_eq_some_iff, Option.guard_eq_some'] at ok
  obtain ⟨_, executing, _⟩ := ok
  exact executing

theorem act (attended : Attended system) {history : List (Transition System Label)}
    (attempts : Attempts history system) {workerId : String}
    (ok : System.run platform system (.act workerId action) = .ok next) : Attended next := by
  obtain ⟨session, store, stage, present, done, rfl⟩ := System.run_act.mp ok
  have kept (attends : Attends system.store.board store.board) :
      Attended { store := store, sessions := system.sessions.put workerId (session.at stage) } := by
    refine attended.keep attends fun other session' approvalId approval asking => ?_
    by_cases same : other = workerId
    · subst same
      have sessions := asking.present.symm.trans present
      cases sessions
      obtain ⟨_, _, _, unchanged⟩ := renews_of_raised asking.told done
      exact ⟨session.at stage, by simp, rfl, unchanged⟩
    · exact ⟨session', by simp [same, asking.present], rfl, rfl⟩
  have effect := Action.effect done
  cases effect with
  | renewed leaseSeconds now => exact kept (Store.renewLease_attends _ _ _ _ _ _)
  | wrote entry written =>
    obtain ⟨_, _, _, _, rfl⟩ := (Write.run_onlyJournal written).1
    exact kept (.of_eq rfl rfl)
  | embedded record =>
    obtain ⟨_, _, _, _, written⟩ := Store.recordSpend_onlyJournal system.store
      session.context.workspaceId (.runRetrieval session.context.runId) record
    refine kept ?_
    rw [Store.recordEmbeddingSpend, written]
    exact .of_eq rfl rfl
  | started at_ started =>
    obtain ⟨_, _, _, _, rfl⟩ := Store.markRunning_eq_ok started
    exact kept (.of_eq rfl rfl)
  | succeeded at_ recorded =>
    obtain ⟨_, ⟨_, rfl⟩ | ⟨_, _, _, rfl⟩⟩ := Store.completeCallSuccess_eq_ok recorded
    · exact kept (.refl _)
    · exact kept (.of_eq rfl rfl)
  | failed clocked recorded =>
    obtain ⟨_, _, ⟨_, rfl⟩ | ⟨_, _, _, rfl⟩⟩ := Store.completeCallFailure_eq_ok recorded
    · exact kept (.refl _)
    · exact kept (.of_eq rfl rfl)
  | unchanged => exact kept (.refl _)
  | @planned _ _ _ _ _ _ _ _ plan prepared =>
    obtain ⟨run, passed, attends | ⟨approvalId, approval, asksFor⟩⟩ :=
      Store.prepareCall_attends prepared
    · exact kept attends
    -- Nothing was pending of the run, since its attempt had not been told to wait.
    have executing := executing_of_prepareCall done
    have working := attempts.sessions workerId session present
    have holds := Store.holds_of_executableRun passed
    obtain ⟨_, lease, leased, owner⟩ := attempts.latest_of_executable working.handed passed
    have none := attended.none_pending present holds.present holds.running
      (by simp [leased, owner]) (by simp [executing])
    have runs (runId : Uuid) :
        store.agentRuns.find? runId = system.store.agentRuns.find? runId := by
      rw [asksFor.runs]
    have asked : store.agentRuns.find? approval.runId = some run := by
      rw [runs, asksFor.ofRun]
      exact holds.present
    refine ⟨⟨?_, ?_⟩, ?_⟩
    · rintro otherId other ⟨found, pending⟩
      rcases asksFor.approvals.found found with ⟨_, rfl⟩ | ⟨_, earlier⟩
      · exact ⟨run, asked, asksFor.workspace.symm, holds.notCancelled, .inl holds.running⟩
      · obtain ⟨row, rowFound, stands⟩ := attended.asks.run otherId other ⟨earlier, pending⟩
        exact ⟨row, (runs _).trans rowFound, stands⟩
    · rintro left leftRow right rightRow ⟨leftFound, leftPending⟩ ⟨rightFound, rightPending⟩ same
      rcases asksFor.approvals.found leftFound with ⟨rfl, rfl⟩ | ⟨_, leftEarlier⟩
      · rcases asksFor.approvals.found rightFound with ⟨rfl, _⟩ | ⟨_, rightEarlier⟩
        · rfl
        · exact absurd (same.symm.trans asksFor.ofRun)
            (none right rightRow ⟨rightEarlier, rightPending⟩)
      · rcases asksFor.approvals.found rightFound with ⟨_, rfl⟩ | ⟨_, rightEarlier⟩
        · exact absurd (same.trans asksFor.ofRun) (none left leftRow ⟨leftEarlier, leftPending⟩)
        · exact attended.asks.single left leftRow right rightRow ⟨leftEarlier, leftPending⟩
            ⟨rightEarlier, rightPending⟩ same
    · rintro otherId other row ⟨found, pending⟩ rowFound running
      have there : store.board.Pending otherId other := ⟨found, pending⟩
      rcases asksFor.approvals.found found with ⟨rfl, rfl⟩ | ⟨_, earlier⟩
      · refine ⟨workerId, session.at (.ofPlan plan), there,
          ⟨run, asked, holds.running, by simp [leased, owner]⟩, by simp, ?_, ?_⟩
        · rw [asksFor.ofRun, working.runId]
          rfl
        · rw [← asksFor.ofCall]
          simp only [Session.at, Stage.ofPlan, asksFor.answer]
      · obtain ⟨holder, session', asking⟩ := attended.told otherId other row ⟨earlier, pending⟩
          ((runs _).symm.trans rowFound) running
        obtain ⟨held, heldFound, heldRunning, heldOwner⟩ := asking.holds
        have distinct : holder ≠ workerId := by
          rintro rfl
          have sessions := asking.present.symm.trans present
          cases sessions
          have stages := executing.symm.trans asking.told
          cases stages
        exact ⟨holder, session', there, ⟨held, (runs _).trans heldFound, heldRunning, heldOwner⟩,
          by simp [distinct, asking.present], asking.ofRun, asking.told⟩

theorem crash (attended : Attended system) {workerId : String}
    (notLost : NotLost ⟨system, .crash workerId, next⟩)
    (ok : System.run platform system (.crash workerId) = .ok next) : Attended next := by
  obtain rfl := System.run_crash.mp ok
  refine attended.keep (.refl _) fun other session approvalId approval asking => ?_
  have distinct : workerId ≠ other := notLost other session approvalId approval asking
  refine ⟨session, ?_, rfl, rfl⟩
  rw [Table.find?_erase, if_neg (Ne.symm distinct)]
  exact asking.present

/-- A step at which no attempt is lost that has been told to wait keeps everything pending
attended to. -/
theorem step (attended : Attended system) {history : List (Transition System Label)}
    (attempts : Attempts history system) (notLost : NotLost ⟨system, label, next⟩)
    (ok : System.run platform system label = .ok next) : Attended next := by
  cases label with
  | request request =>
    obtain ⟨store, done, rfl⟩ := System.run_request.mp ok
    exact attended.request notLost done
  | claim => exact attended.claim notLost ok
  | act => exact attended.act attempts ok
  | finish => exact attended.finish notLost ok
  | crash => exact attended.crash notLost ok

end Attended

section Histories

variable {platform : Platform} {history : List (Transition System Label)} {system : System}

theorem attended_of_runs (runs : (machine platform).Runs history system)
    (notLost : ∀ transition ∈ history, NotLost transition) : Attended system := by
  refine runs.invariantWithHistoryWhile (fun _ system => Attended system) NotLost ?_ ?_ notLost
  · intro opening valid
    exact .opening valid
  · intro history system label next prior attended ok notLost
    exact attended.step (attempts_of_runs prior) notLost ok

/-- No pending approval outlives its run, while no attempt is lost between being told to wait
for it and parking the run. -/
theorem no_approval_outlives_run (runs : (machine platform).Runs history system)
    (notLost : ∀ transition ∈ history, NotLost transition) {runId approvalId : Uuid}
    {run : AgentRun} {approval : ToolApproval}
    (found : system.store.agentRuns.find? runId = some run)
    (terminal : run.status.isTerminal = true)
    (asked : system.store.toolApprovals.find? approvalId = some approval)
    (ofRun : approval.runId = runId) : approval.status ≠ .pending := by
  intro pending
  have attended := attended_of_runs runs notLost
  obtain ⟨row, rowFound, _, _, status⟩ := attended.asks.run approvalId approval ⟨asked, pending⟩
  rw [ofRun] at rowFound
  have rows : row = run := Option.some.inj (rowFound.symm.trans found)
  subst rows
  rcases status with running | waiting
  · rw [running] at terminal
    cases terminal
  · rw [waiting] at terminal
    cases terminal

end Histories

/-- Nothing is pending when a run is claimed or recovered or a worker stops, and an attempt that
ends still owns its run, with every approval unexpired. -/
def losesNobody (transition : Transition System Label) : Bool :=
  match transition.label with
  | .finish workerId _ _ now =>
    ((transition.before.sessions.find? workerId).all fun session =>
      (transition.before.store.ownedProcessing session.job workerId now).isSome) &&
    !transition.before.store.toolApprovals.any fun _ approval => approval.expiresAt ≤ now
  | .claim .. | .crash .. | .request (.recoverStale ..) =>
    !transition.before.store.toolApprovals.any fun _ approval => approval.status = .pending
  | _ => true

theorem notLost_of_losesNobody {transition : Transition System Label}
    (nobody : losesNobody transition = true) : NotLost transition := by
  intro workerId session approvalId approval asking
  obtain ⟨before, label, after⟩ := transition
  have asked : (before.store.toolApprovals.any fun _ approval => approval.status = .pending) =
      true := by
    rw [Table.any_eq_true]
    exact ⟨approvalId, approval, asking.pending.1, by simp [asking.pending.2]⟩
  have contradictory {goal : Prop} (none : (!before.store.toolApprovals.any fun _ approval =>
      approval.status = .pending) = true) : goal := by
    rw [asked] at none
    cases none
  cases label with
  | finish other newJobId delay now =>
    rintro rfl
    simp only [losesNobody, asking.present, Option.all_some, Bool.and_eq_true,
      Bool.not_eq_true'] at nobody
    obtain ⟨owned, unexpired⟩ := nobody
    refine ⟨?_, owned⟩
    by_contra expired
    have late : (before.store.toolApprovals.any fun _ approval => approval.expiresAt ≤ now) =
        true := by
      rw [Table.any_eq_true]
      exact ⟨approvalId, approval, asking.pending.1, by simpa using expired⟩
    rw [unexpired] at late
    cases late
  | claim => exact contradictory nobody
  | crash => exact contradictory nobody
  | act => trivial
  | request request =>
    cases request with
    | recoverStale => exact contradictory nobody
    | _ => trivial

/-- A call of the example's run is asked about, and the run waits for the answer. -/
def waitingCall : List Label :=
  [exampleUpsertTool, exampleSetPolicy .requireApproval, exampleCreateRun,
    .claim "worker" (exampleJob 5) 30 0, .act "worker" (examplePrepareCall 1),
    .finish "worker" 9 0 2]

theorem no_approval_outlives_run_rejected : ∃ history system run approval,
    (machine examplePlatform).Runs history system ∧
      system.store.agentRuns.find? 3 = some run ∧ run.status = .cancelled ∧
      system.store.toolApprovals.find? 8 = some approval ∧ approval.status ≠ .pending := by
  obtain ⟨history, system, runs, checked⟩ := Machine.exists_run_of_trace Opening
    (System.run examplePlatform)
    (waitingCall ++ [.request (.decideApproval exampleOwner 1 8 .rejected 10 3)]) exampleOpening
    (fun history system => history.all losesNobody &&
      ((system.store.agentRuns.find? 3).any fun run => run.status = .cancelled) &&
      (system.store.toolApprovals.find? 8).any fun approval => approval.runId = 3)
    (opening_openingWith _ _) (by decide +kernel)
  simp only [Bool.and_eq_true, List.all_eq_true] at checked
  obtain ⟨⟨nobody, ended⟩, asked⟩ := checked
  obtain ⟨run, found, cancelled⟩ := (Option.any_eq_true _ _).mp ended
  obtain ⟨approval, askedFor, ofRun⟩ := (Option.any_eq_true _ _).mp asked
  have status := of_decide_eq_true cancelled
  exact ⟨history, system, run, approval, runs, found, status, askedFor,
    no_approval_outlives_run runs (fun transition member =>
      notLost_of_losesNobody (nobody transition member)) found (by rw [status]; rfl) askedFor
      (of_decide_eq_true ofRun)⟩

/-- A worker stops after its call has been asked about; the next attempt succeeds without it. -/
theorem abandoned_approval_outlives_run : ∃ history system run approval,
    (machine examplePlatform).Runs history system ∧
      system.store.agentRuns.find? 3 = some run ∧ run.status = .succeeded ∧
      system.store.toolApprovals.find? 8 = some approval ∧ approval.runId = 3 ∧
      approval.status = .pending := by
  obtain ⟨history, system, runs, checked⟩ := Machine.exists_run_of_trace Opening
    (System.run examplePlatform)
    (waitingCall.dropLast ++ [.crash "worker",
      .request (.recoverStale 1 60 [(3, 20)] [] (seconds 40)),
      .claim "other" (exampleJob 20) 30 (seconds 40), .act "other" .executorReturns,
      .finish "other" 21 0 (seconds 41)]) exampleOpening
    (fun _ system =>
      ((system.store.agentRuns.find? 3).any fun run => run.status = .succeeded) &&
      (system.store.toolApprovals.find? 8).any fun approval =>
        approval.runId = 3 && approval.status = .pending)
    (opening_openingWith _ _) (by decide +kernel)
  rw [Bool.and_eq_true] at checked
  obtain ⟨ended, asked⟩ := checked
  obtain ⟨run, found, succeeded⟩ := (Option.any_eq_true _ _).mp ended
  obtain ⟨approval, askedFor, both⟩ := (Option.any_eq_true _ _).mp asked
  rw [Bool.and_eq_true] at both
  exact ⟨history, system, run, approval, runs, found, of_decide_eq_true succeeded, askedFor,
    of_decide_eq_true both.1, of_decide_eq_true both.2⟩

end Nexora.Run
