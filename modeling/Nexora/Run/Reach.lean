import Nexora.Run.Board
import Nexora.Run.System

/-!
# Every step is a sequence of moves

One lemma for each operation of the store: what it does to the board is a sequence of moves,
with what the operation has read before it writes.
-/

namespace Nexora.Run

open Nexora.Std Nexora.Workspace Nexora.Tools Json Board

namespace Board

variable {first second third : Board}

theorem Reaches.refl (board : Board) : Reaches board board := Relation.ReflTransGen.refl

theorem Reaches.trans (early : Reaches first second) (late : Reaches second third) :
    Reaches first third := Relation.ReflTransGen.trans early late

theorem Move.reaches (move : Move first second) : Reaches first second :=
  Relation.ReflTransGen.single move

/-- What every move keeps, a sequence of moves keeps. -/
theorem Reaches.keeps {Inv : Board → Prop}
    (kept : ∀ before after, Inv before → Move before after → Inv after)
    (reaches : Reaches first second) (holds : Inv first) : Inv second := by
  induction reaches with
  | refl => exact holds
  | tail _ move ih => exact kept _ _ ih move

end Board

variable {approvalId runId : Uuid} {session : Session} {label : Label}

namespace Store

variable {store next : Store} {job : WorkerJob} {workerId : String} {now : Instant}
  {recovery : Uuid × Uuid}

/-- An update of a run that is found is a move. -/
theorem updateRun_move {run : AgentRun} {change : AgentRun → AgentRun}
    (found : store.agentRuns.find? runId = some run)
    (changes : RunChange store.board runId run (change run))
    (ok : store.updateRun runId change = .ok next) : Move store.board next.board := by
  rw [updateRun_eq_ok] at ok
  obtain ⟨_, rfl⟩ := ok
  exact .run found changes (.modify change found) rfl rfl

theorem enqueue_board {jobId : Uuid} {run : AgentRun} {availableAt : Instant}
    (ok : store.enqueue jobId run runId availableAt = .ok next) : next.board = store.board := by
  simp only [enqueue, bind_eq_ok, pure_eq_ok] at ok
  obtain ⟨_, _, rfl⟩ := ok
  rfl

theorem cancelLocked_move {run : AgentRun} (found : store.agentRuns.find? job.runId = some run)
    (status : run.status = .running ∨ run.status = .queued)
    (requested : run.cancelRequestedAt.isSome = true)
    (ok : store.cancelLocked job workerId now = .ok next) : Move store.board next.board := by
  simp only [cancelLocked, bind_eq_ok, pure_eq_ok] at ok
  obtain ⟨cancelled, done, rfl⟩ := ok
  have moved : Move store.board cancelled.board :=
    updateRun_move found (.halted status requested) done
  exact moved

theorem renewLease_move (store : Store) (jobId runId : Uuid) (workerId : String)
    (leaseSeconds : Nat) (now : Instant) :
    Reaches store.board (store.renewLease jobId runId workerId leaseSeconds now).board := by
  cases found : store.agentRuns.find? runId with
  | none =>
    have same : (store.renewLease jobId runId workerId leaseSeconds now).board = store.board := by
      simp only [renewLease, board, Table.modify, found]
    rw [same]
    exact .refl _
  | some run =>
    refine Move.reaches (.run found ?_ (.modify _ found) rfl rfl)
    split
    case isTrue holds =>
      obtain ⟨running, _, owner⟩ := holds
      obtain ⟨lease, leased, same⟩ := (Option.any_eq_true _ _).mp owner
      exact .renewed running leased (of_decide_eq_true same).symm
    case isFalse => exact .kept

theorem finish_reaches {newJobId : Uuid} {delay : Instant} {handled : Bool}
    (ok : finish store workerId session newJobId delay now = .ok (next, handled)) :
    Reaches store.board next.board := by
  cases finish_effect ok with
  | stands same => exact same ▸ .refl _
  | cancelled owned requested done =>
    have owns := owns_of_ownedProcessing owned
    exact (cancelLocked_move owns.present (.inl owns.running) requested done).reaches
  | waiting _ owned notRequested found pending ofRun workspace done closed =>
    have owns := owns_of_ownedProcessing owned
    subst closed
    exact (updateRun_move owns.present (.parked owns.running notRequested found pending ofRun
      (workspace.trans owns.workspace.symm)) done).reaches
  | ended owned notRequested _ result done closed =>
    have owns := owns_of_ownedProcessing owned
    subst closed
    exact (updateRun_move owns.present
      (.ended owns.running notRequested (result.imp And.left id)) done).reaches
  | retried owned done enqueued =>
    have owns := owns_of_ownedProcessing owned
    rw [enqueue_board enqueued]
    exact (updateRun_move owns.present (.requeued owns.running) done).reaches

/-- A fold of steps that are sequences of moves. -/
theorem foldlM_reaches {Item : Type} {step : Store → Item → Except Raised Store}
    {items : List Item}
    (each : ∀ store item next, step store item = .ok next → Reaches store.board next.board)
    (ok : items.foldlM step store = .ok next) : Reaches store.board next.board :=
  foldlM_invariant (fun current => Reaches store.board current.board)
    (fun current item _ after before done => before.trans (each current item after done))
    (.refl _) ok

theorem recoverExpired_reaches (ok : recoverExpired now store recovery = .ok next) :
    Reaches store.board next.board := by
  simp only [recoverExpired, bind_eq_ok, orRaise_eq_ok, Option.filter_eq_some_iff,
    Bool.and_eq_true, decide_eq_true_eq] at ok
  obtain ⟨run, ⟨found, running, _⟩, queued, taken, enqueued⟩ := ok
  have moved : Move (store.supersedeReceipts recovery.1 true).board queued.board :=
    updateRun_move found (.requeued running) taken
  rw [enqueue_board enqueued]
  exact moved.reaches

theorem requeueOrphan_reaches {orphanSeconds : Nat}
    (ok : requeueOrphan orphanSeconds now store recovery = .ok next) :
    Reaches store.board next.board := by
  simp only [requeueOrphan, bind_eq_ok, orRaise_eq_ok, Option.filter_eq_some_iff,
    Bool.and_eq_true, decide_eq_true_eq] at ok
  obtain ⟨run, ⟨found, ⟨queued, _⟩, _⟩, touched, done, enqueued⟩ := ok
  have moved : Move store.board touched.board := updateRun_move found (.touched queued) done
  rw [enqueue_board enqueued]
  exact moved.reaches

theorem cancelApproval_move {approval : ToolApproval} {status : ApprovalStatus}
    (found : store.toolApprovals.find? approvalId = some approval)
    (pending : approval.status = .pending) (target : status = .expired ∨ status = .cancelled)
    (ok : store.cancelApproval approvalId approval status now = .ok next) :
    Move store.board next.board := by
  simp only [cancelApproval, bind_eq_ok, updateApproval_eq_ok, updateCall_eq_ok] at ok
  obtain ⟨_, ⟨_, rfl⟩, withdrawn, ⟨_, written⟩, ok⟩ := ok
  have approvals := Table.Written.modify (fun row : ToolApproval =>
    if row.status = .pending then { row with status := status } else row) found
  rw [if_pos pending] at approvals
  have board : withdrawn.board = {
      runs := store.agentRuns
      calls := store.toolCalls.modify approval.toolCallId fun call =>
        call.closed (py status.text)
      approvals := store.toolApprovals.modify approvalId fun row =>
        if row.status = .pending then { row with status := status } else row } := by
    rw [written]
    rfl
  -- Only the approval's own run, if it is there and has not ended, changes.
  have untouched (runs : Table Uuid AgentRun) (same : runs = store.agentRuns)
      (stays : ∀ run, store.agentRuns.find? approval.runId = some run →
        run.lapsed approval.workspaceId now = run) (id : Uuid) :
      runs.find? id = (store.agentRuns.find? id).map fun run =>
        if id = approval.runId then run.lapsed approval.workspaceId now else run := by
    rw [same]
    cases present : store.agentRuns.find? id with
    | none => rfl
    | some run =>
      rw [Option.map_some]
      split
      · rename_i isRun
        subst isRun
        rw [stays run present]
      · rfl
  have runs : withdrawn.agentRuns = store.agentRuns := congrArg Board.runs board
  have kept (same : next = withdrawn)
      (stays : ∀ run, store.agentRuns.find? approval.runId = some run →
        run.lapsed approval.workspaceId now = run) : Move store.board next.board := by
    refine .lapsed found pending target (untouched _ (by rw [same]; exact runs) stays) ?_ ?_
    · rw [same, board]
      rfl
    · rw [same, board]
      exact approvals
  split at ok
  case h_1 absent =>
    cases ok
    refine kept rfl fun run present => ?_
    have mismatch : run.workspaceId ≠ approval.workspaceId := by
      intro workspace
      have there := (runIn_eq_some _ _ _ run).mpr ⟨runs ▸ present, workspace⟩
      rw [absent] at there
      cases there
    simp [AgentRun.lapsed, mismatch]
  case h_2 run there =>
    obtain ⟨present, workspace⟩ := (runIn_eq_some _ _ _ _).mp there
    rw [runs] at present
    split at ok
    case isTrue status =>
      rw [leaveRun, updateRun_eq_ok] at ok
      obtain ⟨_, rfl⟩ := ok
      refine @Move.lapsed _ _ _ _ _ now found pending target ?_ ?_ ?_
      · intro id
        simp only [Store.board, runs, Table.find?_modify]
        split
        · rename_i isRun
          rw [isRun, present]
          simp [AgentRun.lapsed, workspace, status]
        · simp
      · exact congrArg Board.calls board
      · have same := congrArg Board.approvals board
        change store.toolApprovals.Written withdrawn.toolApprovals _ _
        rw [show withdrawn.toolApprovals = _ from same]
        exact approvals
    case isFalse status =>
      cases ok
      refine kept rfl fun other otherPresent => ?_
      rw [present] at otherPresent
      cases otherPresent
      simp [AgentRun.lapsed, status]

theorem expireApproval_reaches (ok : expireApproval now store approvalId = .ok next) :
    Reaches store.board next.board := by
  simp only [expireApproval, bind_eq_ok, orRaise_eq_ok, Option.filter_eq_some_iff,
    Bool.and_eq_true, decide_eq_true_eq] at ok
  obtain ⟨approval, ⟨found, pending, _⟩, ok⟩ := ok
  exact (cancelApproval_move found pending (.inl rfl) ok).reaches

end Store

/-- A request is a sequence of moves. -/
theorem Request.run_reaches {platform : Platform} {store next : Store} {request : Request}
    (ok : request.run platform store = .ok next) : Reaches store.board next.board := by
  cases Request.effect ok with
  | stands same => exact same ▸ .refl _
  | settings same => exact same ▸ .refl _
  | created absent enqueued =>
    rw [Store.enqueue_board enqueued]
    exact Move.reaches (.created absent rfl rfl rfl (.put _ _ _) rfl rfl)
  | requested present running same =>
    exact same ▸ Move.reaches (.withdrawn present (.requested running) (.modify _ present) rfl rfl)
  | cancelled present idle same =>
    exact same ▸ Move.reaches (.withdrawn present (.cancelled idle) (.modify _ present) rfl rfl)
  | lapsed found pending target done =>
    exact (Store.cancelApproval_move found pending target done).reaches
  | rejected found pending present waiting same =>
    exact same ▸ Move.reaches (.rejected found pending present waiting (.modify _ present) rfl
      (.modify _ found))
  | approved found pending present waiting enqueued =>
    rw [Store.enqueue_board enqueued]
    exact Move.reaches (.approved found pending present waiting (.modify _ present) rfl
      (.modify _ found))
  | expired done => exact Store.foldlM_reaches (fun _ _ _ => Store.expireApproval_reaches) done
  | recovered _ first second =>
    exact (Store.foldlM_reaches (fun _ _ _ => Store.recoverExpired_reaches) first).trans
      (Store.foldlM_reaches (fun _ _ _ => Store.requeueOrphan_reaches) second)
  | published _ done =>
    simp only [Store.publish, bind_eq_ok, pure_eq_ok] at done
    obtain ⟨_, _, rfl⟩ := done
    exact .refl _

namespace Store

variable {store next recovered : Store} {job : WorkerJob} {workerId : String} {now : Instant}
  {leaseSeconds : Nat} {run : AgentRun} {profile : ExecutionProfile}

theorem Recovered.reaches (free : Recovered store job run now recovered)
    (present : store.agentRuns.find? job.runId = some run) :
    Reaches store.board recovered.board := by
  cases free with
  | queued => exact .refl _
  | expired running _ ok =>
    have moved : Move (store.supersedeReceipts job.runId false).board recovered.board :=
      updateRun_move present (.requeued running) ok
    exact moved.reaches

/-- A recovered run is queued, and is asked to stop if it was. -/
theorem Recovered.row (free : Recovered store job run now recovered)
    (present : store.agentRuns.find? job.runId = some run) :
    ∃ row, recovered.agentRuns.find? job.runId = some row ∧ row.status = .queued ∧
      row.attemptCount = run.attemptCount ∧ row.cancelRequestedAt = run.cancelRequestedAt := by
  cases free with
  | queued status => exact ⟨run, present, status, rfl, rfl⟩
  | expired running _ ok =>
    rw [leaveRun, updateRun_eq_ok] at ok
    obtain ⟨_, rfl⟩ := ok
    refine ⟨{ run with status := .queued, lease := none, updatedAt := now }, ?_, rfl, rfl, rfl⟩
    simp [supersedeReceipts, present]

/-- A claim that hands out a context recovers its run, if it has to, and starts an attempt. -/
theorem claim_reaches {handed : Option ExecutionContext}
    (ok : store.claim job workerId leaseSeconds now = .ok (next, handed)) :
    (handed = none ∧ Reaches store.board next.board) ∨
      ∃ context middle row, handed = some context ∧ context.runId = job.runId ∧
        context.attemptCount = row.attemptCount + 1 ∧ Reaches store.board middle ∧
        Starts middle next.board job.runId row := by
  cases claim_effect ok with
  | untouched => exact .inl ⟨rfl, .refl _⟩
  | answered => exact .inl ⟨rfl, .refl _⟩
  | cancelled run profile recovered _ claimable free requested done =>
    obtain ⟨row, found, queued, _, same⟩ := free.row claimable.present
    refine .inl ⟨rfl, (free.reaches claimable.present).trans ?_⟩
    exact (cancelLocked_move found (.inr queued) (same ▸ requested) done).reaches
  | started run profile recovered _ claimable idle free requested done =>
    obtain ⟨row, found, queued, attempts, same⟩ := free.row claimable.present
    simp only [startAttempt, bind_eq_ok, updateRun_eq_ok, pure_eq_ok] at done
    obtain ⟨_, ⟨_, rfl⟩, rfl⟩ := done
    refine .inr ⟨_, _, row, rfl, rfl, ?_, free.reaches claimable.present, ?_⟩
    · rw [attempts]
      rfl
    · exact ⟨found, queued, same.trans requested, ⟨_, _, .modify _ found⟩, rfl, rfl⟩

section Calls

variable {platform : Platform} {context : ExecutionContext} {clock : Instant} {plan : ToolCallPlan}
  {tool : ToolDefinition} {callId : Uuid} {arguments : Json} {reason : PyStr} {call : ToolCall}
  {argumentsHash : Nat} {effective : PolicyDecision} {completed : Bool}

theorem Holds.held (holds : store.Holds context clock run) : store.board.Held context.runId :=
  ⟨run, holds.present, holds.running, holds.notCancelled⟩

theorem held_of_executableRun (ok : store.executableRun context clock = .ok run) :
    store.board.Held context.runId := (holds_of_executableRun ok).held

/-- A call that is inserted was not there before. -/
theorem insertCall_written (ok : store.insertCall platform callId call = .ok next) :
    store.toolCalls.find? callId = none ∧
      store.toolCalls.Written next.toolCalls callId
        { call with arguments := platform.jsonb call.arguments } ∧
      next.agentRuns = store.agentRuns ∧ next.toolApprovals = store.toolApprovals := by
  simp only [insertCall, bind_eq_ok, storeJson_eq_ok, orRaise_eq_ok, Table.insert?_eq_some,
    pure_eq_ok] at ok
  obtain ⟨_, ⟨_, rfl⟩, _, ⟨absent, rfl⟩, rfl⟩ := ok
  exact ⟨absent, .put _ _ _, rfl, rfl⟩

/-- An approval is created for a call that has none. -/
theorem createApproval_written
    (ok : store.createApproval platform run runId callId tool arguments argumentsHash reason
      approvalId now = .ok (next, plan)) :
    ∃ call approval, store.toolCalls.find? callId = some call ∧
      store.approvalForCall callId = none ∧ store.toolApprovals.find? approvalId = none ∧
      approval.status = .pending ∧ approval.toolCallId = callId ∧ approval.runId = runId ∧
      store.toolCalls.Written next.toolCalls callId
        { call with status := .pendingApproval, policyDecision := .requireApproval } ∧
      store.toolApprovals.Written next.toolApprovals approvalId approval ∧
      next.agentRuns = store.agentRuns := by
  simp only [createApproval, bind_eq_ok, orRaise_eq_ok, updateCall_eq_ok, storeJson_eq_ok,
    raiseIf_eq_ok, Table.insert?_eq_some, pure_eq_ok, Prod.mk.injEq] at ok
  obtain ⟨call, found, _, ⟨_, rfl⟩, _, ⟨_, rfl⟩, _, unasked, _, ⟨free, rfl⟩, rfl, _⟩ := ok
  refine ⟨call, _, found, ?_, free, rfl, rfl, rfl, .modify _ found, .put _ _ _, rfl⟩
  simpa [approvalForCall] using unasked

theorem contractChanged_move (held : store.board.Held call.runId)
    (found : store.toolCalls.find? callId = some call) (notSucceeded : call.status ≠ .succeeded)
    (ok : store.contractChanged callId tool = .ok (next, plan)) :
    Move store.board next.board := by
  simp only [contractChanged, bind_eq_ok, updateCall_eq_ok, pure_eq_ok, Prod.mk.injEq] at ok
  obtain ⟨settled, withdrawn, _, ⟨_, rfl⟩, rfl, _⟩ := ok
  unfold withdrawApproval at withdrawn
  split at withdrawn
  case h_2 none =>
    cases withdrawn
    refine .dropped held found notSucceeded rfl (.modify _ found) (.inr ⟨rfl, ?_⟩)
    intro entry asked
    have impossible := none.symm.trans asked
    cases impossible
  case h_1 approvalId approval asked =>
    split at withdrawn
    case isTrue pending =>
      rw [setApproval, updateApproval_eq_ok] at withdrawn
      obtain ⟨_, rfl⟩ := withdrawn
      have there := (Table.of_first? asked).1
      exact .dropped held found notSucceeded rfl (.modify _ found)
        (.inl ⟨approvalId, approval, asked, pending, .modify _ there⟩)
    case isFalse decided =>
      cases withdrawn
      refine .dropped held found notSucceeded rfl (.modify _ found) (.inr ⟨rfl, ?_⟩)
      intro entry other
      have same := asked.symm.trans other
      cases same
      exact decided

theorem prepareExisting_reaches {existingId toolId : Uuid} {existing : ToolCall}
    {contractHash : Nat} (held : store.board.Held existing.runId)
    (found : store.toolCalls.find? existingId = some existing)
    (ok : store.prepareExisting platform run existingId existing toolId tool arguments argumentsHash
      contractHash effective reason approvalId now = .ok (next, plan)) :
    Reaches store.board next.board := by
  unfold prepareExisting at ok
  split at ok
  · cases ok
  split at ok
  · cases ok
    exact .refl _
  rename_i notSucceeded
  split at ok
  · exact (contractChanged_move held found notSucceeded ok).reaches
  split at ok
  · cases ok
    exact .refl _
  rename_i open_
  dsimp only at ok
  split at ok
  · cases ok
    exact .refl _
  rename_i noneFound
  have unasked (entry : Uuid × ToolApproval) (asked : store.board.approvalFor existingId = some entry) :
      entry.2.status ≠ .pending := by
    intro pending
    have kept := Option.filter_eq_none_iff.mp noneFound entry asked
    simp [pending] at kept
  split at ok
  · simp only [policyDenied, bind_eq_ok, updateCall_eq_ok, pure_eq_ok, Prod.mk.injEq] at ok
    obtain ⟨_, ⟨_, rfl⟩, rfl, _⟩ := ok
    refine Move.reaches (.call held found (.denied ?_ unasked rfl) rfl (.modify _ found) rfl)
    simpa using open_
  split at ok
  · split at ok
    · cases ok
      exact .refl _
    · rename_i planned
      rw [ne_eq, not_not] at planned
      obtain ⟨call, approval, callFound, none, free, pending, ofCall, ofRun, calls, approvals,
        runs⟩ := createApproval_written ok
      rw [found] at callFound
      cases callFound
      refine Move.reaches (.asked ?_ ?_ ?_ none free pending ofCall ?_ runs calls approvals)
      · exact held
      · exact .planned found planned rfl
      · rfl
      · exact ofRun
  · cases ok
    exact .refl _

theorem prepareNew_reaches {call : CallRequest} (held : store.board.Held call.runId)
    (unused : store.callKeyed call.runId call.callKey = none)
    (ok : store.prepareNew platform run call tool effective reason callId approvalId now =
      .ok (next, plan)) : Reaches store.board next.board := by
  have fresh (other : Uuid) (row : ToolCall) (present : store.toolCalls.find? other = some row)
      (same : row.runId = call.runId) : row.callKey ≠ call.callKey := by
    have misses := (Table.first?_eq_none _ _).mp unused other row present
    simpa [same] using misses
  cases effective with
  | deny =>
    simp only [prepareNew, bind_eq_ok, pure_eq_ok, Prod.mk.injEq] at ok
    obtain ⟨denied, inserted, rfl, _⟩ := ok
    obtain ⟨absent, written, runs, approvals⟩ := insertCall_written inserted
    refine Move.reaches (.added ?_ absent ?_ ?_ ?_ runs written approvals)
    · exact held
    · exact fresh
    · exact .inr rfl
    · rfl
  | requireApproval =>
    simp only [prepareNew, bind_eq_ok] at ok
    obtain ⟨planned, inserted, ok⟩ := ok
    obtain ⟨absent, written, runs, approvals⟩ := insertCall_written inserted
    obtain ⟨row, approval, found, none, free, pending, ofCall, ofRun, asked, created, kept⟩ :=
      createApproval_written ok
    rw [written.self, Option.some.injEq] at found
    subst found
    have calls := written.again asked
    rw [approvals] at created free
    have unasked : store.board.approvalFor callId = .none := by
      rw [← none, approvalForCall, approvals]
      rfl
    refine Move.reaches (.asked ?_ ?_ ?_ unasked free pending ofCall ?_ (kept.trans runs) calls
      created)
    · exact held
    · exact .new absent rfl fresh
    · rfl
    · exact ofRun
  | allow =>
    simp only [prepareNew, bind_eq_ok, pure_eq_ok, Prod.mk.injEq] at ok
    obtain ⟨planned, inserted, rfl, _⟩ := ok
    obtain ⟨absent, written, runs, approvals⟩ := insertCall_written inserted
    refine Move.reaches (.added ?_ absent ?_ ?_ ?_ runs written approvals)
    · exact held
    · exact fresh
    · exact .inl rfl
    · rfl

theorem prepareCall_reaches {callKey toolName : PyStr}
    (ok : store.prepareCall platform context callKey toolName arguments callId approvalId clock now =
      .ok (next, plan)) : Reaches store.board next.board := by
  obtain ⟨run, toolId, tool, argumentsHash, contractHash, plannable, existing | new⟩ :=
    prepareCall_eq_ok ok
  · obtain ⟨existingId, existing, keyed, done⟩ := existing
    obtain ⟨found, meets⟩ := Table.of_first? keyed
    simp only [Bool.and_eq_true, decide_eq_true_eq] at meets
    refine prepareExisting_reaches ?_ found done
    rw [meets.1]
    exact held_of_executableRun plannable.passed
  · exact prepareNew_reaches (held_of_executableRun plannable.passed) new.1 new.2

theorem markRunning_reaches {execution : ToolExecution}
    (ok : store.markRunning platform callId context clock = .ok (next, execution)) :
    Reaches store.board next.board := by
  obtain ⟨call, tool, startable, _, rfl⟩ := markRunning_eq_ok ok
  obtain ⟨run, passed⟩ := startable.passed
  refine Move.reaches (.call ?_ startable.present (.started startable.status) rfl
    (.modify _ startable.present) rfl)
  rw [startable.ofRun]
  exact held_of_executableRun passed

theorem completeCallSuccess_reaches {result : Json}
    (ok : store.completeCallSuccess platform callId result context clock = .ok (next, completed)) :
    Reaches store.board next.board := by
  obtain ⟨⟨run, passed⟩, ⟨_, rfl⟩ | ⟨_, ⟨call, tool, running, _⟩, _, rfl⟩⟩ :=
    completeCallSuccess_eq_ok ok
  · exact .refl _
  · obtain ⟨found, status, ofRun⟩ := runningCall_eq_some.mp running
    refine Move.reaches (.call ?_ found (.succeeded status) rfl (.modify _ found) rfl)
    rw [ofRun]
    exact held_of_executableRun passed

theorem completeCallFailure_reaches {errorCode : PyStr} {retryable : Bool}
    (ok : store.completeCallFailure callId errorCode retryable context clock =
      .ok (next, completed)) : Reaches store.board next.board := by
  obtain ⟨_, ⟨run, passed⟩, ⟨_, rfl⟩ | ⟨_, ⟨call, running⟩, _, rfl⟩⟩ :=
    completeCallFailure_eq_ok ok
  · exact .refl _
  · obtain ⟨found, status, ofRun⟩ := runningCall_eq_some.mp running
    have held : store.board.Held call.runId := by
      rw [ofRun]
      exact held_of_executableRun passed
    refine Move.reaches (.call held found ?_ rfl (.modify _ found) rfl)
    cases retryable with
    | true => exact .retried status rfl
    | false => exact .failed status

end Calls

end Store

/-- An action of an attempt is a sequence of moves. -/
theorem Action.run_reaches {platform : Platform} {store after : Store} {workerId : String}
    {action : Action} {stage : Stage}
    (ok : action.run platform store workerId session = some (after, stage)) :
    Reaches store.board after.board := by
  cases Action.effect ok with
  | renewed leaseSeconds now => exact Store.renewLease_move _ _ _ _ _ _
  | wrote entry done =>
    obtain ⟨_, _, _, _, rfl⟩ := (Write.run_onlyJournal done).1
    exact .refl _
  | embedded record =>
    obtain ⟨_, _, _, _, written⟩ := Store.recordSpend_onlyJournal store
      session.context.workspaceId (.runRetrieval session.context.runId) record
    rw [Store.recordEmbeddingSpend, written]
    exact .refl _
  | planned done => exact Store.prepareCall_reaches done
  | started at_ done => exact Store.markRunning_reaches done
  | succeeded at_ done => exact Store.completeCallSuccess_reaches done
  | failed clocked done => exact Store.completeCallFailure_reaches done
  | unchanged => exact .refl _

/-- Every step of the platform is a sequence of moves, after which a claim may start an
attempt. -/
theorem System.run_reaches {platform : Platform} {system next : System}
    (ok : System.run platform system label = .ok next) :
    Reaches system.store.board next.store.board ∨
      ∃ middle runId run, Reaches system.store.board middle ∧
        Starts middle next.store.board runId run := by
  cases label with
  | request request =>
    obtain ⟨store, done, rfl⟩ := System.run_request.mp ok
    exact .inl (Request.run_reaches done)
  | claim workerId job leaseSeconds now =>
    obtain ⟨_, store, handed, claimed, rfl⟩ := System.run_claim.mp ok
    rcases Store.claim_reaches claimed with ⟨_, reaches⟩ | ⟨_, middle, row, _, _, _, reaches, starts⟩
    · exact .inl reaches
    · exact .inr ⟨middle, job.runId, row, reaches, starts⟩
  | act workerId action =>
    obtain ⟨session, store, stage, _, done, rfl⟩ := System.run_act.mp ok
    exact .inl (Action.run_reaches done)
  | finish workerId newJobId delay now =>
    obtain ⟨session, store, handled, _, done, rfl⟩ := System.run_finish.mp ok
    exact .inl (Store.finish_reaches done)
  | crash workerId =>
    obtain rfl := System.run_crash.mp ok
    exact .inl (.refl _)

/-- What every move and every start keeps, every step keeps. -/
theorem System.run_keeps {platform : Platform} {system next : System} (Inv : Board → Prop)
    (moved : ∀ before after, Inv before → Move before after → Inv after)
    (started : ∀ before after runId run, Inv before → Starts before after runId run → Inv after)
    (holds : Inv system.store.board) (ok : System.run platform system label = .ok next) :
    Inv next.store.board := by
  rcases System.run_reaches ok with reaches | ⟨middle, runId, run, reaches, starts⟩
  · exact reaches.keeps moved holds
  · exact started _ _ _ _ (reaches.keeps moved holds) starts

end Nexora.Run
