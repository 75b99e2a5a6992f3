import Nexora.Run.Journal

/-!
# Cancellation

A run someone has asked to cancel is stopped: it executes or is queued with the request on
its row, or it is cancelled. It stays so whatever follows, no attempt passes the fence for it
any more, and so nothing is committed for it but its end.
-/

namespace Nexora.Run

open Nexora.Std Nexora.Workspace Nexora.Tools Json

/-- A run that is to be cancelled, or is. -/
def AgentRun.stopped (run : AgentRun) : Prop :=
  run.status = .cancelled ∨
    run.cancelRequestedAt.isSome = true ∧ (run.status = .running ∨ run.status = .queued)

variable {run : AgentRun} {label : Label}

theorem AgentRun.stopped.lapsed (stopped : run.stopped) (workspaceId : Uuid) (now : Instant) :
    (run.lapsed workspaceId now).stopped := by
  by_cases ends : run.workspaceId = workspaceId ∧
      (run.status = .running ∨ run.status = .waitingForApproval)
  · rw [AgentRun.lapsed, if_pos ends]
    exact .inl rfl
  · rw [AgentRun.lapsed, if_neg ends]
    exact stopped

namespace Board

/-- The run is stopped. -/
def Stopped (board : Board) (runId : Uuid) : Prop :=
  ∃ run, board.runs.find? runId = some run ∧ run.stopped

variable {before after : Board} {runId callId : Uuid} {call : ToolCall}

/-- Nothing executes a stopped run for good. -/
theorem Stopped.notHeld (stopped : before.Stopped runId) : ¬ before.Held runId := by
  rintro ⟨run, found, running, notCancelled⟩
  obtain ⟨other, same, cancelled | ⟨requested, _⟩⟩ := stopped
  · rw [found] at same
    cases same
    rw [running] at cancelled
    cases cancelled
  · rw [found] at same
    cases same
    rw [notCancelled] at requested
    cases requested

/-- A change of a stopped run leaves it stopped. -/
theorem RunChange.stopped {later : AgentRun} (change : RunChange before runId run later)
    (stopped : run.stopped) : later.stopped := by
  have requested (notCancelled : run.cancelRequestedAt = none) (running : run.status = .running) :
      False := by
    rcases stopped with cancelled | ⟨requested, _⟩
    · rw [running] at cancelled
      cases cancelled
    · rw [notCancelled] at requested
      cases requested
  have asked (status : run.status ≠ .cancelled) : run.cancelRequestedAt.isSome = true :=
    stopped.elim (fun cancelled => absurd cancelled status) And.left
  cases change with
  | kept => exact stopped
  | renewed running => exact .inr ⟨asked (by simp [running]), .inl running⟩
  | touched queued => exact .inr ⟨asked (by simp [queued]), .inr queued⟩
  | requeued running => exact .inr ⟨asked (by simp [running]), .inr rfl⟩
  | halted => exact .inl rfl
  | parked running notCancelled => exact (requested notCancelled running).elim
  | ended running notCancelled => exact (requested notCancelled running).elim

/-- A move leaves a stopped run stopped. -/
theorem Stopped.move (stopped : before.Stopped runId) (move : Move before after) :
    after.Stopped runId := by
  obtain ⟨run, found, holds⟩ := stopped
  -- The row is the one written, or is left alone.
  have rewritten {target : Uuid} {earlier later : AgentRun}
      (present : before.runs.find? target = some earlier)
      (runs : before.runs.Written after.runs target later)
      (kept : earlier.stopped → later.stopped) : after.Stopped runId := by
    rcases runs.kept found with ⟨same, written⟩ | ⟨_, unchanged⟩
    · subst same
      rw [found] at present
      cases present
      exact ⟨later, written, kept holds⟩
    · exact ⟨run, unchanged, holds⟩
  have alone (runs : after.runs = before.runs) : after.Stopped runId :=
    ⟨run, by rw [runs]; exact found, holds⟩
  have notWaiting {row : AgentRun} (waiting : row.status = .waitingForApproval) : ¬ row.stopped := by
    simp [AgentRun.stopped, waiting]
  cases move with
  | created absent _ _ _ runs =>
    refine ⟨run, ?_, holds⟩
    rw [runs.other, found]
    rintro rfl
    rw [absent] at found
    cases found
  | run present change runs => exact rewritten present runs change.stopped
  | withdrawn present change runs =>
    refine rewritten present runs fun _ => ?_
    cases change with
    | requested running => exact .inr ⟨rfl, .inl running⟩
    | cancelled => exact .inl rfl
  | approved _ _ present waiting runs =>
    exact rewritten present runs fun stopped => absurd stopped (notWaiting waiting)
  | rejected _ _ present waiting runs =>
    exact rewritten present runs fun stopped => absurd stopped (notWaiting waiting)
  | lapsed _ _ _ runs =>
    refine ⟨_, by rw [runs, found]; rfl, ?_⟩
    split
    · exact holds.lapsed _ _
    · exact holds
  | added _ _ _ _ _ runs => exact alone runs
  | call _ _ _ runs => exact alone runs
  | asked _ _ _ _ _ _ _ _ runs => exact alone runs
  | dropped _ _ _ runs => exact alone runs

/-- No attempt of a stopped run is started. -/
theorem Stopped.start {started : Uuid} (stopped : before.Stopped runId)
    (starts : Starts before after started run) : after.Stopped runId := by
  obtain ⟨row, found, holds⟩ := stopped
  obtain ⟨lease, now, runs⟩ := starts.runs
  rcases runs.kept found with ⟨same, _⟩ | ⟨_, unchanged⟩
  · have rows := found.symm.trans (same ▸ starts.found)
    cases rows
    rcases holds with cancelled | ⟨requested, _⟩
    · rw [starts.queued] at cancelled
      cases cancelled
    · rw [starts.notCancelled] at requested
      cases requested
  · exact ⟨row, unchanged, holds⟩

/-- No call of the run is added or dispatched, and no approval of it created or granted. -/
structure Idle (runId : Uuid) (before after : Board) : Prop where
  calls : ∀ callId later, after.calls.find? callId = some later → later.runId = runId →
    ∃ call, before.calls.find? callId = some call ∧ call.runId = runId ∧
      later.attemptCount = call.attemptCount
  approvals : ∀ approvalId later, after.approvals.find? approvalId = some later →
    later.runId = runId → ∃ approval, before.approvals.find? approvalId = some approval ∧
      approval.runId = runId ∧ (later.status = .approved → approval.status = .approved)

namespace Idle

variable {third : Board}

theorem refl (runId : Uuid) (board : Board) : Idle runId board board :=
  ⟨fun _ later found ofRun => ⟨later, found, ofRun, rfl⟩,
    fun _ later found ofRun => ⟨later, found, ofRun, id⟩⟩

theorem trans (early : Idle runId before after) (late : Idle runId after third) :
    Idle runId before third where
  calls callId later found ofRun := by
    obtain ⟨middle, middleFound, middleOfRun, sameLate⟩ := late.calls callId later found ofRun
    obtain ⟨call, callFound, callOfRun, sameEarly⟩ :=
      early.calls callId middle middleFound middleOfRun
    exact ⟨call, callFound, callOfRun, sameLate.trans sameEarly⟩
  approvals approvalId later found ofRun := by
    obtain ⟨middle, middleFound, middleOfRun, grantedLate⟩ :=
      late.approvals approvalId later found ofRun
    obtain ⟨approval, approvalFound, approvalOfRun, grantedEarly⟩ :=
      early.approvals approvalId middle middleFound middleOfRun
    exact ⟨approval, approvalFound, approvalOfRun, grantedEarly ∘ grantedLate⟩

/-- Calls rewritten in place without another attempt, and approvals that are not granted. -/
theorem of_rewrite (changeCall : Uuid → ToolCall → ToolCall)
    (changeApproval : Uuid → ToolApproval → ToolApproval)
    (calls : ∀ callId, after.calls.find? callId =
      (before.calls.find? callId).map (changeCall callId))
    (approvals : ∀ approvalId, after.approvals.find? approvalId =
      (before.approvals.find? approvalId).map (changeApproval approvalId))
    (sameCall : ∀ callId call, (changeCall callId call).runId = call.runId ∧
      (changeCall callId call).attemptCount = call.attemptCount)
    (sameApproval : ∀ approvalId approval, before.approvals.find? approvalId = some approval →
      (changeApproval approvalId approval).runId = approval.runId ∧
      (approval.runId = runId → (changeApproval approvalId approval).status = .approved →
        approval.status = .approved)) : Idle runId before after where
  calls callId later found ofRun := by
    rw [calls, Option.map_eq_some_iff] at found
    obtain ⟨call, present, rfl⟩ := found
    obtain ⟨sameRun, sameCount⟩ := sameCall callId call
    exact ⟨call, present, sameRun.symm.trans ofRun, sameCount⟩
  approvals approvalId later found ofRun := by
    rw [approvals, Option.map_eq_some_iff] at found
    obtain ⟨approval, present, rfl⟩ := found
    obtain ⟨sameRun, granted⟩ := sameApproval approvalId approval present
    have ofRunBefore := sameRun.symm.trans ofRun
    exact ⟨approval, present, ofRunBefore, granted ofRunBefore⟩

/-- A call of another run is written, and approvals of other runs. -/
theorem of_other (calls : before.calls.Written after.calls callId call) (other : call.runId ≠ runId)
    (approvals : ∀ approvalId later, after.approvals.find? approvalId = some later →
      later.runId = runId → ∃ approval, before.approvals.find? approvalId = some approval ∧
        approval.runId = runId ∧ (later.status = .approved → approval.status = .approved)) :
    Idle runId before after where
  calls otherId later found ofRun := by
    rcases calls.found found with ⟨_, rfl⟩ | ⟨_, unchanged⟩
    · exact absurd ofRun other
    · exact ⟨later, unchanged, ofRun, rfl⟩
  approvals := approvals

end Idle

/-- What an attempt does to a call keeps what was asked for. -/
theorem CallChange.toCallRequest {later : ToolCall} (change : CallChange before callId call later) :
    later.toCallRequest = call.toCallRequest := by
  cases change <;> rfl

theorem closed_kept (call : ToolCall) (errorCode : PyStr) :
    (call.closed errorCode).toCallRequest = call.toCallRequest ∧
      (call.closed errorCode).attemptCount = call.attemptCount := by
  unfold ToolCall.closed
  split <;> exact ⟨rfl, rfl⟩

/-- A move commits nothing for a stopped run. -/
theorem Stopped.idle (stopped : before.Stopped runId) (move : Move before after) :
    Idle runId before after := by
  have notHeld := stopped.notHeld
  have notWaiting {target : Uuid} {run : AgentRun} (found : before.runs.find? target = some run)
      (waiting : run.status = .waitingForApproval) : target ≠ runId := by
    rintro rfl
    obtain ⟨other, same, holds⟩ := stopped
    rw [found] at same
    cases same
    simp [AgentRun.stopped, waiting] at holds
  -- An approval that is decided or lapses is granted only to a run that was waiting.
  have decided {approvalId : Uuid} {approval later : ToolApproval}
      {callId : Uuid} {change : ToolCall → ToolCall}
      (calls : after.calls = before.calls.modify callId change)
      (keeps : ∀ call, (change call).runId = call.runId ∧
        (change call).attemptCount = call.attemptCount)
      (found : before.approvals.find? approvalId = some approval)
      (approvals : before.approvals.Written after.approvals approvalId later)
      (same : later.runId = approval.runId)
      (granted : approval.runId = runId → later.status = .approved → approval.status = .approved) :
      Idle runId before after := by
    constructor
    · intro otherId row present ofRun
      rw [calls, Table.find?_modify] at present
      split at present
      · rename_i isTarget
        obtain ⟨call, there, rfl⟩ := Option.map_eq_some_iff.mp present
        exact ⟨call, isTarget ▸ there, (keeps call).1.symm.trans ofRun, (keeps call).2⟩
      · exact ⟨row, present, ofRun, rfl⟩
    · intro otherId row present ofRun
      rcases approvals.found present with ⟨rfl, rfl⟩ | ⟨_, unchanged⟩
      · have ofRunBefore := same.symm.trans ofRun
        exact ⟨approval, found, ofRunBefore, granted ofRunBefore⟩
      · exact ⟨row, unchanged, ofRun, id⟩
  have sameBoard (calls : after.calls = before.calls) (approvals : after.approvals = before.approvals) :
      Idle runId before after := by
    constructor
    · intro callId row present ofRun
      exact ⟨row, calls ▸ present, ofRun, rfl⟩
    · intro approvalId row present ofRun
      exact ⟨row, approvals ▸ present, ofRun, id⟩
  have sameApprovals (approvals : after.approvals = before.approvals) (approvalId : Uuid)
      (later : ToolApproval) (found : after.approvals.find? approvalId = some later)
      (ofRun : later.runId = runId) :
      ∃ approval, before.approvals.find? approvalId = some approval ∧ approval.runId = runId ∧
        (later.status = .approved → approval.status = .approved) :=
    ⟨later, approvals ▸ found, ofRun, id⟩
  cases move with
  | created _ _ _ _ _ calls approvals => exact sameBoard calls approvals
  | run _ _ _ calls approvals => exact sameBoard calls approvals
  | @withdrawn target run later found change runs calls approvals =>
    refine .of_rewrite (fun _ call => call.withdrawn target)
      (fun _ approval => approval.withdrawn target) ?_ ?_ ?_ ?_
    · intro callId
      rw [calls, Table.find?_mapRows]
    · intro approvalId
      rw [approvals, Table.find?_mapRows]
    · intro _ call
      unfold ToolCall.withdrawn
      split <;> exact ⟨rfl, rfl⟩
    · intro _ approval _
      by_cases withdrawn : approval.runId = target ∧ approval.status = .pending
      · simp [ToolApproval.withdrawn, withdrawn]
      · simp [ToolApproval.withdrawn, withdrawn]
  | approved found _ runFound waiting _ calls approvals =>
    refine decided calls (fun _ => ⟨rfl, rfl⟩) found approvals rfl fun ofRun => ?_
    exact absurd ofRun (notWaiting runFound waiting)
  | rejected found _ runFound waiting _ calls approvals =>
    exact decided calls (fun _ => ⟨rfl, rfl⟩) found approvals rfl (by simp)
  | lapsed found _ target _ calls approvals =>
    refine decided calls (fun call => ?_) found approvals rfl fun _ granted => ?_
    · obtain ⟨request, count⟩ := closed_kept call _
      exact ⟨congrArg CallRequest.runId request, count⟩
    · rcases target with rfl | rfl <;> cases granted
  | added held _ _ _ _ _ calls approvals =>
    refine .of_other calls ?_ (sameApprovals approvals)
    rintro rfl
    exact notHeld held
  | call held _ change _ calls approvals =>
    refine .of_other calls ?_ (sameApprovals approvals)
    rw [change.toCallRequest]
    rintro rfl
    exact notHeld held
  | asked held _ _ _ _ _ _ ofRun _ calls approvals =>
    refine .of_other calls ?_ ?_
    · rintro rfl
      exact notHeld held
    · intro approvalId row present ofThis
      rcases approvals.found present with ⟨_, rfl⟩ | ⟨_, unchanged⟩
      · rw [← ofRun, ofThis] at held
        exact absurd held notHeld
      · exact ⟨row, unchanged, ofThis, id⟩
  | @dropped callId call held found _ _ calls approvals =>
    refine .of_other calls ?_ ?_
    · rw [(closed_kept call _).1]
      rintro rfl
      exact notHeld held
    · rcases approvals with ⟨asked, approval, first, _, written⟩ | ⟨unchanged, _⟩
      · intro approvalId row present ofThis
        rcases written.found present with ⟨rfl, rfl⟩ | ⟨_, same⟩
        · exact ⟨approval, (Table.of_first? first).1, ofThis, by simp⟩
        · exact ⟨row, same, ofThis, id⟩
      · exact sameApprovals unchanged

end Board

/-- Nothing is committed for a run, which runs, is queued, or is cancelled. -/
structure NothingCommitted (runId : Uuid) (before after : Store) : Prop where
  journal : Store.RunJournalKept runId before after
  idle : Board.Idle runId before.board after.board
  status : ∃ run, after.agentRuns.find? runId = some run ∧
    (run.status = .running ∨ run.status = .queued ∨ run.status = .cancelled)

/-- A step commits nothing for a stopped run, and leaves it stopped. -/
theorem stopped_step {platform : Platform} {system next : System} {runId : Uuid}
    (stopped : system.store.board.Stopped runId)
    (ok : System.run platform system label = .ok next) :
    next.store.board.Stopped runId ∧ NothingCommitted runId system.store next.store := by
  have journal := System.run_runJournalKept ok stopped.notHeld
  have kept : next.store.board.Stopped runId ∧
      Board.Idle runId system.store.board next.store.board := by
    refine System.run_keeps (fun board =>
      board.Stopped runId ∧ Board.Idle runId system.store.board board) ?_ ?_
      ⟨stopped, .refl _ _⟩ ok
    · rintro before after ⟨holds, idle⟩ move
      exact ⟨holds.move move, idle.trans (holds.idle move)⟩
    · rintro before after started run ⟨holds, idle⟩ starts
      refine ⟨holds.start starts, idle.trans ?_⟩
      constructor
      · intro callId row present ofRun
        exact ⟨row, starts.calls ▸ present, ofRun, rfl⟩
      · intro approvalId row present ofRun
        exact ⟨row, starts.approvals ▸ present, ofRun, id⟩
  refine ⟨kept.1, journal, kept.2, ?_⟩
  obtain ⟨run, found, cancelled | ⟨_, running | queued⟩⟩ := kept.1
  · exact ⟨run, found, .inr (.inr cancelled)⟩
  · exact ⟨run, found, .inl running⟩
  · exact ⟨run, found, .inr (.inl queued)⟩

/-- A run that has not ended otherwise is stopped by a cancellation: it is asked to stop where
it executes, and cancelled where it does not. -/
theorem cancelRun_stops {store next : Store} {principal : Principal} {workspaceId runId : Uuid}
    {now : Instant} (ok : store.cancelRun principal workspaceId runId now = .ok next)
    (found : next.agentRuns.find? runId = some run)
    (unfinished : run.status ≠ .succeeded ∧ run.status ≠ .failed) :
    run.status = .cancelled ∨ run.status = .running ∧ run.cancelRequestedAt.isSome = true := by
  simp only [Store.cancelRun, bind_eq_ok, orRaise_eq_ok, Store.runIn_eq_some] at ok
  obtain ⟨_, _, before, ⟨present, _⟩, _, _, ok⟩ := ok
  split at ok
  · rename_i terminal
    cases ok
    have rows := present.symm.trans found
    cases rows
    cases status : run.status <;> simp_all [RunStatus.isTerminal]
  split at ok
  · rename_i running
    rw [Store.updateRun_eq_ok] at ok
    obtain ⟨_, rfl⟩ := ok
    simp only [Store.withdrawCalls, Table.find?_modify_self, present, Option.map_some,
      Option.some.injEq] at found
    subst found
    exact .inr ⟨running, rfl⟩
  · rw [Store.updateRun_eq_ok] at ok
    obtain ⟨_, rfl⟩ := ok
    simp only [Store.withdrawCalls, Table.find?_modify_self, present, Option.map_some,
      Option.some.injEq] at found
    subst found
    exact .inl rfl

/-- Once a cancellation has been committed for a run that has not ended otherwise, nothing
else is ever committed for it, and it never ends but as cancelled. -/
theorem cancellation_dominates {platform : Platform} {history earlier later : List (Transition System Label)}
    {system : System} {committed : Transition System Label} {principal : Principal}
    {workspaceId runId : Uuid} {now : Instant} {run : AgentRun}
    (runs : (machine platform).Runs history system)
    (splits : history = earlier ++ committed :: later)
    (request : committed.label = .request (.cancelRun principal workspaceId runId now))
    (found : committed.after.store.agentRuns.find? runId = some run)
    (unfinished : run.status ≠ .succeeded ∧ run.status ≠ .failed) :
    (run.status = .cancelled ∨ run.status = .running ∧ run.cancelRequestedAt.isSome = true) ∧
      ∀ transition ∈ later,
        NothingCommitted runId transition.before.store transition.after.store := by
  have member : committed ∈ history := by simp [splits]
  have step := runs.step_of_mem member
  rw [request] at step
  obtain ⟨store, done, after⟩ := System.run_request.mp step
  rw [after] at found
  have stops := cancelRun_stops done found unfinished
  refine ⟨stops, ?_⟩
  have stopped : committed.after.store.board.Stopped runId := by
    rw [after]
    refine ⟨run, found, ?_⟩
    rcases stops with cancelled | ⟨running, requested⟩
    · exact .inl cancelled
    · exact .inr ⟨requested, .inl running⟩
  exact (runs.afterwards (fun system => system.store.board.Stopped runId)
    (fun transition => NothingCommitted runId transition.before.store transition.after.store)
    (fun _ _ _ holds transition => stopped_step holds transition) splits stopped).2

/-- The example's run is claimed, cancelled while it runs, and claimed again once its lease
has expired. -/
def cancelledWhileRunning : List Label :=
  [exampleCreateRun, .claim "first" (exampleJob 5) 30 0,
    .request (.cancelRun exampleOwner 1 3 (seconds 1)),
    .claim "second" (exampleJob 5) 30 (seconds 40)]

/-- The run a step is a request to cancel. -/
def asksToCancel : Label → Option Uuid
  | .request (.cancelRun _ _ runId _) => some runId
  | _ => none

theorem asksToCancel_eq_some {runId : Uuid} :
    asksToCancel label = some runId ↔
      ∃ principal workspaceId now, label = .request (.cancelRun principal workspaceId runId now) := by
  unfold asksToCancel
  split <;> simp_all

theorem cancellation_dominates_recovery : ∃ earlier committed last system,
    (machine examplePlatform).Runs (earlier ++ [committed, last]) system ∧
      (committed.after.store.agentRuns.find? 3).map AgentRun.status = some .running ∧
      NothingCommitted 3 last.before.store last.after.store := by
  obtain ⟨history, system, runs, checked⟩ := Machine.exists_run_of_trace Opening
    (System.run examplePlatform) cancelledWhileRunning exampleOpening
    (fun history _ => Machine.splitsAt history 2 fun _ committed later => later.length = 1 &&
      asksToCancel committed.label = some 3 &&
        (committed.after.store.agentRuns.find? 3).map AgentRun.status = some .running)
    (opening_openingWith _ _) (by decide +kernel)
  obtain ⟨earlier, committed, later, splits, checked⟩ := Machine.exists_split checked
  simp only [Bool.and_eq_true, decide_eq_true_eq] at checked
  obtain ⟨⟨one, asks⟩, running⟩ := checked
  obtain ⟨last, rfl⟩ := List.length_eq_one_iff.mp one
  obtain ⟨principal, workspaceId, now, request⟩ := asksToCancel_eq_some.mp asks
  obtain ⟨run, found, status⟩ := Option.map_eq_some_iff.mp running
  refine ⟨earlier, committed, last, system, splits ▸ runs, running, ?_⟩
  have dominates := cancellation_dominates runs splits request found (by simp [status])
  exact dominates.2 last (by simp)

end Nexora.Run
