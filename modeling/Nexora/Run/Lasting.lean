import Nexora.Run.Coupling
import Nexora.Run.Retries

/-!
# What has ended stays

No step of the platform loses a run, takes a terminal run out of its status, or touches a call
that has ended. The approvals that are decided are of calls that have not.
-/

namespace Nexora.Run

open Nexora.Std Nexora.Workspace Nexora.Tools Board

/-- The calls that have ended are as they were. -/
def Board.EndedKept (before after : Board) : Prop :=
  ∀ callId call, before.calls.find? callId = some call → call.status.isOpen = false →
    after.calls.find? callId = some call

variable {before middle after : Board} {call later : ToolCall} {callId : Uuid}

namespace Board.EndedKept

theorem of_calls (same : after.calls = before.calls) : EndedKept before after := by
  intro callId call found _
  rw [same]
  exact found

theorem trans (early : EndedKept before middle) (late : EndedKept middle after) :
    EndedKept before after :=
  fun callId call found ended => late callId call (early callId call found ended) ended

/-- One call is written that had not ended, or is written as it was. -/
theorem of_written (calls : before.calls.Written after.calls callId later)
    (kept : ∀ call, before.calls.find? callId = some call → call.status.isOpen = false →
      later = call) : EndedKept before after := by
  intro other call found ended
  rcases calls.kept found with ⟨same, written⟩ | ⟨_, unchanged⟩
  · rw [written, kept call (same ▸ found) ended]
  · exact unchanged

/-- One call is changed, if it has not ended. -/
theorem of_modified {change : ToolCall → ToolCall}
    (calls : after.calls = before.calls.modify callId change)
    (kept : ∀ call, before.calls.find? callId = some call → call.status.isOpen = false →
      change call = call) : EndedKept before after := by
  intro other call found ended
  rw [calls, Table.find?_modify]
  split
  case isTrue same =>
    subst same
    rw [found, Option.map_some, kept call found ended]
  case isFalse => exact found

end Board.EndedKept

/-- A call that has ended is not given up. -/
theorem ToolCall.closed_of_ended (ended : call.status.isOpen = false) (errorCode : PyStr) :
    call.closed errorCode = call := by
  simp [ToolCall.closed, ended]

theorem ToolCall.withdrawn_of_ended (ended : call.status.isOpen = false) (runId : Uuid) :
    call.withdrawn runId = call := by
  unfold ToolCall.withdrawn
  split
  case isTrue withdrawn =>
    have status := withdrawn.2
    cases stands : call.status <;> simp_all [CallStatus.isOpen]
  case isFalse => rfl

/-- An attempt changes a call only while the call has not ended. -/
theorem Board.CallChange.isOpen (change : CallChange before callId call later) :
    call.status.isOpen = true := by
  cases change with
  | denied open_ => exact open_
  | started executable => cases stands : call.status <;> simp_all [CallStatus.isOpen]
  | succeeded running | failed running | retried running => simp [running, CallStatus.isOpen]

namespace Coupled

/-- The call somebody is asked about has not ended. -/
theorem asked_isOpen (coupled : Coupled before) {approvalId : Uuid} {approval : ToolApproval}
    (found : before.approvals.find? approvalId = some approval)
    (pending : approval.status = .pending)
    (callFound : before.calls.find? approval.toolCallId = some call) :
    call.status.isOpen = true := by
  obtain ⟨row, present, _, allows⟩ := coupled.call approvalId approval found
  rw [callFound] at present
  cases present
  rw [pending] at allows
  simp [of_decide_eq_true allows, CallStatus.isOpen]

/-- A move leaves the calls that have ended alone. -/
theorem endedKept (coupled : Coupled before) (move : Move before after) :
    EndedKept before after := by
  cases move with
  | created _ _ _ _ _ calls => exact .of_calls calls
  | run _ _ _ calls => exact .of_calls calls
  | withdrawn _ _ _ calls =>
    intro callId call found ended
    rw [calls, Table.find?_mapRows, found, Option.map_some, ToolCall.withdrawn_of_ended ended]
  | approved found pending _ _ _ calls | rejected found pending _ _ _ calls =>
    refine .of_modified calls fun call callFound ended => ?_
    have stillOpen := coupled.asked_isOpen found pending callFound
    rw [stillOpen] at ended
    cases ended
  | lapsed _ _ _ _ calls => exact .of_modified calls fun call _ ended =>
    ToolCall.closed_of_ended ended _
  | added _ absent _ _ _ _ calls =>
    refine .of_written calls fun call found _ => ?_
    rw [absent] at found
    cases found
  | call _ found change _ calls =>
    refine .of_written calls fun call callFound ended => ?_
    rw [found] at callFound
    cases callFound
    rw [change.isOpen] at ended
    cases ended
  | asked _ origin _ _ _ _ _ _ _ calls =>
    refine .of_written calls fun call callFound ended => ?_
    cases origin with
    | new absent =>
      rw [absent] at callFound
      cases callFound
    | planned present planned =>
      rw [present] at callFound
      cases callFound
      rw [planned] at ended
      cases ended
  | dropped _ found _ _ calls =>
    refine .of_written calls fun call callFound ended => ?_
    rw [found] at callFound
    cases callFound
    exact ToolCall.closed_of_ended ended _

end Coupled

variable {platform : Platform} {system next : System} {label : Label}

/-- A step leaves the calls that have ended alone, and the board coupled. -/
theorem System.run_endedKept (coupled : Coupled system.store.board)
    (ok : System.run platform system label = .ok next) :
    Coupled next.store.board ∧ EndedKept system.store.board next.store.board := by
  refine System.run_keeps (fun board => Coupled board ∧ EndedKept system.store.board board)
    ?_ ?_ ⟨coupled, .of_calls rfl⟩ ok
  · rintro early late ⟨holds, kept⟩ move
    exact ⟨holds.move move, kept.trans (holds.endedKept move)⟩
  · rintro early late runId run ⟨holds, kept⟩ starts
    exact ⟨holds.start starts, kept.trans (.of_calls starts.calls)⟩

/-- A step loses no run and keeps a terminal one in its status. -/
theorem System.run_status {runId : Uuid} {run : AgentRun}
    (ok : System.run platform system label = .ok next)
    (found : system.store.agentRuns.find? runId = some run) :
    ∃ later, next.store.agentRuns.find? runId = some later ∧
      (run.status.isTerminal = true → later.status = run.status) := by
  rcases step_unstarted ok runId with ⟨_, unstarted⟩ | ⟨_, middle, row, _, unstarted, starts⟩
  · obtain ⟨later, present, kept⟩ := unstarted.present run found
    exact ⟨later, present, kept.terminal⟩
  · obtain ⟨between, betweenFound, kept⟩ := unstarted.present run found
    obtain ⟨lease, now, runs⟩ := starts.runs
    rw [starts.found] at betweenFound
    cases betweenFound
    refine ⟨_, runs.self, fun ended => ?_⟩
    -- A terminal run would still be queued when it is started.
    have queued := (kept.terminal ended).symm.trans starts.queued
    rw [queued] at ended
    cases ended

end Nexora.Run
