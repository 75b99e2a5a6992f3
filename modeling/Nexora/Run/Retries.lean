import Nexora.Run.Reach
import Nexora.Run.Fencing

/-!
# The retry budget

A run's counter counts the attempts that were started, by whatever the one before had ended: a
retryable failure, a lost lease, or an approval it waited for. Only a retryable failure compares
the counter with the limit, and the one that finds the budget used up is the last thing that
happens to the run.
-/

namespace Nexora.Run

open Nexora.Std Nexora.Workspace Nexora.Tools Json Board

/-- What becomes of a run of which no attempt is started. -/
structure AgentRun.Unstarted (run later : AgentRun) : Prop where
  attempts : later.attemptCount = run.attemptCount
  terminal : run.status.isTerminal = true → later.status = run.status
  running : later.status = .running → run.status = .running
  waiting : later.status = .waitingForApproval →
    run.status = .running ∨ run.status = .waitingForApproval

/-- The status stays what it is, or a run that has not ended is neither executed nor waits. -/
theorem AgentRun.Unstarted.of_status {run later : AgentRun}
    (attempts : later.attemptCount = run.attemptCount)
    (status : later.status = run.status ∨ run.status.isTerminal = false ∧
      later.status ≠ .running ∧ later.status ≠ .waitingForApproval) : run.Unstarted later := by
  rcases status with same | ⟨open_, notRunning, notWaiting⟩
  · exact ⟨attempts, fun _ => same, fun runs => same ▸ runs, fun waits => .inr (same ▸ waits)⟩
  · exact ⟨attempts, by simp [open_], fun runs => absurd runs notRunning,
      fun waits => absurd waits notWaiting⟩

theorem AgentRun.Unstarted.refl (run : AgentRun) : run.Unstarted run := .of_status rfl (.inl rfl)

theorem AgentRun.Unstarted.trans {run middle later : AgentRun} (early : run.Unstarted middle)
    (late : middle.Unstarted later) : run.Unstarted later where
  attempts := late.attempts.trans early.attempts
  terminal ended := by
    have same := early.terminal ended
    rw [late.terminal (by rw [same]; exact ended), same]
  running runs := early.running (late.running runs)
  waiting waits := by
    rcases late.waiting waits with running | waiting
    · exact .inl (early.running running)
    · exact early.waiting waiting

theorem AgentRun.lapsed_unstarted (run : AgentRun) (workspaceId : Uuid) (now : Instant) :
    run.Unstarted (run.lapsed workspaceId now) := by
  unfold AgentRun.lapsed
  split
  case isTrue open_ =>
    refine .of_status rfl (.inr ⟨?_, by simp, by simp⟩)
    rcases open_.2 with running | waiting
    · rw [running]
      rfl
    · rw [waiting]
      rfl
  case isFalse => exact .refl run

namespace Board

variable {before middle after : Board} {runId : Uuid} {run later : AgentRun}

theorem RunChange.unstarted (change : RunChange before runId run later) : run.Unstarted later := by
  cases change with
  | kept => exact .refl run
  | renewed => exact .of_status rfl (.inl rfl)
  | touched => exact .of_status rfl (.inl rfl)
  | requeued running =>
    exact .of_status rfl (.inr ⟨by simp [running, RunStatus.isTerminal], by simp, by simp⟩)
  | halted status =>
    refine .of_status rfl (.inr ⟨?_, by simp, by simp⟩)
    rcases status with running | queued
    · rw [running]
      rfl
    · rw [queued]
      rfl
  | parked running =>
    exact ⟨rfl, by simp [running, RunStatus.isTerminal], by simp, fun _ => .inl running⟩
  | ended running _ result =>
    refine .of_status rfl (.inr ⟨by simp [running, RunStatus.isTerminal], ?_, ?_⟩)
    · rcases result with rfl | rfl <;> simp
    · rcases result with rfl | rfl <;> simp

theorem RunWithdrawn.unstarted (change : RunWithdrawn run later) : run.Unstarted later := by
  cases change with
  | requested => exact .of_status rfl (.inl rfl)
  | cancelled idle =>
    refine .of_status rfl (.inr ⟨?_, by simp, by simp⟩)
    rcases idle with queued | waiting
    · rw [queued]
      rfl
    · rw [waiting]
      rfl

/-- No attempt of a run is started: its row keeps its counter, or is a new one. -/
structure Unstarted (runId : Uuid) (before after : Board) : Prop where
  present : ∀ run, before.runs.find? runId = some run →
    ∃ later, after.runs.find? runId = some later ∧ run.Unstarted later
  absent : before.runs.find? runId = none → ∀ later, after.runs.find? runId = some later →
    later.attemptCount = 0 ∧ later.status ≠ .running

namespace Unstarted

theorem of_runs (same : after.runs = before.runs) : Unstarted runId before after where
  present run found := ⟨run, by rw [same, found], .refl run⟩
  absent none later found := by
    rw [same, none] at found
    cases found

theorem trans (early : Unstarted runId before middle) (late : Unstarted runId middle after) :
    Unstarted runId before after where
  present run found := by
    obtain ⟨between, betweenFound, kept⟩ := early.present run found
    obtain ⟨later, laterFound, laterKept⟩ := late.present between betweenFound
    exact ⟨later, laterFound, kept.trans laterKept⟩
  absent none later found := by
    cases middleRow : middle.runs.find? runId with
    | none => exact late.absent middleRow later found
    | some between =>
      obtain ⟨attempts, notRunning⟩ := early.absent none between middleRow
      obtain ⟨row, rowFound, kept⟩ := late.present between middleRow
      rw [found] at rowFound
      cases rowFound
      exact ⟨kept.attempts.trans attempts, fun runs => notRunning (kept.running runs)⟩

/-- One row is written, of a run that was there. -/
theorem of_written {target : Uuid} (found : before.runs.find? target = some run)
    (kept : run.Unstarted later) (runs : before.runs.Written after.runs target later) :
    Unstarted runId before after where
  present row present := by
    rcases runs.kept present with ⟨same, written⟩ | ⟨_, unchanged⟩
    · subst same
      rw [found] at present
      cases present
      exact ⟨later, written, kept⟩
    · exact ⟨row, unchanged, .refl row⟩
  absent none row present := by
    rcases runs.found present with ⟨same, _⟩ | ⟨_, earlier⟩
    · rw [same, found] at none
      cases none
    · rw [none] at earlier
      cases earlier

theorem of_move (move : Move before after) : Unstarted runId before after := by
  cases move with
  | created absent queued attempts _ runs =>
    constructor
    · intro run found
      rcases runs.kept found with ⟨same, _⟩ | ⟨_, unchanged⟩
      · rw [same, absent] at found
        cases found
      · exact ⟨run, unchanged, .refl run⟩
    · intro none later found
      rcases runs.found found with ⟨_, rfl⟩ | ⟨_, earlier⟩
      · exact ⟨attempts, by simp [queued]⟩
      · rw [none] at earlier
        cases earlier
  | run found change runs => exact of_written found change.unstarted runs
  | withdrawn found change runs => exact of_written found change.unstarted runs
  | approved _ _ found waiting runs =>
    refine of_written found ?_ runs
    refine .of_status rfl (.inr ⟨?_, by simp, by simp⟩)
    rw [waiting]
    rfl
  | rejected _ _ found waiting runs =>
    refine of_written found ?_ runs
    refine .of_status rfl (.inr ⟨?_, by simp, by simp⟩)
    rw [waiting]
    rfl
  | lapsed _ _ _ runs =>
    constructor
    · intro run found
      refine ⟨_, by rw [runs, found]; rfl, ?_⟩
      split
      · exact run.lapsed_unstarted _ _
      · exact .refl run
    · intro none later found
      rw [runs, none] at found
      cases found
  | added _ _ _ _ _ runs => exact of_runs runs
  | call _ _ _ runs => exact of_runs runs
  | asked _ _ _ _ _ _ _ _ runs => exact of_runs runs
  | dropped _ _ _ runs => exact of_runs runs

theorem of_reaches (reaches : Reaches before after) : Unstarted runId before after := by
  induction reaches with
  | refl => exact of_runs rfl
  | tail _ move ih => exact ih.trans (of_move move)

/-- An attempt of another run is started. -/
theorem of_other {started : Uuid} (starts : Starts before after started run)
    (distinct : runId ≠ started) : Unstarted runId before after := by
  obtain ⟨lease, now, runs⟩ := starts.runs
  constructor
  · intro row found
    exact ⟨row, (runs.other distinct).trans found, .refl row⟩
  · intro none later found
    rw [runs.other distinct, none] at found
    cases found

end Unstarted

/-- How many attempts of a run its row counts. -/
def attempts (board : Board) (runId : Uuid) : Nat :=
  (board.runs.find? runId).elim 0 AgentRun.attemptCount

/-- Some attempt is executing the run. -/
def running (board : Board) (runId : Uuid) : Bool :=
  (board.runs.find? runId).any fun run => run.status = .running

theorem Unstarted.attempts (unstarted : Unstarted runId before after) :
    after.attempts runId = before.attempts runId := by
  cases found : before.runs.find? runId with
  | some run =>
    obtain ⟨later, laterFound, kept⟩ := unstarted.present run found
    simp [Board.attempts, found, laterFound, kept.attempts]
  | none =>
    cases laterFound : after.runs.find? runId with
    | none => simp [Board.attempts, found, laterFound]
    | some later => simp [Board.attempts, found, laterFound, (unstarted.absent found later laterFound).1]

theorem Unstarted.running (unstarted : Unstarted runId before after)
    (runs : after.running runId = true) : before.running runId = true := by
  obtain ⟨later, laterFound, running⟩ := (Option.any_eq_true _ _).mp runs
  cases found : before.runs.find? runId with
  | some run =>
    obtain ⟨row, rowFound, kept⟩ := unstarted.present run found
    rw [laterFound] at rowFound
    cases rowFound
    simpa [Board.running, found] using kept.running (of_decide_eq_true running)
  | none => exact absurd (of_decide_eq_true running) (unstarted.absent found later laterFound).2

theorem Starts.attempts (starts : Starts before after runId run) :
    after.attempts runId = before.attempts runId + 1 := by
  obtain ⟨lease, now, runs⟩ := starts.runs
  simp [Board.attempts, starts.found, runs.self]

end Board

section Histories

variable {platform : Platform} {history earlier later : List (Transition System Label)}
  {system next : System} {label : Label} {runId : Uuid}

/-- Each step hands out the run's next attempt and starts it, or starts none. -/
theorem step_unstarted (ok : System.run platform system label = .ok next) (runId : Uuid) :
    (claimsOf [⟨system, label, next⟩] runId = [] ∧
      Unstarted runId system.store.board next.store.board) ∨
    ∃ handed middle run, claimsOf [⟨system, label, next⟩] runId = [handed] ∧
      Unstarted runId system.store.board middle ∧ Starts middle next.store.board runId run := by
  have quiet (reaches : Reaches system.store.board next.store.board)
      (nothing : handedOut ⟨system, label, next⟩ = none) :
      claimsOf [⟨system, label, next⟩] runId = [] ∧
        Unstarted runId system.store.board next.store.board :=
    ⟨by simp [claimsOf, nothing], .of_reaches reaches⟩
  cases label with
  | request request =>
    obtain ⟨store, done, rfl⟩ := System.run_request.mp ok
    exact .inl (quiet (Request.run_reaches done) rfl)
  | claim workerId job leaseSeconds now =>
    obtain ⟨_, store, handed, claimed, rfl⟩ := System.run_claim.mp ok
    rcases Store.claim_reaches claimed with
      ⟨rfl, reaches⟩ | ⟨context, middle, row, rfl, ofJob, _, reaches, starts⟩
    · exact .inl (quiet reaches (by simp [handedOut, claimed]))
    · by_cases same : runId = job.runId
      · subst same
        refine .inr ⟨(workerId, context), middle, row, ?_, .of_reaches reaches, starts⟩
        simp [claimsOf, handedOut, claimed, ofJob]
      · refine .inl ⟨?_, (Unstarted.of_reaches reaches).trans (.of_other starts same)⟩
        simp [claimsOf, handedOut, claimed, ofJob, Ne.symm same]
  | act workerId action =>
    obtain ⟨session, store, stage, _, done, rfl⟩ := System.run_act.mp ok
    exact .inl (quiet (Action.run_reaches done) rfl)
  | finish workerId newJobId delay now =>
    obtain ⟨session, store, handled, _, done, rfl⟩ := System.run_finish.mp ok
    exact .inl (quiet (Store.finish_reaches done) rfl)
  | crash workerId =>
    obtain rfl := System.run_crash.mp ok
    exact .inl (quiet (.refl _) rfl)

theorem claimsOf_join (earlier later : List (Transition System Label)) (runId : Uuid) :
    claimsOf (earlier ++ later) runId = claimsOf earlier runId ++ claimsOf later runId := by
  simp [claimsOf]

theorem claimsOf_eq_nil (none : ∀ transition ∈ history, claimsOf [transition] runId = []) :
    claimsOf history runId = [] := by
  induction history with
  | nil => rfl
  | cons transition rest ih =>
    have split := claimsOf_join [transition] rest runId
    rw [none transition (by simp), List.nil_append] at split
    rw [List.singleton_append] at split
    rw [split]
    exact ih fun other member => none other (by simp [member])

/-- A run's counter is the number of its attempts. -/
theorem attempts_eq (runs : (machine platform).Runs history system) (runId : Uuid) :
    system.store.board.attempts runId = (claimsOf history runId).length := by
  refine runs.invariantWithHistory (fun history system =>
    system.store.board.attempts runId = (claimsOf history runId).length) ?_ ?_
  · rintro opening ⟨_, memberships, agentDefinitions, unused⟩
    rw [unused]
    rfl
  · intro history system label next counted ok
    rw [claimsOf_join, List.length_append, ← counted]
    rcases step_unstarted ok runId with ⟨none, unstarted⟩ | ⟨_, _, _, one, unstarted, starts⟩
    · rw [none, unstarted.attempts]
      rfl
    · rw [one, starts.attempts, unstarted.attempts]
      rfl

/-- A run that has ended is not started again. -/
theorem ended_unstarted {ended : Transition System Label} {run : AgentRun}
    (runs : (machine platform).Runs history system)
    (splits : history = earlier ++ ended :: later)
    (found : ended.after.store.agentRuns.find? runId = some run)
    (terminal : run.status.isTerminal = true) : claimsOf later runId = [] := by
  refine claimsOf_eq_nil (runs.afterwards
    (fun system => ∃ run, system.store.agentRuns.find? runId = some run ∧
      run.status.isTerminal = true)
    (fun transition => claimsOf [transition] runId = []) ?_ splits ⟨run, found, terminal⟩).2
  rintro system label next ⟨run, found, terminal⟩ ok
  rcases step_unstarted ok runId with ⟨none, unstarted⟩ | ⟨_, _, row, _, unstarted, starts⟩
  · obtain ⟨later, laterFound, kept⟩ := unstarted.present run found
    exact ⟨⟨later, laterFound, by rw [kept.terminal terminal]; exact terminal⟩, none⟩
  · obtain ⟨later, laterFound, kept⟩ := unstarted.present run found
    have rows := starts.found.symm.trans laterFound
    cases rows
    have same := kept.terminal terminal
    rw [starts.queued] at same
    rw [← same] at terminal
    cases terminal

/-- The executor raised an error that may be tried again. -/
def Stage.failsRetryably : Stage → Bool
  | .raised (.gateway _ retryable) => retryable
  | .raised (.retryable _) => true
  | .raised .other => true
  | _ => false

/-- The attempt that owns the run ends in a retryable failure. -/
def failsRetryably (transition : Transition System Label) (runId : Uuid) : Bool :=
  match transition.label with
  | .finish workerId _ _ now =>
    (transition.before.sessions.find? workerId).any fun session =>
      session.stage.failsRetryably && session.job.runId = runId &&
        (transition.before.store.ownedProcessing session.job workerId now).isSome
  | _ => false

/-- A retryable error is recorded as one, under some code. -/
theorem finish_of_failsRetryably {session : Session} (fails : session.stage.failsRetryably = true)
    (store : Store) (workerId : String) (newJobId : Uuid) (delay now : Instant) :
    ∃ errorCode, finish store workerId session newJobId delay now =
      store.completeFailure session.job workerId errorCode true newJobId delay now := by
  obtain ⟨job, context, stage⟩ := session
  cases stage with
  | raised error =>
    cases error with
    | gateway code retryable =>
      obtain rfl : retryable = true := fails
      exact ⟨code, rfl⟩
    | retryable code => exact ⟨code, rfl⟩
    | other => exact ⟨_, rfl⟩
    | _ => cases fails
  | _ => cases fails

/-- What a retryable failure makes of the run's status. -/
def AgentRun.afterFailure (run : AgentRun) : RunStatus :=
  if run.cancelRequestedAt.isSome then .cancelled
  else if run.attemptCount < maxRunAttempts then .queued else .failed

theorem Store.completeFailure_status {store after : Store} {job : WorkerJob} {workerId : String}
    {errorCode : PyStr} {newJobId : Uuid} {delay now : Instant} {handled : Bool} {run : AgentRun}
    (owned : store.ownedProcessing job workerId now = some run)
    (ok : store.completeFailure job workerId errorCode true newJobId delay now =
      .ok (after, handled)) :
    ∃ later, after.agentRuns.find? job.runId = some later ∧ later.status = run.afterFailure := by
  have found := (owns_of_ownedProcessing owned).present
  unfold completeFailure at ok
  simp only [owned, bind_eq_ok, raiseIf_eq_ok, exists_and_left, exists_const, true_and] at ok
  obtain ⟨_, ok⟩ := ok
  unfold AgentRun.afterFailure
  split at ok
  case isTrue requested =>
    simp only [cancelLocked, leaveRun, bind_eq_ok, updateRun_eq_ok, pure_eq_ok, Prod.mk.injEq] at ok
    obtain ⟨_, ⟨_, ⟨_, rfl⟩, rfl⟩, rfl, _⟩ := ok
    rw [if_pos requested]
    exact ⟨_, by simp [terminalReceipt, putReceipt, found]; rfl, rfl⟩
  case isFalse notRequested =>
    rw [if_neg notRequested]
    split at ok
    case isTrue retries =>
      simp only [leaveRun, enqueue, closeReceipt, bind_eq_ok, updateRun_eq_ok, raiseIf_eq_ok,
        pure_eq_ok, Prod.mk.injEq, exists_and_left, exists_const] at ok
      obtain ⟨_, ⟨_, rfl⟩, _, _, ⟨_, _, rfl⟩, rfl, _⟩ := ok
      rw [if_pos retries]
      exact ⟨_, by simp [found]; rfl, rfl⟩
    case isFalse spent =>
      simp only [endRun, closeReceipt, bind_eq_ok, updateRun_eq_ok, raiseIf_eq_ok, pure_eq_ok,
        Prod.mk.injEq, exists_and_left, exists_const] at ok
      obtain ⟨_, _, ⟨_, rfl⟩, rfl, _⟩ := ok
      rw [if_neg spent]
      exact ⟨_, by simp [found]; rfl, rfl⟩

/-- A retryable failure is of a run that is executed, which it leaves. -/
theorem failsRetryably_effect (ok : System.run platform system label = .ok next)
    (fails : failsRetryably ⟨system, label, next⟩ runId = true) :
    ∃ run later, system.store.agentRuns.find? runId = some run ∧ run.status = .running ∧
      next.store.agentRuns.find? runId = some later ∧ later.status = run.afterFailure := by
  unfold failsRetryably at fails
  split at fails
  case h_2 => cases fails
  case h_1 workerId newJobId delay now isFinish =>
    obtain rfl : label = .finish workerId newJobId delay now := isFinish
    obtain ⟨session, store, handled, present, done, rfl⟩ := System.run_finish.mp ok
    simp only [present, Option.any_some, Bool.and_eq_true, decide_eq_true_eq] at fails
    obtain ⟨⟨retryable, rfl⟩, owned⟩ := fails
    obtain ⟨run, owned⟩ := Option.isSome_iff_exists.mp owned
    have owns := Store.owns_of_ownedProcessing owned
    obtain ⟨errorCode, same⟩ := finish_of_failsRetryably retryable system.store workerId newJobId
      delay now
    rw [same] at done
    obtain ⟨later, laterFound, status⟩ := Store.completeFailure_status owned done
    exact ⟨run, later, owns.present, owns.running, laterFound, status⟩

theorem AgentRun.afterFailure_terminal {run : AgentRun} (spent : maxRunAttempts ≤ run.attemptCount) :
    run.afterFailure.isTerminal = true := by
  unfold AgentRun.afterFailure
  rw [if_neg (by omega : ¬ run.attemptCount < maxRunAttempts)]
  split <;> rfl

theorem AgentRun.not_running_afterFailure (run : AgentRun) : run.afterFailure ≠ .running := by
  unfold AgentRun.afterFailure
  split
  · simp
  · split <;> simp

/-- Every attempt ends in at most one retryable failure. -/
theorem failures_le (runs : (machine platform).Runs history system) (runId : Uuid) :
    (history.countP fun transition => failsRetryably transition runId) +
      (if system.store.board.running runId then 1 else 0) ≤ (claimsOf history runId).length := by
  refine runs.invariantWithHistory (fun history system =>
    (history.countP fun transition => failsRetryably transition runId) +
      (if system.store.board.running runId then 1 else 0) ≤ (claimsOf history runId).length) ?_ ?_
  · rintro opening ⟨_, memberships, agentDefinitions, unused⟩
    rw [unused]
    simp [Board.running, Store.board, Store.empty]
  · intro history system label next bounded ok
    rw [claimsOf_join, List.length_append, List.countP_append, List.countP_singleton]
    cases fails : failsRetryably ⟨system, label, next⟩ runId with
    | true =>
      -- The failing attempt was executing the run, and is not any more.
      obtain ⟨run, later, found, status, laterFound, laterStatus⟩ := failsRetryably_effect ok fails
      have before : system.store.board.running runId = true := by
        simp [Board.running, Store.board, found, status]
      have after : next.store.board.running runId = false := by
        simp [Board.running, Store.board, laterFound, laterStatus, run.not_running_afterFailure]
      simp only [before, after, if_true] at bounded ⊢
      simp
      omega
    | false =>
      rcases step_unstarted ok runId with ⟨none, unstarted⟩ | ⟨handed, _, _, one, _, _⟩
      · have kept := unstarted.running
        rw [none]
        cases after : next.store.board.running runId with
        | true =>
          rw [kept after] at bounded
          simpa using bounded
        | false =>
          simp
          omega
      · rw [one]
        have last : (if next.store.board.running runId = true then 1 else 0) ≤ 1 := by
          split <;> omega
        simp
        omega

/-- A run is failed by a retryable failure only once the budget of attempts is used up, and a
retryable failure that finds it used up, as the last of so many does, is the run's last one. -/
theorem retry_budget {ended : Transition System Label}
    (runs : (machine platform).Runs history system)
    (splits : history = earlier ++ ended :: later) (fails : failsRetryably ended runId = true) :
    (∀ run, ended.after.store.agentRuns.find? runId = some run → run.status = .failed →
      maxRunAttempts ≤ (claimsOf earlier runId).length) ∧
    (maxRunAttempts ≤ (claimsOf earlier runId).length ∨
      maxRunAttempts ≤ (earlier ++ [ended]).countP (fun transition =>
        failsRetryably transition runId) → claimsOf later runId = []) := by
  obtain ⟨before, step, _⟩ := runs.split splits
  obtain ⟨run, row, found, running, rowFound, status⟩ := failsRetryably_effect step fails
  have counted : run.attemptCount = (claimsOf earlier runId).length := by
    rw [← attempts_eq before runId]
    simp [Board.attempts, Store.board, found]
  constructor
  · intro other present failed
    rw [rowFound] at present
    cases present
    rw [status] at failed
    unfold AgentRun.afterFailure at failed
    split at failed
    · cases failed
    · split at failed
      · cases failed
      · omega
  · intro used
    have spent : maxRunAttempts ≤ run.attemptCount := by
      rcases used with started | failures
      · omega
      · have bounded := failures_le before runId
        rw [List.countP_append, List.countP_singleton, if_pos fails] at failures
        have executing : ended.before.store.board.running runId = true := by
          simp [Board.running, Store.board, found, running]
        rw [if_pos executing] at bounded
        omega
    exact ended_unstarted runs splits rowFound (status ▸ run.afterFailure_terminal spent)

end Histories

/-- An attempt of the example's run under a job that ends in a retryable failure, which queues
the next job. -/
def exampleFailure (jobId newJobId : Uuid) (now : Instant) : List Label :=
  [.claim "worker" (exampleJob jobId) 30 now,
    .act "worker" (.executorRaises (.retryable (py "busy"))), .finish "worker" newJobId 0 now]

theorem retry_budget_spent : ∃ earlier ended later system,
    (machine examplePlatform).Runs (earlier ++ ended :: later) system ∧
      (ended.after.store.agentRuns.find? 3).map AgentRun.status = some .failed ∧
      maxRunAttempts ≤ (claimsOf earlier 3).length ∧ claimsOf later 3 = [] := by
  obtain ⟨history, system, runs, checked⟩ := Machine.exists_run_of_trace Opening
    (System.run examplePlatform)
    (exampleCreateRun :: exampleFailure 5 20 0 ++ exampleFailure 20 21 1 ++ exampleFailure 21 22 2 ++
      [.claim "worker" (exampleJob 21) 30 3]) exampleOpening
    (fun history _ => Machine.splitsAt history 9 fun _ ended _ => failsRetryably ended 3 &&
      (ended.after.store.agentRuns.find? 3).map AgentRun.status = some .failed)
    (opening_openingWith _ _) (by decide +kernel)
  obtain ⟨earlier, ended, later, splits, checked⟩ := Machine.exists_split checked
  simp only [Bool.and_eq_true, decide_eq_true_eq] at checked
  obtain ⟨fails, failed⟩ := checked
  obtain ⟨run, found, status⟩ := Option.map_eq_some_iff.mp failed
  obtain ⟨onlyThen, lastOne⟩ := retry_budget runs splits fails
  have used := onlyThen run found status
  exact ⟨earlier, ended, later, system, splits ▸ runs, failed, used, lastOne (.inl used)⟩

/-- The attempt that executed the run lost its lease, and is recovered from. -/
def losesLease (transition : Transition System Label) (runId : Uuid) : Bool :=
  match transition.label with
  | .claim .. | .request (.recoverStale ..) =>
    (transition.before.store.agentRuns.find? runId).any fun run => run.status = .running &&
      transition.after.store.agentRuns.find? runId ≠ some run
  | _ => false

/-- How many attempts of a run have ended in a retryable failure or a lost lease. -/
def failedOrLost (history : List (Transition System Label)) (runId : Uuid) : Nat :=
  history.countP fun transition => failsRetryably transition runId || losesLease transition runId

/-- An attempt that asks for an approval, which is given and queues the next job. -/
def exampleWait (jobId callId approvalId newJobId : Uuid) (callKey : String) (now : Instant) :
    List Label :=
  [.claim "worker" (exampleJob jobId) 30 now,
    .act "worker" (.prepareCall (py callKey) (py "look") (.object []) callId approvalId now now),
    .finish "worker" newJobId 0 now,
    .request (.decideApproval exampleOwner 1 approvalId .approved newJobId now)]

/-- An attempt whose lease expires, and is recovered by the sweep. -/
def exampleLoss (workerId : String) (jobId newJobId : Uuid) (now : Instant) : List Label :=
  [.claim workerId (exampleJob jobId) 30 now,
    .request (.recoverStale 1 60 [(3, newJobId)] [] (now + seconds 40))]

/-- Two approvals use up the budget for failures, and no number of lost leases does. -/
theorem budget_counts_every_start :
    (∃ history ended system, (machine examplePlatform).Runs history system ∧
      history.getLast? = some ended ∧ failsRetryably ended 3 = true ∧
      (ended.after.store.agentRuns.find? 3).map AgentRun.status = some .failed ∧
      failedOrLost history 3 < maxRunAttempts) ∧
    ∃ history started system, (machine examplePlatform).Runs history system ∧
      history.getLast? = some started ∧ claimsOf [started] 3 ≠ [] ∧
      failedOrLost history.dropLast 3 = maxRunAttempts := by
  constructor
  · obtain ⟨history, system, runs, checked⟩ := Machine.exists_run_of_trace Opening
      (System.run examplePlatform)
      ([exampleUpsertTool, exampleSetPolicy .requireApproval, exampleCreateRun] ++
        exampleWait 5 7 8 10 "first" 0 ++ exampleWait 10 11 12 13 "second" 1 ++
        exampleFailure 13 14 2) exampleOpening
      (fun history _ => history.getLast?.any fun ended => failsRetryably ended 3 &&
        (ended.after.store.agentRuns.find? 3).map AgentRun.status = some .failed &&
        failedOrLost history 3 < maxRunAttempts) (opening_openingWith _ _) (by decide +kernel)
    obtain ⟨ended, last, checked⟩ := (Option.any_eq_true _ _).mp checked
    simp only [Bool.and_eq_true, decide_eq_true_eq] at checked
    obtain ⟨⟨fails, failed⟩, count⟩ := checked
    exact ⟨history, ended, system, runs, last, fails, failed, count⟩
  · obtain ⟨history, system, runs, checked⟩ := Machine.exists_run_of_trace Opening
      (System.run examplePlatform)
      (exampleCreateRun :: exampleLoss "first" 5 20 0 ++ exampleLoss "second" 20 21 (seconds 40) ++
        exampleLoss "third" 21 22 (seconds 80) ++
        [.claim "fourth" (exampleJob 22) 30 (seconds 120)]) exampleOpening
      (fun history _ => history.getLast?.any fun started =>
        (claimsOf [started] 3).isEmpty = false &&
        failedOrLost history.dropLast 3 = maxRunAttempts) (opening_openingWith _ _)
      (by decide +kernel)
    obtain ⟨started, last, checked⟩ := (Option.any_eq_true _ _).mp checked
    simp only [Bool.and_eq_true, decide_eq_true_eq] at checked
    obtain ⟨starts, count⟩ := checked
    exact ⟨history, started, system, runs, last, by simpa using starts, count⟩

end Nexora.Run
