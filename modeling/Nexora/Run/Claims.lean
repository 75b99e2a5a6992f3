import Nexora.Run.Jobs
import Nexora.Run.Moves

/-!
# What a claim grants

`claim` either only answers a delivery, which grants nothing, or hands out a context, which
is a grant of the run under the next attempt number.
-/

namespace Nexora.Run

open Nexora.Std Nexora.Std.Fencing Nexora.Workspace Nexora.Tools

/-- The grant a claimed context stands for. -/
def ExecutionContext.grant (context : ExecutionContext) (workerId : String) :
    Grant String Uuid :=
  ⟨context.attemptCount, context.jobId, workerId⟩

namespace Store

variable {store next : Store} {job : WorkerJob} {workerId : String} {now : Instant}
  {leaseSeconds : Nat} {run : AgentRun} {profile : ExecutionProfile}
  {handed : Option ExecutionContext}

/-- What the reads of `claim` have established about the run it goes on with. -/
structure Claimable (store : Store) (job : WorkerJob) (run : AgentRun)
    (profile : ExecutionProfile) : Prop where
  stored : store.JobStored job
  receipt : ∀ receipt, store.receipts.find? job.jobId = some receipt → receipt.status = .processing
  present : store.agentRuns.find? job.runId = some run
  workspace : run.workspaceId = job.workspaceId
  profile : store.executionProfile run = some profile

theorem claimable_of_claimTarget (target : store.claimTarget job = some (run, profile)) :
    store.Claimable job run profile := by
  simp only [claimTarget, validateJob, Option.bind_eq_bind, Option.bind_eq_some_iff, runIn_eq_some,
    Option.guard_eq_some', Option.pure_def, Option.some.injEq, Prod.mk.injEq] at target
  obtain ⟨payload, ⟨row, found, _, _, _, same, rfl⟩, _, receipt, _, ⟨present, workspace⟩, _, _,
    _, profiled, rfl, rfl⟩ := target
  exact ⟨⟨row, found, same.2.1, same.1⟩, receipt, present, workspace, profiled⟩

/-- A run that is free before it is started is granted under the next attempt number. -/
theorem startAttempt_fenced (matched : store.ReceiptMatches job)
    (present : store.agentRuns.find? job.runId = some run) (free : run.phase = .free)
    (ok : store.startAttempt job workerId leaseSeconds now = .ok next) (runId : Uuid)
    (grants : List (Grant String Uuid)) (fenced : Fenced (store.standing runId) grants) :
    Fenced (next.standing runId)
      (grants ++ if runId = job.runId then [⟨run.attemptCount + 1, job.jobId, workerId⟩] else []) := by
  simp only [startAttempt, bind_eq_ok, updateRun_eq_ok, pure_eq_ok] at ok
  obtain ⟨started, ⟨_, rfl⟩, rfl⟩ := ok
  -- Beside the job's own receipt nothing is processed that was not before.
  have tickets (other : Uuid) (holder : String) (receipt : Receipt)
      (found : (store.putReceipt job .processing workerId (some (now + seconds leaseSeconds))).receipts.find?
        other = some receipt) (processes : receipt.processes runId holder) :
      (other = job.jobId ∧ holder = workerId ∧ runId = job.runId) ∨
        (store.standing runId).outstanding other holder := by
    rw [putReceipt, Table.find?_put_eq] at found
    split at found
    case isFalse => exact .inr ⟨receipt, found, processes⟩
    case isTrue same =>
      cases found
      refine .inl ⟨same, ?_, ?_⟩
      · rw [← processes.2.2]
        split <;> rfl
      · rw [← processes.1]
        split
        case h_1 earlier before => exact matched earlier before
        case h_2 => rfl
  by_cases same : runId = job.runId
  · subst same
    rw [if_pos rfl]
    refine fenced.move (.grant ⟨run.attemptCount + 1, job.jobId, workerId⟩ ?_ ?_ ?_ ?_)
    · simp [standing, present]
    · simp [standing, putReceipt, present]
    · simp [standing, putReceipt, present, AgentRun.phase]
    · rintro other holder ⟨receipt, found, processes⟩
      rcases tickets other holder receipt found processes with ⟨ticket, worker, _⟩ | before
      · exact .inl ⟨ticket, worker⟩
      · exact .inr ⟨by simp [standing, present, free], before⟩
  · rw [if_neg same, List.append_nil]
    refine fenced.move_none (.keep ?_ ?_ ?_)
    · simp [standing, putReceipt, same]
    · simp [standing, putReceipt, same]
    · rintro other holder ⟨receipt, found, processes⟩
      rcases tickets other holder receipt found processes with ⟨_, _, impossible⟩ | before
      · exact absurd impossible same
      · exact before

/-- The store in which a claimed run is free: the run was, or its lease had expired and it
has just been recovered. -/
inductive Recovered (store : Store) (job : WorkerJob) (run : AgentRun) (now : Instant) :
    Store → Prop where
  | queued (status : run.status = .queued) : Recovered store job run now store
  | expired {recovered : Store} (status : run.status = .running) (expired : run.live now = false)
      (ok : (store.supersedeReceipts job.runId false).leaveRun job.runId .queued now =
        .ok recovered) : Recovered store job run now recovered

/-- A run that has not ended, does not wait and is not held is queued, or is recovered. -/
theorem recovered_of_recoverClaimed {recovered : Store} (open_ : run.status.isTerminal = false)
    (notWaiting : run.status ≠ .waitingForApproval)
    (notHeld : ¬ (run.status = .running ∧ run.live now = true))
    (recovery : store.recoverClaimed job run now = .ok recovered) :
    Recovered store job run now recovered := by
  unfold recoverClaimed at recovery
  split at recovery
  case isTrue running =>
    refine .expired running ?_ recovery
    simpa [running] using notHeld
  case isFalse other =>
    cases recovery
    refine .queued ?_
    cases status : run.status <;> simp_all [RunStatus.isTerminal]

/-- Everything `claim` can do. -/
inductive ClaimEffect (store : Store) (job : WorkerJob) (workerId : String) (leaseSeconds : Nat)
    (now : Instant) : Store → Option ExecutionContext → Prop where
  | untouched : ClaimEffect store job workerId leaseSeconds now store none
  | answered (status : ReceiptStatus) (ended : status ≠ .processing)
      (stored : store.JobStored job) :
      ClaimEffect store job workerId leaseSeconds now (store.terminalReceipt job status workerId)
        none
  | cancelled (run : AgentRun) (profile : ExecutionProfile) (recovered next : Store)
      (claimable : store.Claimable job run profile)
      (free : Recovered store job run now recovered)
      (requested : run.cancelRequestedAt.isSome = true)
      (ok : recovered.cancelLocked job workerId now = .ok next) :
      ClaimEffect store job workerId leaseSeconds now next none
  | started (run : AgentRun) (profile : ExecutionProfile) (recovered next : Store)
      (claimable : store.Claimable job run profile)
      (idle : ∀ receipt, store.receipts.find? job.jobId = some receipt → receipt.live now = false)
      (free : Recovered store job run now recovered)
      (requested : run.cancelRequestedAt = none)
      (ok : recovered.startAttempt job workerId leaseSeconds now = .ok next) :
      ClaimEffect store job workerId leaseSeconds now next (some (contextOf job run profile))

/-- `claim` does nothing else. -/
theorem claim_effect (ok : store.claim job workerId leaseSeconds now = .ok (next, handed)) :
    ClaimEffect store job workerId leaseSeconds now next handed := by
  simp only [claim, bind_eq_ok, raiseIf_eq_ok, exists_and_left, exists_const] at ok
  obtain ⟨_, ok⟩ := ok
  split at ok
  case h_1 =>
    cases ok
    exact .untouched
  case h_2 run profile target =>
    have claimable := claimable_of_claimTarget target
    split at ok
    · cases ok
      refine .answered _ ?_ claimable.stored
      cases run.status <;> simp [endedReceipt]
    rename_i open_
    split at ok
    · cases ok
      exact .answered .superseded (by simp) claimable.stored
    rename_i notWaiting
    split at ok
    · cases ok
      exact .untouched
    rename_i dead
    split at ok
    · cases ok
      exact .answered .superseded (by simp) claimable.stored
    rename_i notHeld
    have idle (receipt : Receipt) (found : store.receipts.find? job.jobId = some receipt) :
        receipt.live now = false := by
      simpa [found] using dead
    simp only [claimRun, bind_eq_ok] at ok
    obtain ⟨recovered, recovery, ok⟩ := ok
    have free := recovered_of_recoverClaimed (by simpa using open_) notWaiting notHeld recovery
    split at ok
    case isTrue requested =>
      simp only [bind_eq_ok, pure_eq_ok, Prod.mk.injEq] at ok
      obtain ⟨_, done, rfl, rfl⟩ := ok
      exact .cancelled run profile recovered _ claimable free requested done
    case isFalse requested =>
      simp only [bind_eq_ok, pure_eq_ok, Prod.mk.injEq] at ok
      obtain ⟨_, done, rfl, rfl⟩ := ok
      exact .started run profile recovered _ claimable idle free (by simpa using requested) done

section Recovered

variable {recovered : Store}

/-- A recovered run is free and keeps its attempt number. -/
theorem Recovered.present (free : Recovered store job run now recovered)
    (present : store.agentRuns.find? job.runId = some run) :
    ∃ row, recovered.agentRuns.find? job.runId = some row ∧ row.phase = .free ∧
      row.attemptCount = run.attemptCount := by
  cases free with
  | queued status => exact ⟨run, present, by simp [AgentRun.phase, status], rfl⟩
  | expired status expired ok =>
    rw [leaveRun, updateRun_eq_ok] at ok
    obtain ⟨_, rfl⟩ := ok
    refine ⟨{ run with status := .queued, lease := none, updatedAt := now }, ?_, rfl, rfl⟩
    simp [supersedeReceipts, present]

theorem Recovered.undisturbed (free : Recovered store job run now recovered) :
    Undisturbed store recovered := by
  cases free with
  | queued => exact .refl store
  | expired _ _ ok => exact takeBack_undisturbed false ok

theorem Recovered.jobsKept (free : Recovered store job run now recovered) :
    JobsKept store recovered := by
  cases free with
  | queued => exact .refl store
  | expired _ _ ok =>
    rw [leaveRun, updateRun_eq_ok] at ok
    obtain ⟨_, rfl⟩ := ok
    exact (supersedeReceipts_jobsKept store job.runId false).trans (.of_eq rfl rfl)

end Recovered

theorem claim_jobsKept (ok : store.claim job workerId leaseSeconds now = .ok (next, handed)) :
    JobsKept store next := by
  cases claim_effect ok with
  | untouched => exact .refl store
  | answered status ended stored => exact putReceipt_jobsKept stored
  | cancelled run profile recovered _ claimable free requested done =>
    exact free.jobsKept.trans (cancelLocked_jobsKept (claimable.stored.kept free.jobsKept) done)
  | started run profile recovered _ claimable idle free requested done =>
    have stored : recovered.JobStored job := claimable.stored.kept free.jobsKept
    refine free.jobsKept.trans ?_
    simp only [startAttempt, bind_eq_ok, updateRun_eq_ok, pure_eq_ok] at done
    obtain ⟨started, ⟨_, rfl⟩, rfl⟩ := done
    exact .after (putReceipt_jobsKept stored) rfl rfl

/-- A claim that hands out a context grants its run, and any other grants nothing. -/
theorem claim_fenced (matched : store.ReceiptsMatchJobs)
    (ok : store.claim job workerId leaseSeconds now = .ok (next, handed)) (runId : Uuid)
    (grants : List (Grant String Uuid)) (fenced : Fenced (store.standing runId) grants) :
    Fenced (next.standing runId) (grants ++
      ((handed.toList.filter fun context => context.runId = runId).map
        fun context => context.grant workerId)) := by
  cases claim_effect ok with
  | untouched => simpa using fenced
  | answered status ended stored =>
    have kept : Undisturbed store (store.terminalReceipt job status workerId) :=
      .of_kept (.terminalReceipt store job workerId ended) fun _ => rfl
    simpa using kept runId grants fenced
  | cancelled run profile recovered _ claimable free requested done =>
    simpa using (free.undisturbed.trans (cancelLocked_undisturbed done)) runId grants fenced
  | started run profile recovered _ claimable idle free requested done =>
    obtain ⟨row, present, rowFree, attempt⟩ := free.present claimable.present
    have receipts : recovered.ReceiptMatches job := fun receipt found =>
      ((claimable.stored.kept free.jobsKept).receipt_runId (free.jobsKept.receipts matched)
        found).1
    have granted := startAttempt_fenced receipts present rowFree done runId grants
      (free.undisturbed runId grants fenced)
    by_cases same : runId = job.runId
    · subst same
      simpa [contextOf, ExecutionContext.grant, attempt] using granted
    · have distinct : job.runId ≠ runId := fun equal => same equal.symm
      simpa [contextOf, same, distinct] using granted

end Store

end Nexora.Run
