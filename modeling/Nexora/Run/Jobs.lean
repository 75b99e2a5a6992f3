import Nexora.Run.Effects

/-!
# Jobs and their receipts

A job is for one run for ever, and a receipt is for the run of its job: a claim only
answers a delivery that agrees with the stored job, and no later transaction moves a job
or a receipt to another run.
-/

namespace Nexora.Run

open Nexora.Std Nexora.Workspace Nexora.Tools

namespace Store

/-- The outbox holds the job a worker has read, for the same run. -/
def JobStored (store : Store) (job : WorkerJob) : Prop :=
  ∃ row, store.jobOutbox.find? job.jobId = some row ∧ row.runId = job.runId ∧
    row.workspaceId = job.workspaceId

/-- Every receipt is for the run of its job. -/
def ReceiptsMatchJobs (store : Store) : Prop :=
  ∀ jobId receipt, store.receipts.find? jobId = some receipt →
    ∃ row, store.jobOutbox.find? jobId = some row ∧ row.runId = receipt.runId ∧
      row.workspaceId = receipt.workspaceId

/-- Jobs stay for their runs, and receipts for the runs of their jobs. -/
structure JobsKept (before after : Store) : Prop where
  jobs : ∀ jobId row, before.jobOutbox.find? jobId = some row →
    ∃ later, after.jobOutbox.find? jobId = some later ∧ later.runId = row.runId ∧
      later.workspaceId = row.workspaceId
  receipts : before.ReceiptsMatchJobs → after.ReceiptsMatchJobs

theorem JobStored.receipt_runId {store : Store} {job : WorkerJob} (stored : store.JobStored job)
    (matched : store.ReceiptsMatchJobs) {receipt : Receipt}
    (present : store.receipts.find? job.jobId = some receipt) :
    receipt.runId = job.runId ∧ receipt.workspaceId = job.workspaceId := by
  obtain ⟨row, found, runId, workspaceId⟩ := stored
  obtain ⟨other, otherFound, otherRun, otherWorkspace⟩ := matched job.jobId receipt present
  rw [found] at otherFound
  cases otherFound
  exact ⟨otherRun.symm.trans runId, otherWorkspace.symm.trans workspaceId⟩

theorem JobStored.kept {before after : Store} {job : WorkerJob} (stored : before.JobStored job)
    (kept : JobsKept before after) : after.JobStored job := by
  obtain ⟨row, found, runId, workspaceId⟩ := stored
  obtain ⟨later, laterFound, laterRun, laterWorkspace⟩ := kept.jobs job.jobId row found
  exact ⟨later, laterFound, laterRun.trans runId, laterWorkspace.trans workspaceId⟩

namespace JobsKept

variable {first second third : Store}

/-- Receipts are rewritten in place and the outbox is left alone. -/
theorem of_receipts (jobs : second.jobOutbox = first.jobOutbox)
    (receipts : ∀ jobId receipt, second.receipts.find? jobId = some receipt →
      ∃ earlier, first.receipts.find? jobId = some earlier ∧ earlier.runId = receipt.runId ∧
        earlier.workspaceId = receipt.workspaceId) : JobsKept first second where
  jobs jobId row found := ⟨row, jobs ▸ found, rfl, rfl⟩
  receipts matched jobId receipt present := by
    obtain ⟨earlier, earlierPresent, runId, workspaceId⟩ := receipts jobId receipt present
    obtain ⟨row, found, rowRun, rowWorkspace⟩ := matched jobId earlier earlierPresent
    exact ⟨row, jobs ▸ found, rowRun.trans runId, rowWorkspace.trans workspaceId⟩

theorem of_eq (jobs : second.jobOutbox = first.jobOutbox)
    (receipts : second.receipts = first.receipts) : JobsKept first second :=
  of_receipts jobs fun _ receipt present => ⟨receipt, receipts ▸ present, rfl, rfl⟩

theorem refl (store : Store) : JobsKept store store := of_eq rfl rfl

theorem trans (early : JobsKept first second) (late : JobsKept second third) :
    JobsKept first third where
  jobs jobId row found := by
    obtain ⟨middle, middleFound, middleRun, middleWorkspace⟩ := early.jobs jobId row found
    obtain ⟨later, laterFound, laterRun, laterWorkspace⟩ := late.jobs jobId middle middleFound
    exact ⟨later, laterFound, laterRun.trans middleRun, laterWorkspace.trans middleWorkspace⟩
  receipts matched := late.receipts (early.receipts matched)

/-- A step after statements on other tables. -/
theorem after (late : JobsKept second third) (jobs : second.jobOutbox = first.jobOutbox)
    (receipts : second.receipts = first.receipts) : JobsKept first third :=
  (of_eq jobs receipts).trans late

end JobsKept

variable {delay : Instant}

section Statements

variable {store next : Store} {job : WorkerJob} {workerId : String} {now : Instant} {jobId : Uuid}

theorem closeReceipt_jobsKept (store : Store) (jobId : Uuid) (status : ReceiptStatus) :
    JobsKept store (store.closeReceipt jobId status) := by
  refine .of_receipts rfl fun other receipt present => ?_
  rw [closeReceipt, Table.find?_modify] at present
  split at present
  case isTrue same =>
    obtain ⟨earlier, found, rfl⟩ := Option.map_eq_some_iff.mp present
    exact ⟨earlier, same ▸ found, rfl, rfl⟩
  case isFalse => exact ⟨receipt, present, rfl, rfl⟩

theorem supersedeReceipts_jobsKept (store : Store) (runId : Uuid) (clearLease : Bool) :
    JobsKept store (store.supersedeReceipts runId clearLease) := by
  refine .of_receipts rfl fun jobId receipt present => ?_
  rw [supersedeReceipts, Table.find?_mapRows, Option.map_eq_some_iff] at present
  obtain ⟨earlier, found, rfl⟩ := present
  refine ⟨earlier, found, ?_, ?_⟩ <;> split <;> rfl

theorem renewLease_jobsKept (store : Store) (jobId runId : Uuid) (workerId : String)
    (leaseSeconds : Nat) (now : Instant) :
    JobsKept store (store.renewLease jobId runId workerId leaseSeconds now) := by
  refine .of_receipts rfl fun other receipt present => ?_
  rw [renewLease, Table.find?_modify] at present
  split at present
  case isTrue same =>
    obtain ⟨earlier, found, rfl⟩ := Option.map_eq_some_iff.mp present
    refine ⟨earlier, same ▸ found, ?_, ?_⟩ <;> split <;> rfl
  case isFalse => exact ⟨receipt, present, rfl, rfl⟩

theorem putReceipt_jobsKept {status : ReceiptStatus} {leaseExpiresAt : Option Instant}
    (stored : store.JobStored job) :
    JobsKept store (store.putReceipt job status workerId leaseExpiresAt) where
  jobs jobId row found := ⟨row, found, rfl, rfl⟩
  receipts matched jobId receipt present := by
    rw [putReceipt, Table.find?_put_eq] at present
    split at present
    case isFalse => exact matched jobId receipt present
    case isTrue same =>
      subst same
      cases present
      split
      case h_1 earlier found => exact matched job.jobId earlier found
      case h_2 => exact stored

theorem enqueue_jobsKept {runId : Uuid} {run : AgentRun} {availableAt : Instant}
    (ok : store.enqueue jobId run runId availableAt = .ok next) : JobsKept store next := by
  simp only [enqueue, bind_eq_ok, orRaise_eq_ok, pure_eq_ok, Table.insert?_eq_some] at ok
  obtain ⟨_, ⟨absent, rfl⟩, rfl⟩ := ok
  have kept (other : Uuid) (row : OutboxJob) (found : store.jobOutbox.find? other = some row) :
      other ≠ jobId := by
    rintro rfl
    rw [absent] at found
    cases found
  constructor
  · intro other row found
    exact ⟨row, by simp [kept other row found, found], rfl, rfl⟩
  · intro matched other receipt present
    obtain ⟨row, found, same⟩ := matched other receipt present
    exact ⟨row, by simp [kept other row found, found], same⟩

theorem publish_jobsKept {delivered : Bool}
    (ok : store.publish jobId delivered delay now = .ok next) : JobsKept store next := by
  simp only [publish, bind_eq_ok, orRaise_eq_ok, pure_eq_ok, Option.filter_eq_some_iff] at ok
  obtain ⟨job, ⟨present, _⟩, rfl⟩ := ok
  have kept (other : Uuid) (row : OutboxJob) (found : store.jobOutbox.find? other = some row) :
      ∃ later, (store.jobOutbox.put jobId (
        if delivered then { job with attempts := job.attempts + 1, publishedAt := some now }
        else if maxPublishAttempts ≤ job.attempts + 1 then
          { job with attempts := job.attempts + 1, deadLetteredAt := some now }
        else { job with attempts := job.attempts + 1, availableAt := now + delay })).find? other =
          some later ∧ later.runId = row.runId ∧ later.workspaceId = row.workspaceId := by
    by_cases same : other = jobId
    · subst same
      rw [present] at found
      cases found
      refine ⟨_, Table.find?_put _ _ _, ?_, ?_⟩ <;> (repeat' split) <;> rfl
    · exact ⟨row, by simp [same, found], rfl, rfl⟩
  constructor
  · exact kept
  · intro matched other receipt found
    obtain ⟨row, rowFound, runId, workspaceId⟩ := matched other receipt found
    obtain ⟨later, laterFound, laterRun, laterWorkspace⟩ := kept other row rowFound
    exact ⟨later, laterFound, laterRun.trans runId, laterWorkspace.trans workspaceId⟩

end Statements

section Operations

variable {store next : Store} {job : WorkerJob} {workerId : String} {now : Instant}
  {approvalId : Uuid} {recovery : Uuid × Uuid}

theorem cancelLocked_jobsKept (stored : store.JobStored job)
    (ok : store.cancelLocked job workerId now = .ok next) : JobsKept store next := by
  simp only [cancelLocked, leaveRun, bind_eq_ok, updateRun_eq_ok, pure_eq_ok] at ok
  obtain ⟨cancelled, ⟨_, rfl⟩, rfl⟩ := ok
  exact .after (putReceipt_jobsKept stored) rfl rfl

theorem finish_jobsKept {session : Session} {newJobId : Uuid} {handled : Bool}
    (stored : store.JobStored session.job)
    (ok : finish store workerId session newJobId delay now = .ok (next, handled)) :
    JobsKept store next := by
  cases finish_effect ok with
  | stands same => exact same ▸ .refl store
  | cancelled _ _ done => exact cancelLocked_jobsKept stored done
  | waiting _ _ _ _ _ _ _ done closed =>
    rw [leaveRun, updateRun_eq_ok] at done
    obtain ⟨_, rfl⟩ := done
    exact closed ▸ .after (closeReceipt_jobsKept _ _ _) rfl rfl
  | ended _ _ _ _ done closed =>
    rw [endRun, updateRun_eq_ok] at done
    obtain ⟨_, rfl⟩ := done
    exact closed ▸ .after (closeReceipt_jobsKept _ _ _) rfl rfl
  | retried _ done enqueued =>
    rw [leaveRun, updateRun_eq_ok] at done
    obtain ⟨_, rfl⟩ := done
    exact .after ((closeReceipt_jobsKept _ _ _).trans (enqueue_jobsKept enqueued)) rfl rfl

/-- A fold of steps that keep jobs. -/
theorem foldlM_jobsKept {Item : Type} {step : Store → Item → Except Raised Store}
    {items : List Item}
    (each : ∀ store item next, step store item = .ok next → JobsKept store next)
    (ok : items.foldlM step store = .ok next) : JobsKept store next :=
  foldlM_invariant (JobsKept store)
    (fun current item _ after before done => before.trans (each current item after done))
    (.refl store) ok

theorem recoverExpired_jobsKept (ok : recoverExpired now store recovery = .ok next) :
    JobsKept store next := by
  simp only [recoverExpired, leaveRun, bind_eq_ok, updateRun_eq_ok] at ok
  obtain ⟨run, _, queued, ⟨_, rfl⟩, enqueued⟩ := ok
  exact (supersedeReceipts_jobsKept store recovery.1 true).trans
    (.after (enqueue_jobsKept enqueued) rfl rfl)

theorem requeueOrphan_jobsKept {orphanSeconds : Nat}
    (ok : requeueOrphan orphanSeconds now store recovery = .ok next) : JobsKept store next := by
  simp only [requeueOrphan, bind_eq_ok, updateRun_eq_ok] at ok
  obtain ⟨run, _, touched, ⟨_, rfl⟩, enqueued⟩ := ok
  exact .after (enqueue_jobsKept enqueued) rfl rfl

theorem cancelApproval_jobsKept {approval : ToolApproval} {status : ApprovalStatus}
    (ok : store.cancelApproval approvalId approval status now = .ok next) :
    JobsKept store next := by
  obtain ⟨_, _, rfl | left_⟩ := cancelApproval_effect ok
  · exact .of_eq rfl rfl
  · rw [leaveRun, updateRun_eq_ok] at left_
    obtain ⟨_, rfl⟩ := left_
    exact .of_eq rfl rfl

theorem expireApproval_jobsKept (ok : expireApproval now store approvalId = .ok next) :
    JobsKept store next := by
  simp only [expireApproval, bind_eq_ok] at ok
  obtain ⟨approval, _, ok⟩ := ok
  exact cancelApproval_jobsKept ok

end Operations

end Store

theorem Request.run_jobsKept {platform : Platform} {store next : Store} {request : Request}
    (ok : request.run platform store = .ok next) : Store.JobsKept store next := by
  cases Request.effect ok with
  | stands same => exact same ▸ .refl store
  | settings same => exact same ▸ .of_eq rfl rfl
  | created _ enqueued => exact .after (Store.enqueue_jobsKept enqueued) rfl rfl
  | requested _ _ same => exact same ▸ .of_eq rfl rfl
  | cancelled _ _ same => exact same ▸ .of_eq rfl rfl
  | lapsed _ _ _ done => exact Store.cancelApproval_jobsKept done
  | rejected _ _ _ _ same => exact same ▸ .of_eq rfl rfl
  | approved _ _ _ _ enqueued => exact .after (Store.enqueue_jobsKept enqueued) rfl rfl
  | expired done => exact Store.foldlM_jobsKept (fun _ _ _ => Store.expireApproval_jobsKept) done
  | recovered _ first second =>
    exact (Store.foldlM_jobsKept (fun _ _ _ => Store.recoverExpired_jobsKept) first).trans
      (Store.foldlM_jobsKept (fun _ _ _ => Store.requeueOrphan_jobsKept) second)
  | published _ done => exact Store.publish_jobsKept done

end Nexora.Run
