import Nexora.Run.Effects
import Nexora.Run.Standing

/-!
# Which transactions make no grant

One lemma for each operation of the run state and of the requests: whatever grants the
runs' standings agreed with, they still do. What a worker records of its attempt is a
move of the holder only because a job's receipt is for the job's own run.
-/

namespace Nexora.Run

open Nexora.Std Nexora.Std.Fencing Nexora.Workspace Nexora.Tools

namespace Store

/-- The receipt of a job, if there is one, is for the job's run. -/
def ReceiptMatches (store : Store) (job : WorkerJob) : Prop :=
  ∀ receipt, store.receipts.find? job.jobId = some receipt → receipt.runId = job.runId

variable {store next : Store} {job : WorkerJob} {workerId : String} {now : Instant} {run : AgentRun}
  {runId approvalId : Uuid} {change : AgentRun → AgentRun} {recovery : Uuid × Uuid}

theorem Owns.phase (owns : store.Owns job workerId now run) : run.phase = .held workerId := by
  obtain ⟨lease, held, owner, _⟩ := owns.held
  simp [AgentRun.phase, owns.running, held, owner]

theorem Owns.processes (owns : store.Owns job workerId now run)
    (matched : store.ReceiptMatches job) : ∃ receipt,
    store.receipts.find? job.jobId = some receipt ∧ receipt.processes job.runId workerId := by
  obtain ⟨receipt, found, processing, worker, _⟩ := owns.receipt
  exact ⟨receipt, found, matched receipt found, processing, worker⟩

/-- A run that ends, whatever else its update writes. -/
theorem undisturbed_of_end (receipts : NoNewReceipts store next)
    (modified : next.agentRuns = store.agentRuns.modify runId change)
    (attempt : ∀ run, (change run).attemptCount = run.attemptCount)
    (ended : ∀ run, (change run).status.isTerminal = true) : Undisturbed store next := by
  refine .of_closed receipts modified fun run _ => ⟨attempt run, ?_⟩
  have terminal := ended run
  unfold AgentRun.phase
  cases status : (change run).status <;> simp_all [RunStatus.isTerminal]

theorem cancelLocked_undisturbed (ok : store.cancelLocked job workerId now = .ok next) :
    Undisturbed store next := by
  simp only [cancelLocked, leaveRun, bind_eq_ok, updateRun_eq_ok, pure_eq_ok] at ok
  obtain ⟨cancelled, ⟨_, rfl⟩, rfl⟩ := ok
  refine undisturbed_of_end ?_ rfl (fun _ => rfl) fun _ => rfl
  exact (NoNewReceipts.of_eq rfl).trans (.terminalReceipt _ job workerId (by simp))

theorem enqueue_undisturbed {jobId : Uuid} {availableAt : Instant}
    (ok : store.enqueue jobId run runId availableAt = .ok next) : Undisturbed store next := by
  simp only [enqueue, bind_eq_ok, orRaise_eq_ok, pure_eq_ok] at ok
  obtain ⟨jobOutbox, _, rfl⟩ := ok
  exact .of_eq rfl rfl

theorem renewLease_undisturbed (jobId runId : Uuid) (leaseSeconds : Nat) :
    Undisturbed store (store.renewLease jobId runId workerId leaseSeconds now) := by
  refine .of_modified_kept ?_ rfl ?_
  · refine NoNewReceipts.of_rewrite (fun other receipt =>
      if other = jobId ∧ receipt.runId = runId ∧ receipt.status = .processing ∧
          receipt.workerId = workerId ∧ receipt.live now then
        { receipt with leaseExpiresAt := some (now + seconds leaseSeconds) }
      else receipt) (fun other => ?_) ?_
    · rw [renewLease, Table.find?_modify]
      by_cases same : other = jobId
      · simp [same]
      · simp [same]
    · intro other receipt runId' workerId' processes
      split at processes
      · exact processes
      · exact processes
  · intro run _
    split
    case isTrue holds =>
      obtain ⟨running, _, owner⟩ := holds
      obtain ⟨lease, held, same⟩ := (Option.any_eq_true _ _).mp owner
      simp [AgentRun.phase, running, held, of_decide_eq_true same]
    case isFalse => exact ⟨rfl, rfl⟩

/-- The holder gives its run back and ends the job it holds it by. -/
theorem Owns.release (owns : store.Owns job workerId now run) (matched : store.ReceiptMatches job)
    (status : ReceiptStatus) (ended : status ≠ .processing)
    (receipts : next.receipts = (store.closeReceipt job.jobId status).receipts)
    (modified : next.agentRuns = store.agentRuns.modify job.runId change)
    (attempt : ∀ run, (change run).attemptCount = run.attemptCount)
    (freed : ∀ run, (change run).phase = .free) : Undisturbed store next := by
  refine .of_released job.jobId workerId ?_ modified ?_ (owns.processes matched) ?_
  · exact (NoNewReceipts.closeReceipt store job.jobId ended).trans (.of_eq receipts)
  · intro other present
    rw [owns.present] at present
    cases present
    exact ⟨attempt run, freed run, owns.phase⟩
  · intro receipt found
    rw [receipts, closeReceipt, Table.find?_modify_self, Option.map_eq_some_iff] at found
    obtain ⟨_, _, rfl⟩ := found
    exact ended

theorem finish_undisturbed {session : Session} {newJobId : Uuid} {delay : Instant}
    {handled : Bool} (matched : store.ReceiptMatches session.job)
    (ok : finish store workerId session newJobId delay now = .ok (next, handled)) :
    Undisturbed store next := by
  cases finish_effect ok with
  | stands same => exact same ▸ .refl store
  | cancelled _ _ done => exact cancelLocked_undisturbed done
  | waiting _ owned _ _ _ _ _ done closed =>
    rw [leaveRun, updateRun_eq_ok] at done
    obtain ⟨_, rfl⟩ := done
    exact closed ▸ (owns_of_ownedProcessing owned).release matched .superseded (by simp) rfl rfl
      (fun _ => rfl) fun _ => rfl
  | ended _ _ stopped result done closed =>
    rw [endRun, updateRun_eq_ok] at done
    obtain ⟨_, rfl⟩ := done
    refine closed ▸ undisturbed_of_end (.closeReceipt store session.job.jobId stopped) rfl
      (fun _ => rfl) fun _ => ?_
    rcases result with ⟨rfl, _⟩ | rfl
    · rfl
    · rfl
  | retried owned done enqueued =>
    rw [leaveRun, updateRun_eq_ok] at done
    obtain ⟨_, rfl⟩ := done
    refine Undisturbed.trans ?_ (enqueue_undisturbed enqueued)
    exact (owns_of_ownedProcessing owned).release matched .failed (by simp) rfl rfl
      (fun _ => rfl) fun _ => rfl

/-- Taking a run back, with every receipt it is processed under. -/
theorem takeBack_undisturbed (clearLease : Bool)
    (ok : (store.supersedeReceipts runId clearLease).leaveRun runId .queued now = .ok next) :
    Undisturbed store next := by
  simp only [leaveRun, updateRun_eq_ok] at ok
  obtain ⟨_, rfl⟩ := ok
  refine .of_recovered (.supersedeReceipts store runId clearLease) rfl
    (fun _ _ => ⟨rfl, rfl⟩) ?_
  intro jobId receipt found same
  have present := found
  rw [show ({ store.supersedeReceipts runId clearLease with
      agentRuns := _ } : Store).receipts = (store.supersedeReceipts runId clearLease).receipts
      from rfl, supersedeReceipts, Table.find?_mapRows, Option.map_eq_some_iff] at present
  obtain ⟨earlier, _, rfl⟩ := present
  split at same
  case isTrue holds => simp [holds]
  case isFalse fails =>
    simp only [fails, if_false]
    exact fun processing => fails ⟨same, processing⟩

theorem recoverExpired_undisturbed (ok : recoverExpired now store recovery = .ok next) :
    Undisturbed store next := by
  simp only [recoverExpired, bind_eq_ok, orRaise_eq_ok] at ok
  obtain ⟨run, _, queued, taken, enqueued⟩ := ok
  exact (takeBack_undisturbed true taken).trans (enqueue_undisturbed enqueued)

theorem requeueOrphan_undisturbed {orphanSeconds : Nat}
    (ok : requeueOrphan orphanSeconds now store recovery = .ok next) :
    Undisturbed store next := by
  simp only [requeueOrphan, bind_eq_ok, orRaise_eq_ok, updateRun_eq_ok] at ok
  obtain ⟨run, _, touched, ⟨_, rfl⟩, enqueued⟩ := ok
  refine Undisturbed.trans ?_ (enqueue_undisturbed enqueued)
  exact .of_modified_kept (.of_eq rfl) rfl fun _ _ => ⟨rfl, rfl⟩

/-- A fold of undisturbing steps. -/
theorem foldlM_undisturbed {Item : Type} {step : Store → Item → Except Raised Store}
    {items : List Item}
    (each : ∀ store item next, step store item = .ok next → Undisturbed store next)
    (ok : items.foldlM step store = .ok next) : Undisturbed store next :=
  foldlM_invariant (Undisturbed store)
    (fun current item _ after before done => before.trans (each current item after done))
    (.refl store) ok

/-- A run that ends by an update of its own. -/
theorem leaveRun_undisturbed {status : RunStatus} (terminal : status.isTerminal = true)
    (ok : store.leaveRun runId status now = .ok next) :
    Undisturbed store next := by
  simp only [leaveRun, updateRun_eq_ok] at ok
  obtain ⟨_, rfl⟩ := ok
  exact undisturbed_of_end (.of_eq rfl) rfl (fun _ => rfl) fun _ => terminal

theorem cancelApproval_undisturbed {approval : ToolApproval} {status : ApprovalStatus}
    (ok : store.cancelApproval approvalId approval status now = .ok next) :
    Undisturbed store next := by
  obtain ⟨_, _, rfl | left_⟩ := cancelApproval_effect ok
  · exact .of_eq rfl rfl
  · refine Undisturbed.trans ?_ (leaveRun_undisturbed rfl left_)
    exact .of_eq rfl rfl

theorem expireApproval_undisturbed (ok : expireApproval now store approvalId = .ok next) :
    Undisturbed store next := by
  simp only [expireApproval, bind_eq_ok] at ok
  obtain ⟨approval, _, ok⟩ := ok
  exact cancelApproval_undisturbed ok

/-- A run that is created is free, as it was before it existed. -/
theorem undisturbed_of_created (absent : store.agentRuns.find? runId = none)
    (fresh : run.attemptCount = 0) (queued : run.status = .queued) :
    Undisturbed store { store with agentRuns := store.agentRuns.put runId run } := by
  refine .of_moves fun other => .keep ?_ ?_ fun _ _ outstanding => outstanding
  · by_cases same : other = runId
    · subst same
      simp [standing, absent, fresh]
    · simp [standing, same]
  · by_cases same : other = runId
    · subst same
      simp [standing, absent, AgentRun.phase, queued]
    · simp [standing, same]

end Store

/-- No request makes a grant. -/
theorem Request.run_undisturbed {platform : Platform} {store next : Store} {request : Request}
    (ok : request.run platform store = .ok next) : Store.Undisturbed store next := by
  cases Request.effect ok with
  | stands same => exact same ▸ .refl store
  | settings same => exact same ▸ .of_eq rfl rfl
  | created absent enqueued =>
    exact (Store.undisturbed_of_created absent rfl rfl).trans (Store.enqueue_undisturbed enqueued)
  | requested _ _ same =>
    exact same ▸ .of_modified_kept (.of_eq rfl) rfl fun _ _ => ⟨rfl, rfl⟩
  | cancelled _ _ same =>
    exact same ▸ Store.undisturbed_of_end (.of_eq rfl) rfl (fun _ => rfl) fun _ => rfl
  | lapsed _ _ _ done => exact Store.cancelApproval_undisturbed done
  | rejected _ _ _ _ same =>
    exact same ▸ Store.undisturbed_of_end (.of_eq rfl) rfl (fun _ => rfl) fun _ => rfl
  | approved _ _ present waiting enqueued =>
    -- A run that waits for an approval stays free when it is queued again.
    refine Store.Undisturbed.trans ?_ (Store.enqueue_undisturbed enqueued)
    refine .of_modified_kept (.of_eq rfl) rfl fun other found => ?_
    rw [present] at found
    cases found
    exact ⟨rfl, by simp [AgentRun.phase, waiting]⟩
  | expired done =>
    exact Store.foldlM_undisturbed (fun _ _ _ => Store.expireApproval_undisturbed) done
  | recovered _ first second =>
    exact (Store.foldlM_undisturbed (fun _ _ _ => Store.recoverExpired_undisturbed) first).trans
      (Store.foldlM_undisturbed (fun _ _ _ => Store.requeueOrphan_undisturbed) second)
  | published _ done =>
    simp only [Store.publish, bind_eq_ok, pure_eq_ok] at done
    obtain ⟨_, _, rfl⟩ := done
    exact .of_eq rfl rfl

end Nexora.Run
