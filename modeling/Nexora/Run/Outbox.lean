import Nexora.Run.Retries

/-!
# What is added to the outbox

A run's next job is queued when an attempt of it ends, an approval it waited for is given, or
none of its jobs is left to be published; the publisher alone changes a job that is there.
-/

namespace Nexora.Run

open Nexora.Std Nexora.Workspace Nexora.Tools Json Board

/-- The job is still to be published. -/
def OutboxJob.unpublished (job : OutboxJob) : Prop :=
  job.publishedAt = none ∧ job.deadLetteredAt = none

variable {session : Session}

namespace Store

/-- A run that is executed or waits is owed a job, and so is one with none to be published. -/
def Owed (store : Store) (runId : Uuid) : Prop :=
  (∀ run, store.agentRuns.find? runId = some run →
    run.status = .running ∨ run.status = .waitingForApproval) ∨
  ∀ jobId row, store.jobOutbox.find? jobId = some row → row.runId = runId → ¬ row.unpublished

/-- The outbox stays as it is, or a job is added that is owed. -/
inductive Queues (before after : Store) : Prop where
  | kept (jobs : after.jobOutbox = before.jobOutbox)
  | added {jobId : Uuid} {row : OutboxJob} (owed : before.Owed row.runId)
      (absent : before.jobOutbox.find? jobId = none)
      (jobs : before.jobOutbox.Written after.jobOutbox jobId row)

/-- Moves of the board, and jobs that are owed. -/
def Dispatches (before after : Store) : Prop :=
  Relation.ReflTransGen (fun first second : Store =>
    Reaches first.board second.board ∧ Queues first second) before after

section Operations

variable {store middle next : Store} {job : WorkerJob} {workerId : String} {now : Instant}
  {runId approvalId : Uuid} {run : AgentRun} {recovery : Uuid × Uuid}

theorem Owed.of_found (found : store.agentRuns.find? runId = some run)
    (status : run.status = .running ∨ run.status = .waitingForApproval) : store.Owed runId := by
  refine .inl fun other present => ?_
  rw [found] at present
  cases present
  exact status

theorem enqueue_queues {jobId : Uuid} {availableAt : Instant} (owed : store.Owed runId)
    (ok : middle.enqueue jobId run runId availableAt = .ok next)
    (jobs : middle.jobOutbox = store.jobOutbox) : Queues store next := by
  simp only [enqueue, bind_eq_ok, orRaise_eq_ok, pure_eq_ok, Table.insert?_eq_some, jobs] at ok
  obtain ⟨_, ⟨absent, rfl⟩, rfl⟩ := ok
  exact .added owed absent (.put _ _ _)

theorem cancelLocked_jobs (ok : store.cancelLocked job workerId now = .ok next) :
    next.jobOutbox = store.jobOutbox := by
  simp only [cancelLocked, leaveRun, bind_eq_ok, updateRun_eq_ok, pure_eq_ok] at ok
  obtain ⟨_, ⟨_, rfl⟩, rfl⟩ := ok
  rfl

/-- A retry's job is of the run whose attempt has just ended. -/
theorem finish_queues {newJobId : Uuid} {delay : Instant} {handled : Bool}
    (ok : finish store workerId session newJobId delay now = .ok (next, handled)) :
    Queues store next := by
  cases finish_effect ok with
  | stands same => exact .kept (same ▸ rfl)
  | cancelled _ _ done => exact .kept (cancelLocked_jobs done)
  | waiting _ _ _ _ _ _ _ done closed =>
    rw [leaveRun, updateRun_eq_ok] at done
    obtain ⟨_, rfl⟩ := done
    exact .kept (closed ▸ rfl)
  | ended _ _ _ _ done closed =>
    rw [endRun, updateRun_eq_ok] at done
    obtain ⟨_, rfl⟩ := done
    exact .kept (closed ▸ rfl)
  | retried owned done enqueued =>
    have owns := owns_of_ownedProcessing owned
    rw [leaveRun, updateRun_eq_ok] at done
    obtain ⟨_, rfl⟩ := done
    exact enqueue_queues (.of_found owns.present (.inl owns.running)) enqueued rfl

theorem Dispatches.refl (store : Store) : Dispatches store store := Relation.ReflTransGen.refl

theorem Dispatches.single (reaches : Reaches store.board next.board) (queues : Queues store next) :
    Dispatches store next := Relation.ReflTransGen.single ⟨reaches, queues⟩

/-- A fold of steps that queue what is owed. -/
theorem foldlM_dispatches {Item : Type} {step : Store → Item → Except Raised Store}
    {items : List Item}
    (each : ∀ store item next, step store item = .ok next →
      Reaches store.board next.board ∧ Queues store next)
    (ok : items.foldlM step store = .ok next) : Dispatches store next :=
  foldlM_invariant (Dispatches store)
    (fun current item _ after before done => before.tail (each current item after done))
    (.refl store) ok

theorem recoverExpired_queues (ok : recoverExpired now store recovery = .ok next) :
    Queues store next := by
  simp only [recoverExpired, leaveRun, bind_eq_ok, orRaise_eq_ok, Option.filter_eq_some_iff,
    Bool.and_eq_true, decide_eq_true_eq, updateRun_eq_ok] at ok
  obtain ⟨run, ⟨found, running, _⟩, queued, ⟨_, rfl⟩, enqueued⟩ := ok
  exact enqueue_queues (.of_found found (.inl running)) enqueued rfl

theorem requeueOrphan_queues {orphanSeconds : Nat}
    (ok : requeueOrphan orphanSeconds now store recovery = .ok next) : Queues store next := by
  simp only [requeueOrphan, bind_eq_ok, orRaise_eq_ok, Option.filter_eq_some_iff, updateRun_eq_ok,
    Bool.and_eq_true, decide_eq_true_eq, Bool.not_eq_true'] at ok
  obtain ⟨run, ⟨found, ⟨_, _⟩, nothing⟩, touched, ⟨_, rfl⟩, enqueued⟩ := ok
  refine enqueue_queues (.inr fun jobId row present ofRun unpublished => ?_) enqueued rfl
  have something : (store.jobOutbox.any fun _ row => row.runId = recovery.1 &&
      row.publishedAt = none && row.deadLetteredAt = none) = true := by
    rw [Table.any_eq_true]
    exact ⟨jobId, row, present, by simp [ofRun, unpublished.1, unpublished.2]⟩
  rw [nothing] at something
  cases something

theorem cancelApproval_jobs {approval : ToolApproval} {status : ApprovalStatus}
    (ok : store.cancelApproval approvalId approval status now = .ok next) :
    next.jobOutbox = store.jobOutbox := by
  obtain ⟨_, _, rfl | left_⟩ := cancelApproval_effect ok
  · rfl
  · rw [leaveRun, updateRun_eq_ok] at left_
    obtain ⟨_, rfl⟩ := left_
    rfl

theorem expireApproval_queues (ok : expireApproval now store approvalId = .ok next) :
    Queues store next := by
  simp only [expireApproval, bind_eq_ok] at ok
  obtain ⟨approval, _, ok⟩ := ok
  exact .kept (cancelApproval_jobs ok)

theorem claim_jobs {handed : Option ExecutionContext} {leaseSeconds : Nat}
    (ok : store.claim job workerId leaseSeconds now = .ok (next, handed)) :
    next.jobOutbox = store.jobOutbox := by
  have recovery {run : AgentRun} {recovered : Store} (free : Recovered store job run now recovered) :
      recovered.jobOutbox = store.jobOutbox := by
    cases free with
    | queued => rfl
    | expired _ _ done =>
      rw [leaveRun, updateRun_eq_ok] at done
      obtain ⟨_, rfl⟩ := done
      rfl
  cases claim_effect ok with
  | untouched => rfl
  | answered => rfl
  | cancelled run profile recovered _ claimable free requested done =>
    rw [cancelLocked_jobs done]
    exact recovery free
  | started run profile recovered _ claimable idle free requested done =>
    simp only [startAttempt, bind_eq_ok, updateRun_eq_ok, pure_eq_ok] at done
    have same := recovery free
    obtain ⟨_, ⟨_, rfl⟩, rfl⟩ := done
    exact same

end Operations

end Store

variable {platform : Platform}

theorem Action.run_jobs {store after : Store} {workerId : String} {action : Action} {stage : Stage}
    (ok : action.run platform store workerId session = some (after, stage)) :
    after.jobOutbox = store.jobOutbox := by
  rcases Action.run_effect ok with ⟨_, _, _, rfl⟩ | ⟨_, _, _, _, rfl⟩ | ⟨_, _, rfl⟩
  · rfl
  · rfl
  · rfl

/-- A request publishes a job, or queues what is owed. -/
theorem Request.run_dispatches {store next : Store} {request : Request}
    (ok : request.run platform store = .ok next) :
    (∃ jobId delivered delay now, request = .publish jobId delivered delay now ∧
      store.publish jobId delivered delay now = .ok next) ∨ Store.Dispatches store next := by
  have reaches := Request.run_reaches ok
  have kept (jobs : next.jobOutbox = store.jobOutbox) : Store.Dispatches store next :=
    .single reaches (.kept jobs)
  cases Request.effect ok with
  | stands same => exact .inr (kept (same ▸ rfl))
  | settings same => exact .inr (kept (same ▸ rfl))
  | created absent enqueued =>
    -- The first job of a run comes with the run.
    refine .inr (.single reaches (Store.enqueue_queues (.inl fun run present => ?_) enqueued rfl))
    rw [absent] at present
    cases present
  | requested _ _ same => exact .inr (kept (same ▸ rfl))
  | cancelled _ _ same => exact .inr (kept (same ▸ rfl))
  | lapsed _ _ _ done => exact .inr (kept (Store.cancelApproval_jobs done))
  | rejected _ _ _ _ same => exact .inr (kept (same ▸ rfl))
  | approved _ _ present waiting enqueued =>
    -- The job of an approved call is of the run that waited for it.
    exact .inr (.single reaches (Store.enqueue_queues (.of_found present (.inr waiting)) enqueued rfl))
  | expired done =>
    refine .inr (Store.foldlM_dispatches (fun _ _ _ done => ?_) done)
    exact ⟨Store.expireApproval_reaches done, Store.expireApproval_queues done⟩
  | recovered _ first second =>
    refine .inr (Relation.ReflTransGen.trans (Store.foldlM_dispatches (fun _ _ _ done => ?_) first)
      (Store.foldlM_dispatches (fun _ _ _ done => ?_) second))
    · exact ⟨Store.recoverExpired_reaches done, Store.recoverExpired_queues done⟩
    · exact ⟨Store.requeueOrphan_reaches done, Store.requeueOrphan_queues done⟩
  | published asked done => exact .inl ⟨_, _, _, _, asked, done⟩

/-- A step publishes a job, claims one, or queues what is owed. -/
theorem System.run_dispatches {system next : System} {label : Label}
    (ok : System.run platform system label = .ok next) :
    (∃ jobId delivered delay now, label = .request (.publish jobId delivered delay now) ∧
      system.store.publish jobId delivered delay now = .ok next.store) ∨
    (∃ workerId job leaseSeconds now, label = .claim workerId job leaseSeconds now ∧
      next.store.jobOutbox = system.store.jobOutbox) ∨
    Store.Dispatches system.store next.store := by
  cases label with
  | request request =>
    obtain ⟨store, done, rfl⟩ := System.run_request.mp ok
    rcases Request.run_dispatches done with ⟨jobId, delivered, delay, now, rfl, published⟩ | queues
    · exact .inl ⟨jobId, delivered, delay, now, rfl, published⟩
    · exact .inr (.inr queues)
  | claim workerId job leaseSeconds now =>
    obtain ⟨_, store, handed, claimed, rfl⟩ := System.run_claim.mp ok
    exact .inr (.inl ⟨workerId, job, leaseSeconds, now, rfl, Store.claim_jobs claimed⟩)
  | act workerId action =>
    obtain ⟨session, store, stage, _, done, rfl⟩ := System.run_act.mp ok
    exact .inr (.inr (.single (Action.run_reaches done) (.kept (Action.run_jobs done))))
  | finish workerId newJobId delay now =>
    obtain ⟨session, store, handled, _, done, rfl⟩ := System.run_finish.mp ok
    exact .inr (.inr (.single (Store.finish_reaches done) (Store.finish_queues done)))
  | crash workerId =>
    obtain rfl := System.run_crash.mp ok
    exact .inr (.inr (.refl _))

end Nexora.Run
