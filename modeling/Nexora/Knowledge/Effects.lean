import Nexora.Knowledge.Indexing

/-!
# What a step does

Every step is of one of four kinds: it leaves the sources alone and moves jobs on, it queues
a job, it commits the index transaction of a job, or it deletes what is stored under a key.
The invariants of the service are inductions over these kinds.
-/

namespace Nexora.Knowledge

open Nexora.Std Nexora.Workspace

/-- The tables sources and chunks are kept in are as they were. -/
structure SameSources (before after : Store) : Prop where
  sources : after.sources = before.sources
  sourceAcl : after.sourceAcl = before.sourceAcl
  chunks : after.chunks = before.chunks

/-- A job's row after a step that does not complete the job: the request is kept, and the status
moves as the trigger admits. -/
structure IngestionJob.Follows (job later : IngestionJob) : Prop where
  request : later.toIngestionRequest = job.toIngestionRequest
  moves : job.status.mayBecome later.status = true
  succeeds : later.status = .succeeded → job.status = .succeeded

/-- No status is left for itself alone. -/
theorem IngestionStatus.mayBecome_self (status : IngestionStatus) :
    status.mayBecome status = true := by
  cases status <;> decide

theorem IngestionJob.Follows.refl (job : IngestionJob) : job.Follows job :=
  ⟨rfl, IngestionStatus.mayBecome_self _, id⟩

/-- The attempts of a job are used up. -/
def IngestionJob.usedUp (job : IngestionJob) : Bool := maxIngestionAttempts ≤ job.attemptCount

/-- A job's row after a step that does not claim it: no attempt is counted, and it is put back
only while attempts are left. -/
structure IngestionJob.Counts (job later : IngestionJob) : Prop where
  attempts : later.attemptCount = job.attemptCount
  requeued : later.status = .queued → job.status = .queued ∨ job.usedUp = false

theorem IngestionJob.Counts.refl (job : IngestionJob) : job.Counts job :=
  ⟨rfl, .inl⟩

/-- A job that is not put back counts on. -/
theorem IngestionJob.Counts.ofNotQueued {job later : IngestionJob}
    (attempts : later.attemptCount = job.attemptCount) (status : later.status ≠ .queued) :
    job.Counts later :=
  ⟨attempts, fun queued => absurd queued status⟩

/-- No job is lost or made up, and each one follows its earlier row. -/
structure JobsFollow (before after : Table Uuid IngestionJob) : Prop where
  kept : ∀ id job, before.find? id = some job →
    ∃ later, after.find? id = some later ∧ job.Follows later
  known : ∀ id later, after.find? id = some later →
    ∃ job, before.find? id = some job ∧ job.Follows later

variable {job : IngestionJob}

namespace JobsFollow

variable {before after last : Table Uuid IngestionJob}

/-- Rows rewritten in place, each into one that follows it. -/
theorem ofMap (rewrite : Uuid → IngestionJob → IngestionJob)
    (same : ∀ id, after.find? id = (before.find? id).map (rewrite id))
    (follows : ∀ id job, before.find? id = some job → job.Follows (rewrite id job)) :
    JobsFollow before after where
  kept := by
    intro id job found
    exact ⟨rewrite id job, by rw [same, found, Option.map_some], follows id job found⟩
  known := by
    intro id later found
    rw [same, Option.map_eq_some_iff] at found
    obtain ⟨job, earlier, rfl⟩ := found
    exact ⟨job, earlier, follows id job earlier⟩

theorem refl (jobs : Table Uuid IngestionJob) : JobsFollow jobs jobs :=
  ofMap (fun _ job => job) (by simp) fun _ job _ => .refl job

/-- One row changed into a row that follows it. -/
theorem written {jobId : Uuid} {later : IngestionJob} (found : before.find? jobId = some job)
    (written : Table.Written before after jobId later) (follows : job.Follows later) :
    JobsFollow before after where
  kept id row present := by
    obtain ⟨rfl, now⟩ | ⟨_, now⟩ := written.kept present
    · cases found.symm.trans present
      exact ⟨later, now, follows⟩
    · exact ⟨row, now, .refl row⟩
  known id row present := by
    obtain ⟨rfl, rfl⟩ | ⟨_, was⟩ := written.found present
    · exact ⟨job, found, follows⟩
    · exact ⟨row, was, .refl row⟩

/-- A status that is kept keeps a job that is not pending where it is. -/
theorem ended {later : IngestionJob} (follows : job.Follows later)
    (ended : job.status.isPending = false) : later.status = job.status := by
  have moves := follows.moves
  cases status : job.status <;> rw [status] at ended moves
  · cases ended
  · cases ended
  all_goals simpa [IngestionStatus.mayBecome] using moves

end JobsFollow

/-- What a step has done. -/
inductive Effect (deployment : Deployment) (step : Transition System Label) : Prop where
  | moved (sources : SameSources step.before.store step.after.store)
      (jobs : JobsFollow step.before.store.jobs step.after.store.jobs)
      (ledger : step.after.store.ledger = step.before.store.ledger)
  | enqueued (principal : Principal) (workspaceId : Uuid) (body : KnowledgeSourceInput)
      (idempotencyKey : String) (jobId : Uuid) (now : Instant) (job : IngestionJob)
      (label : step.label = .enqueue principal workspaceId body idempotencyKey jobId now)
      (sources : SameSources step.before.store step.after.store)
      (free : step.before.store.jobs.find? jobId = none)
      (jobs : step.after.store.jobs = step.before.store.jobs.put jobId job)
      (queued : job.status = .queued)
      (request : job.workspaceId = workspaceId ∧ job.sourceKey = body.sourceKey)
      (ledger : step.after.store.ledger = step.before.store.ledger)
  | indexed (session : Session) (embedded : List Embedding × Nat) (drawn : Drawn)
      (sourceId : Uuid) (commits : CommitsIndex deployment step session embedded drawn)
      (indexed : Indexed step.before.store step.after.store session.job.requestedBy
        session.job.workspaceId
        (session.indexArguments deployment.pipeline embedded.1 embedded.2) session.jobId
        session.workerId drawn sourceId)
  | deleted (principal : Principal) (workspaceId : Uuid) (sourceKey : PyStr) (clock : Instant)
      (label : step.label = .deleteSource principal workspaceId sourceKey clock)
      (deleted : Deleted step.before.store step.after.store workspaceId sourceKey)

/-- A session that has indexed its job has completed it. -/
def IndexedDone (system : System) : Prop :=
  ∀ id session sourceId chunkCount inputTokens, system.sessions.find? id = some session →
    session.stage = .indexed sourceId chunkCount inputTokens →
    ∃ job, system.store.jobs.find? session.jobId = some job ∧ job.status = .succeeded

section Steps

variable {deployment : Deployment} {system next : System} {store : Store} {now : Instant}
  {workerId : String} {jobId : Uuid}

/-- A job the worker holds is being processed. -/
theorem running_of_heldBy {clock : Instant} (held : job.heldBy workerId clock = true) :
    job.status = .running := by
  unfold IngestionJob.heldBy at held
  simp only [Bool.and_eq_true, decide_eq_true_eq] at held
  exact held.1

/-- A claim starts the next attempt of a due job. -/
theorem claim_ok {leaseSeconds : Nat} {claimed : Store × IngestionJob}
    (ok : store.claim workerId leaseSeconds jobId now = .ok claimed) :
    ∃ jobs job later, claimed.1 = { store with jobs := jobs } ∧
      store.jobs.find? jobId = some job ∧ Store.isDue job now = true ∧
      Table.Written store.jobs jobs jobId later ∧ job.Follows later ∧
      later.attemptCount = job.attemptCount + 1 ∧ later.status = .running := by
  simp only [Store.claim, bind_eq_ok, orRaise_eq_ok, Option.filter_eq_some_iff, pure_eq_ok] at ok
  obtain ⟨job, ⟨found, due⟩, expired, expires, running, runs, _, _, rfl⟩ := ok
  obtain ⟨_, rfl⟩ := (Store.updateJob_eq_ok ..).mp runs
  have moves : job.status.mayBecome .running = true := by
    simp only [Store.isDue, Bool.or_eq_true, Bool.and_eq_true, decide_eq_true_eq] at due
    rcases due with ⟨queued, _⟩ | ⟨processed, _⟩
    · rw [queued]
      rfl
    · rw [processed]
      rfl
  unfold Store.releaseExpired at expires
  split at expires
  · obtain ⟨_, rfl⟩ := (Store.updateJob_eq_ok ..).mp expires
    have released := Table.Written.modify (fun row : IngestionJob =>
      { row with status := .queued, lease := none, errorCode := some "lease_expired" }) found
    exact ⟨_, job, _, rfl, found, due, released.again (.modify _ released.self),
      ⟨rfl, moves, by simp⟩, rfl, rfl⟩
  · cases expires
    exact ⟨_, job, _, rfl, found, due, .modify _ found, ⟨rfl, moves, by simp⟩, rfl, rfl⟩

theorem heartbeat_jobs (store : Store) (workerId : String) (leaseSeconds : Nat) (jobId : Uuid)
    (now : Instant) :
    JobsFollow store.jobs (store.heartbeat workerId leaseSeconds jobId now).jobs := by
  refine .ofMap _ (fun id => Table.find?_updateWhere ..) fun id job _ => ?_
  split
  · exact ⟨rfl, IngestionStatus.mayBecome_self _, fun succeeded => succeeded⟩
  · exact .refl job

/-- A failure puts a job that is being processed back while attempts are left, or ends it. -/
theorem fail_ok {errorCode : String} {retryable : Bool} {delay : Nat} {failed : Store}
    (ok : store.fail workerId jobId errorCode retryable delay now = .ok failed) :
    failed = store ∨ ∃ job change, store.jobs.find? jobId = some job ∧
      failed = { store with jobs := store.jobs.modify jobId change } ∧
      job.Follows (change job) ∧ job.Counts (change job) := by
  unfold Store.fail at ok
  split at ok
  · cases ok
    exact .inl rfl
  · rename_i owned owns
    simp only [Store.owned, Option.filter_eq_some_iff] at owns
    have running := running_of_heldBy owns.2
    split at ok
    · rename_i again
      simp only [Bool.and_eq_true, decide_eq_true_eq] at again
      obtain ⟨_, rfl⟩ := (Store.updateJob_eq_ok ..).mp ok
      exact .inr ⟨owned, _, owns.1, rfl, ⟨rfl, by rw [running]; rfl, by simp⟩,
        rfl, fun _ => .inr (by simpa [IngestionJob.usedUp] using again.2)⟩
    · obtain ⟨_, rfl⟩ := (Store.updateJob_eq_ok ..).mp ok
      exact .inr ⟨owned, _, owns.1, rfl, ⟨rfl, by rw [running]; rfl, by simp⟩,
        .ofNotQueued rfl (by simp)⟩

/-- A job that is completed already is not completed again. -/
theorem succeed_done {sourceId : Uuid} {chunkCount inputTokens : Nat} {after : Store}
    (found : store.jobs.find? jobId = some job) (done : job.status = .succeeded)
    (ok : store.succeed workerId jobId sourceId chunkCount inputTokens now = .ok after) :
    after = store := by
  have free : store.owned workerId jobId now = none := by
    simp [Store.owned, found, IngestionJob.heldBy, done]
  simp only [Store.succeed, free, pure_eq_ok] at ok
  exact ok.symm

/-- Queueing a request either finds its job or adds a queued one. -/
theorem enqueue_ok {runtime : Tools.Runtime} {principal : Principal} {workspaceId : Uuid}
    {body : KnowledgeSourceInput} {idempotencyKey : String} {queued : Store × Uuid × Bool}
    (ok : store.enqueueIngestion runtime principal workspaceId body idempotencyKey jobId now =
      .ok queued) :
    queued.1 = store ∨ ∃ job, store.jobs.find? jobId = none ∧
      queued.1 = { store with jobs := store.jobs.put jobId job } ∧ job.status = .queued ∧
      job.workspaceId = workspaceId ∧ job.sourceKey = body.sourceKey := by
  simp only [Store.enqueueIngestion, bind_eq_ok] at ok
  obtain ⟨_, _, _, _, ok⟩ := ok
  split at ok
  · simp only [bind_eq_ok, pure_eq_ok] at ok
    obtain ⟨_, _, rfl⟩ := ok
    exact .inl rfl
  · simp only [bind_eq_ok, pure_eq_ok, ofRequest_eq_ok, inserted_eq_ok,
      Table.insert?_eq_some] at ok
    obtain ⟨_, _, _, ⟨free, rfl⟩, rfl⟩ := ok
    exact .inr ⟨_, free, rfl, rfl, rfl, rfl⟩

end Steps

/-- Every step is of one of the four kinds. -/
theorem run_effect {deployment : Deployment} {system next : System} {label : Label}
    (done : IndexedDone system) (ok : system.run deployment label = .ok next) :
    Effect deployment ⟨system, label, next⟩ := by
  cases label with
  | setMember principal workspaceId subject role =>
    simp only [System.run, bind_eq_ok, pure_eq_ok] at ok
    obtain ⟨_, _, rfl⟩ := ok
    exact .moved ⟨rfl, rfl, rfl⟩ (.refl _) rfl
  | enqueue principal workspaceId body idempotencyKey jobId now =>
    simp only [System.run, bind_eq_ok, pure_eq_ok] at ok
    obtain ⟨queued, queues, rfl⟩ := ok
    rcases enqueue_ok queues with same | ⟨job, free, put, isQueued, request⟩
    · refine .moved ⟨?_, ?_, ?_⟩ ?_ ?_ <;> simp only [same]
      exact .refl _
    · refine .enqueued principal workspaceId body idempotencyKey jobId now job rfl ?_ free ?_
        isQueued request ?_
      · constructor <;> simp only [put]
      · simp only [put]
      · simp only [put]
  | deleteSource principal workspaceId sourceKey clock =>
    simp only [System.run, bind_eq_ok, pure_eq_ok] at ok
    obtain ⟨deleted, deletes, rfl⟩ := ok
    exact .deleted principal workspaceId sourceKey clock rfl (deleteSource_ok deletes)
  | claim sessionId workerId leaseSeconds jobId now =>
    simp only [System.run, bind_eq_ok, pure_eq_ok] at ok
    obtain ⟨_, _, claimed, claims, rfl⟩ := ok
    obtain ⟨jobs, job, later, same, found, _, written, follows, _⟩ := claim_ok claims
    rw [same]
    exact .moved ⟨rfl, rfl, rfl⟩ (.written found written follows) rfl
  | heartbeat sessionId now =>
    simp only [System.run, bind_eq_ok, pure_eq_ok] at ok
    obtain ⟨session, _, _, _, rfl⟩ := ok
    exact .moved ⟨rfl, rfl, rfl⟩ (heartbeat_jobs ..) rfl
  | authorize | embed =>
    simp only [System.run, bind_eq_ok, pure_eq_ok] at ok
    obtain ⟨session, _, _, _, rfl⟩ := ok
    exact .moved ⟨rfl, rfl, rfl⟩ (.refl _) rfl
  | index sessionId drawn =>
    simp only [System.run, bind_eq_ok, orRaise_eq_ok] at ok
    obtain ⟨session, found, embedded, isEmbedded, ok⟩ := ok
    split at ok
    · rename_i indexed commits
      rw [pure_eq_ok] at ok
      subst ok
      exact .indexed session embedded drawn indexed.2.1
        ⟨sessionId, indexed, rfl, found, isEmbedded, commits⟩
        (indexSource_ok rfl rfl commits)
    · rw [pure_eq_ok] at ok
      subst ok
      exact .moved ⟨rfl, rfl, rfl⟩ (.refl _) rfl
  | settle sessionId delay now =>
    simp only [System.run, bind_eq_ok, orRaise_eq_ok, pure_eq_ok] at ok
    obtain ⟨session, found, store, settles, rfl⟩ := ok
    unfold Session.settle at settles
    split at settles
    · rename_i sourceId chunkCount inputTokens stage
      obtain ⟨job, present, succeeded⟩ := done _ _ _ _ _ found stage
      have same := succeed_done present succeeded settles
      rw [same]
      exact .moved ⟨rfl, rfl, rfl⟩ (.refl _) rfl
    · rcases fail_ok settles with rfl | ⟨job, change, present, rfl, follows, _⟩
      · exact .moved ⟨rfl, rfl, rfl⟩ (.refl _) rfl
      · exact .moved ⟨rfl, rfl, rfl⟩ (.written present (.modify _ present) follows) rfl
    · cases settles

end Nexora.Knowledge
