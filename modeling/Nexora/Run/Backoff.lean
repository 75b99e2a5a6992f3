import Nexora.Run.Outbox

/-!
# Retry backoff

A retry queues its job for later, and the publisher sends no job before its time. So the next
attempt waits for the backoff to pass unless it is started by a delivery that is older than the
retry: no other job is owed to the run until its own has been published.
-/

namespace Nexora.Run

open Nexora.Std Nexora.Workspace Nexora.Tools Json Board

/-- A retry that was scheduled: its job, when the job becomes available, and the outbox it was
added to. -/
structure Retry where
  jobId : Uuid
  availableAt : Instant
  older : Table Uuid OutboxJob

/-- The retry of a run that a step schedules. -/
def retryOf (transition : Transition System Label) (runId : Uuid) : Option Retry :=
  match transition.label with
  | .finish _ newJobId delay now =>
    if failsRetryably transition runId ∧
        (transition.after.store.agentRuns.find? runId).map AgentRun.status = some .queued then
      some ⟨newJobId, now + delay, transition.before.store.jobOutbox⟩
    else none
  | _ => none

/-- The retries of a run, oldest first. -/
def retriesOf (history : List (Transition System Label)) (runId : Uuid) : List Retry :=
  history.filterMap fun transition => retryOf transition runId

/-- The job an attempt is started by, and when. -/
def startedBy (transition : Transition System Label) : Option (WorkerJob × Instant) :=
  match transition.label with
  | .claim _ job _ now => if (handedOut transition).isSome then some (job, now) else none
  | _ => none

/-- The database's clock in the transactions that publish and claim jobs. -/
def Label.time? : Label → Option Instant
  | .request (.publish _ _ _ now) | .claim _ _ _ now => some now
  | _ => none

/-- An attempt is started by a delivery: the publisher has sent the job, and what was published
and claimed by then was at a time the claim is not behind. -/
def Delivered (earlier : List (Transition System Label)) (started : Transition System Label) : Prop :=
  ∀ job now, startedBy started = some (job, now) →
    ∃ sent read rest delivered delay at_ published,
      earlier ++ [started] = sent ++ read :: rest ∧
      read.before.store.publish job.jobId delivered delay at_ = .ok published ∧ at_ ≤ now ∧
      ∀ transition ∈ sent, ∀ time, transition.label.time? = some time → time ≤ now

/-- An attempt is not started by a job that was there when the run's latest retry was
scheduled. -/
def Fresh (earlier : List (Transition System Label)) (started : Transition System Label) : Prop :=
  ∀ job now retry, startedBy started = some (job, now) →
    (retriesOf earlier job.runId).getLast? = some retry → retry.older.find? job.jobId = none

/-- The run waits for the job of a retry to be published, and has no other new one. -/
structure BackingOff (store : Store) (runId : Uuid) (retry : Retry) : Prop where
  idle : ∃ run, store.agentRuns.find? runId = some run ∧ run.status ≠ .running ∧
    run.status ≠ .waitingForApproval
  job : ∃ row, store.jobOutbox.find? retry.jobId = some row ∧ row.runId = runId ∧
    row.unpublished ∧ retry.availableAt ≤ row.availableAt
  only : ∀ jobId row, store.jobOutbox.find? jobId = some row → row.runId = runId →
    retry.older.find? jobId = none → jobId = retry.jobId

variable {jobId : Uuid} {delay : Instant}

namespace BackingOff

variable {store next : Store} {runId : Uuid} {retry : Retry}

theorem notOwed (backs : BackingOff store runId retry) : ¬ store.Owed runId := by
  rintro (executed | none)
  · obtain ⟨run, found, notRunning, notWaiting⟩ := backs.idle
    exact (executed run found).elim notRunning notWaiting
  · obtain ⟨row, found, ofRun, unpublished, _⟩ := backs.job
    exact none retry.jobId row found ofRun unpublished

theorem idle_kept (backs : BackingOff store runId retry)
    (unstarted : Unstarted runId store.board next.board) :
    ∃ run, next.agentRuns.find? runId = some run ∧ run.status ≠ .running ∧
      run.status ≠ .waitingForApproval := by
  obtain ⟨run, found, notRunning, notWaiting⟩ := backs.idle
  obtain ⟨later, laterFound, kept⟩ := unstarted.present run found
  exact ⟨later, laterFound, fun runs => notRunning (kept.running runs),
    fun waits => (kept.waiting waits).elim notRunning notWaiting⟩

theorem queues (backs : BackingOff store runId retry)
    (unstarted : Unstarted runId store.board next.board) (queues : Store.Queues store next) :
    BackingOff next runId retry := by
  have idle := backs.idle_kept unstarted
  cases queues with
  | kept jobs => exact ⟨idle, by rw [jobs]; exact backs.job, by rw [jobs]; exact backs.only⟩
  | @added added addedRow owed absent jobs =>
    obtain ⟨row, found, ofRun, unpublished, late⟩ := backs.job
    refine ⟨idle, ⟨row, ?_, ofRun, unpublished, late⟩, ?_⟩
    · rw [jobs.other, found]
      rintro rfl
      rw [absent] at found
      cases found
    · intro jobId other present otherRun new
      rcases jobs.found present with ⟨_, rfl⟩ | ⟨_, earlier⟩
      · rw [otherRun] at owed
        exact absurd owed backs.notOwed
      · exact backs.only jobId other earlier otherRun new

theorem dispatches (backs : BackingOff store runId retry)
    (dispatches : Store.Dispatches store next) : BackingOff next runId retry := by
  induction dispatches with
  | refl => exact backs
  | tail _ step ih =>
    exact ih.queues (.of_reaches step.1) step.2

/-- Publishing a job is of another one, or comes when the backoff has passed. -/
theorem publish (backs : BackingOff store runId retry) {delivered : Bool} {now : Instant}
    (ok : store.publish jobId delivered delay now = .ok next) :
    BackingOff next runId retry ∨ retry.availableAt ≤ now := by
  simp only [Store.publish, bind_eq_ok, orRaise_eq_ok, Option.filter_eq_some_iff, pure_eq_ok,
    Bool.and_eq_true, decide_eq_true_eq] at ok
  obtain ⟨job, ⟨found, _, due⟩, rfl⟩ := ok
  obtain ⟨row, rowFound, ofRun, unpublished, late⟩ := backs.job
  by_cases same : jobId = retry.jobId
  · subst same
    rw [found] at rowFound
    cases rowFound
    exact .inr (late.trans due)
  · refine .inl ⟨backs.idle, ⟨row, ?_, ofRun, unpublished, late⟩, ?_⟩
    · rw [Table.find?_put_eq, if_neg (Ne.symm same)]
      exact rowFound
    · intro other otherRow present otherRun new
      rw [Table.find?_put_eq] at present
      split at present
      case isFalse => exact backs.only other otherRow present otherRun new
      case isTrue isJob =>
        subst isJob
        refine backs.only other job found ?_ new
        cases present
        rw [← otherRun]
        (repeat' split) <;> rfl

end BackingOff

/-- A job that is in the outbox for a run. -/
def JobFor (jobId runId : Uuid) (system : System) : Prop :=
  ∃ row, system.store.jobOutbox.find? jobId = some row ∧ row.runId = runId

variable {job : WorkerJob} {now : Instant}

section Steps

variable {platform : Platform} {system next : System} {label : Label} {runId : Uuid}
  {workerId : String}

theorem JobFor.dispatches {store later : Store} {row : OutboxJob}
    (dispatches : Store.Dispatches store later) (found : store.jobOutbox.find? jobId = some row) :
    later.jobOutbox.find? jobId = some row := by
  induction dispatches with
  | refl => exact found
  | tail _ step ih =>
    cases step.2 with
    | kept jobs => rw [jobs, ih]
    | added owed absent jobs =>
      rw [jobs.other, ih]
      rintro rfl
      rw [absent] at ih
      cases ih

/-- Jobs stay in the outbox. -/
theorem JobFor.step (jobFor : JobFor jobId runId system)
    (ok : System.run platform system label = .ok next) : JobFor jobId runId next := by
  obtain ⟨row, found, ofRun⟩ := jobFor
  rcases System.run_dispatches ok with
    ⟨_, _, _, _, _, published⟩ | ⟨_, _, _, _, _, jobs⟩ | dispatches
  · obtain ⟨later, laterFound, laterRun, _⟩ := (Store.publish_jobsKept published).jobs jobId row found
    exact ⟨later, laterFound, laterRun.trans ofRun⟩
  · exact ⟨row, by rw [jobs, found], ofRun⟩
  · exact ⟨row, JobFor.dispatches dispatches found, ofRun⟩

/-- A retry's job is added for the time the backoff ends at. -/
theorem completeFailure_enqueued {store after : Store} {errorCode : PyStr} {newJobId : Uuid}
    {handled : Bool} {run : AgentRun} (owned : store.ownedProcessing job workerId now = some run)
    (queued : run.afterFailure = .queued)
    (ok : store.completeFailure job workerId errorCode true newJobId delay now =
      .ok (after, handled)) :
    ∃ row, store.jobOutbox.Written after.jobOutbox newJobId row ∧ row.runId = job.runId ∧
      row.unpublished ∧ row.availableAt = now + delay := by
  unfold AgentRun.afterFailure at queued
  split at queued
  case isTrue => cases queued
  case isFalse notRequested =>
    split at queued
    case isFalse => cases queued
    case isTrue retries =>
      unfold Store.completeFailure at ok
      simp only [owned, bind_eq_ok, raiseIf_eq_ok, exists_and_left, exists_const, true_and] at ok
      obtain ⟨_, ok⟩ := ok
      rw [if_neg notRequested, if_pos retries] at ok
      simp only [Store.leaveRun, Store.enqueue, Store.closeReceipt, bind_eq_ok, orRaise_eq_ok,
        Store.updateRun_eq_ok, raiseIf_eq_ok, pure_eq_ok, Prod.mk.injEq, exists_and_left,
        exists_const, Table.insert?_eq_some] at ok
      obtain ⟨_, ⟨_, rfl⟩, _, _, ⟨_, ⟨_, rfl⟩, rfl⟩, rfl, _⟩ := ok
      exact ⟨_, .put _ _ _, rfl, ⟨rfl, rfl⟩, rfl⟩

/-- A retry that is scheduled leaves its run backing off; its attempt executed the run. -/
theorem backingOff_of_retryOf {retry : Retry}
    (scheduled : retryOf ⟨system, label, next⟩ runId = some retry)
    (ok : System.run platform system label = .ok next) :
    BackingOff next.store runId retry ∧ system.store.board.running runId = true := by
  unfold retryOf at scheduled
  split at scheduled
  case h_2 => cases scheduled
  case h_1 workerId newJobId delay now isFinish =>
    obtain rfl : label = .finish workerId newJobId delay now := isFinish
    split at scheduled
    case isFalse => cases scheduled
    case isTrue retried =>
      cases scheduled
      obtain ⟨fails, queued⟩ := retried
      obtain ⟨run, later, found, running, laterFound, status⟩ := failsRetryably_effect ok fails
      have after : run.afterFailure = .queued := by
        rw [← status]
        simpa [laterFound] using queued
      obtain ⟨session, store, handled, present, done, rfl⟩ := System.run_finish.mp ok
      simp only [failsRetryably, present, Option.any_some, Bool.and_eq_true, decide_eq_true_eq]
        at fails
      obtain ⟨⟨retryable, rfl⟩, owned⟩ := fails
      obtain ⟨other, owned⟩ := Option.isSome_iff_exists.mp owned
      have rows := found.symm.trans (Store.owns_of_ownedProcessing owned).present
      cases rows
      obtain ⟨errorCode, same⟩ := finish_of_failsRetryably retryable system.store workerId newJobId
        delay now
      rw [same] at done
      obtain ⟨row, jobs, ofRun, unpublished, availableAt⟩ := completeFailure_enqueued owned after done
      refine ⟨⟨?_, ?_, ?_⟩, ?_⟩
      · exact ⟨later, laterFound, by simp [status, after], by simp [status, after]⟩
      · exact ⟨row, jobs.self, ofRun, unpublished, availableAt.ge⟩
      · intro jobId otherRow otherFound _ new
        rcases jobs.found otherFound with ⟨same, _⟩ | ⟨_, earlier⟩
        · exact same
        · have impossible := new.symm.trans earlier
          cases impossible
      · simp [Board.running, Store.board, found, running]

theorem not_running_of_backingOff {retry : Retry} (backs : BackingOff system.store runId retry) :
    system.store.board.running runId = false := by
  obtain ⟨run, found, notRunning, _⟩ := backs.idle
  simp [Board.running, Store.board, found, notRunning]

/-- An attempt is started under a job of its own run. -/
theorem startedBy_effect (ok : System.run platform system label = .ok next)
    (starts : startedBy ⟨system, label, next⟩ = some (job, now)) :
    JobFor job.jobId job.runId system ∧ label.time? = some now := by
  unfold startedBy at starts
  split at starts
  case h_2 => cases starts
  case h_1 workerId claimed leaseSeconds at_ isClaim =>
    obtain rfl : label = .claim workerId claimed leaseSeconds at_ := isClaim
    split at starts
    case isFalse => cases starts
    case isTrue handed =>
      cases starts
      obtain ⟨_, store, context, done, rfl⟩ := System.run_claim.mp ok
      simp only [handedOut, done, Option.isSome_map] at handed
      refine ⟨?_, rfl⟩
      have effect := Store.claim_effect done
      cases effect with
      | untouched => cases handed
      | answered => cases handed
      | cancelled => cases handed
      | started run profile recovered _ claimable =>
        obtain ⟨row, found, ofRun, _⟩ := claimable.stored
        exact ⟨row, found, ofRun⟩

/-- A claim that hands out an attempt of a run starts it by the run's job. -/
theorem startedBy_of_claimsOf {leaseSeconds : Nat} {handed : String × ExecutionContext}
    (ok : System.run platform system (.claim workerId job leaseSeconds now) = .ok next)
    (one : claimsOf [⟨system, .claim workerId job leaseSeconds now, next⟩] runId = [handed]) :
    startedBy ⟨system, .claim workerId job leaseSeconds now, next⟩ = some (job, now) ∧
      runId = job.runId := by
  obtain ⟨_, store, context, done, _⟩ := System.run_claim.mp ok
  rcases Store.claim_reaches done with ⟨rfl, _⟩ | ⟨context, _, _, rfl, ofJob, _⟩
  · simp [claimsOf, handedOut, done] at one
  · have made : handedOut ⟨system, .claim workerId job leaseSeconds now, next⟩ =
        some (workerId, context) := by simp [handedOut, done]
    refine ⟨by simp [startedBy, made], ?_⟩
    have member : handed ∈ claimsOf [⟨system, .claim workerId job leaseSeconds now, next⟩] runId := by
      rw [one]
      simp
    simp only [claimsOf, List.filterMap_cons, List.filterMap_nil, made, List.mem_filter,
      List.mem_singleton, decide_eq_true_eq] at member
    obtain ⟨rfl, ofRun⟩ := member
    exact ofRun.symm.trans ofJob

end Steps

variable {started : Transition System Label}

section Histories

variable {platform : Platform} {history earlier : List (Transition System Label)} {system : System}
  {runId : Uuid} {retry : Retry} {until_ : Instant}

/-- Something was published or claimed at a time or later. -/
def Elapsed (history : List (Transition System Label)) (until_ : Instant) : Prop :=
  ∃ transition ∈ history, ∃ time, transition.label.time? = some time ∧ until_ ≤ time

theorem Elapsed.append (elapsed : Elapsed history until_) (later : List (Transition System Label)) :
    Elapsed (history ++ later) until_ := by
  obtain ⟨transition, member, time, clock, late⟩ := elapsed
  exact ⟨transition, List.mem_append_left _ member, time, clock, late⟩

theorem Elapsed.last {time : Instant} {transition : Transition System Label}
    (clock : transition.label.time? = some time) (late : until_ ≤ time) :
    Elapsed (history ++ [transition]) until_ :=
  ⟨transition, by simp, time, clock, late⟩

/-- A run backs off from its latest retry, or the time of a retry has come. -/
def Paced (history : List (Transition System Label)) (system : System) : Prop :=
  ∀ runId retry, retry ∈ retriesOf history runId →
    ((retriesOf history runId).getLast? = some retry ∧ BackingOff system.store runId retry) ∨
      Elapsed history retry.availableAt

theorem retriesOf_append (history later : List (Transition System Label)) (runId : Uuid) :
    retriesOf (history ++ later) runId = retriesOf history runId ++ retriesOf later runId := by
  simp [retriesOf]

/-- An attempt starts when the time of its run's latest retry has come, if every run that leads
to it is paced. -/
theorem started_late {later : List (Transition System Label)}
    (runs : (machine platform).Runs (earlier ++ started :: later) system)
    (paced : ∀ sent read rest, earlier ++ [started] = sent ++ read :: rest →
      Paced sent read.before) (delivered : Delivered earlier started)
    (fresh : Fresh earlier started) (starts : startedBy started = some (job, now))
    (last : (retriesOf earlier job.runId).getLast? = some retry) : retry.availableAt ≤ now := by
  obtain ⟨sent, read, rest, _, _, at_, published, splits, due, before, clock⟩ :=
    delivered job now starts
  have new := fresh job now retry starts last
  simp only [Store.publish, bind_eq_ok, orRaise_eq_ok, Option.filter_eq_some_iff, pure_eq_ok,
    Bool.and_eq_true, decide_eq_true_eq] at due
  obtain ⟨row, ⟨found, _, available⟩, _⟩ := due
  have whole : earlier ++ started :: later = sent ++ read :: (rest ++ later) := by
    have both := congrArg (fun prior => prior ++ later) splits
    simpa using both
  obtain ⟨_, readStep, steps⟩ := runs.split whole
  have since := steps.cons readStep
  obtain ⟨_, startStep, _⟩ := runs.split rfl
  -- The job the publisher has read is the one that is claimed, and is of the claimed run.
  have kept (other : Transition System Label) (member : other ∈ read :: rest) :
      JobFor job.jobId row.runId other.before := by
    refine (since.invariant_before (JobFor job.jobId row.runId)
      (fun _ _ _ jobFor step => jobFor.step step) ⟨row, found, rfl⟩ ?_).1
    rw [← List.cons_append]
    exact List.mem_append_left _ member
  have startedLast : started ∈ read :: rest := by
    have ends := congrArg List.getLast? splits
    rw [List.getLast?_append, List.getLast?_append] at ends
    simp only [List.getLast?_singleton, Option.some_or] at ends
    refine List.mem_of_getLast? (?_ : (read :: rest).getLast? = some started)
    cases tail : (read :: rest).getLast? with
    | none => simp at tail
    | some other =>
      rw [tail, Option.some_or] at ends
      exact ends.symm
  have ofRun : row.runId = job.runId := by
    obtain ⟨claimed, claimedFound, claimedRun⟩ := (startedBy_effect startStep starts).1
    obtain ⟨other, otherFound, otherRun⟩ := kept started startedLast
    rw [claimedFound] at otherFound
    cases otherFound
    exact otherRun.symm.trans claimedRun
  have member : retry ∈ retriesOf sent job.runId ++ retriesOf (read :: rest) job.runId := by
    rw [← retriesOf_append, ← splits, retriesOf_append]
    exact List.mem_append_left _ (List.mem_of_getLast? last)
  rcases List.mem_append.mp member with before_ | after
  · rcases paced sent read rest splits job.runId retry before_ with ⟨_, backs⟩ | elapsed
    · have isRetry := backs.only job.jobId row found ofRun new
      obtain ⟨own, ownFound, _, _, late⟩ := backs.job
      rw [← isRetry, found] at ownFound
      cases ownFound
      exact late.trans (available.trans before)
    · obtain ⟨transition, transitionMember, time, at_, late⟩ := elapsed
      exact late.trans (clock transition transitionMember time at_)
  · -- The retry was scheduled when the publisher had read the job: the job is older.
    obtain ⟨transition, transitionMember, scheduled⟩ := List.mem_filterMap.mp after
    obtain ⟨other, otherFound, _⟩ := kept transition transitionMember
    have older : retry.older = transition.before.store.jobOutbox := by
      unfold retryOf at scheduled
      split at scheduled
      · split at scheduled
        · cases scheduled
          rfl
        · cases scheduled
      · cases scheduled
    rw [older, otherFound] at new
    cases new

/-- Every run is paced whose attempts are started by deliveries, and by none that is older than
the latest retry. -/
theorem paced_of_runs (runs : (machine platform).Runs history system)
    (delivered : ∀ earlier started later, history = earlier ++ started :: later →
      Delivered earlier started)
    (fresh : ∀ earlier started later, history = earlier ++ started :: later →
      Fresh earlier started) : Paced history system := by
  revert delivered fresh
  refine runs.strongInduction (motive := fun history system =>
    (∀ earlier started later, history = earlier ++ started :: later → Delivered earlier started) →
      (∀ earlier started later, history = earlier ++ started :: later →
        Fresh earlier started) → Paced history system) ?_
  intro history system runs extended delivered fresh
  have paced (sent : List (Transition System Label)) (read : Transition System Label)
      (rest : List (Transition System Label)) (splits : history = sent ++ read :: rest) :
      Paced sent read.before := by
    refine extended sent read rest splits ?_ ?_
    · intro earlier started later prior
      exact delivered earlier started (later ++ read :: rest) (by simp [splits, prior])
    · intro earlier started later prior
      exact fresh earlier started (later ++ read :: rest) (by simp [splits, prior])
  cases runs with
  | initial => intro runId retry member; cases member
  | @step prior before label _ priorRuns ok =>
    intro runId retry member
    have whole := Machine.Runs.step priorRuns ok
    have earlier := paced prior ⟨before, label, system⟩ [] rfl runId
    rw [retriesOf_append] at member ⊢
    cases scheduled : retryOf ⟨before, label, system⟩ runId with
    | some new =>
      obtain ⟨backs, running⟩ := backingOff_of_retryOf scheduled ok
      have added : retriesOf [⟨before, label, system⟩] runId = [new] := by
        simp [retriesOf, scheduled]
      rw [added] at member ⊢
      rcases List.mem_append.mp member with old | isNew
      · rcases earlier retry old with ⟨_, waits⟩ | elapsed
        · rw [not_running_of_backingOff waits] at running
          cases running
        · exact .inr (elapsed.append _)
      · rw [List.mem_singleton.mp isNew]
        exact .inl ⟨by simp, backs⟩
    | none =>
      have added : retriesOf [⟨before, label, system⟩] runId = [] := by
        simp [retriesOf, scheduled]
      rw [added, List.append_nil] at member ⊢
      rcases earlier retry member with ⟨last, backs⟩ | elapsed
      swap
      · exact .inr (elapsed.append _)
      rcases System.run_dispatches ok with
        ⟨jobId, _, _, now, rfl, published⟩ | ⟨workerId, job, _, now, rfl, jobs⟩ | dispatches
      · rcases backs.publish published with still | late
        · exact .inl ⟨last, still⟩
        · exact .inr (.last rfl late)
      · rcases step_unstarted ok runId with ⟨_, unstarted⟩ | ⟨handed, _, _, one, _, _⟩
        · exact .inl ⟨last, backs.queues unstarted (.kept jobs)⟩
        · obtain ⟨starts, rfl⟩ := startedBy_of_claimsOf ok one
          have late : retry.availableAt ≤ now := started_late whole paced (delivered prior _ [] rfl)
            (fresh prior _ [] rfl) starts last
          exact .inr (.last rfl late)
      · exact .inl ⟨last, backs.dispatches dispatches⟩

/-- No attempt starts before the time its run's latest retry was scheduled for, in a run whose
attempts are started by deliveries, and by none that is older than that retry. -/
theorem backoff_respected {started : Transition System Label}
    {later : List (Transition System Label)} {job : WorkerJob} {now : Instant}
    (runs : (machine platform).Runs history system)
    (delivered : ∀ earlier started later, history = earlier ++ started :: later →
      Delivered earlier started)
    (fresh : ∀ earlier started later, history = earlier ++ started :: later →
      Fresh earlier started)
    (splits : history = earlier ++ started :: later) (starts : startedBy started = some (job, now))
    (last : (retriesOf earlier job.runId).getLast? = some retry) : retry.availableAt ≤ now := by
  subst splits
  refine started_late runs ?_ (delivered _ _ _ rfl) (fresh _ _ _ rfl) starts last
  intro sent read rest same
  have whole : earlier ++ started :: later = sent ++ read :: (rest ++ later) := by
    have both := congrArg (fun prior => prior ++ later) same
    simpa using both
  refine paced_of_runs (runs.split whole).1 ?_ ?_
  · intro before other after prior
    exact delivered before other (after ++ read :: (rest ++ later)) (by simp [whole, prior])
  · intro before other after prior
    exact fresh before other (after ++ read :: (rest ++ later)) (by simp [whole, prior])

end Histories

/-- The job of a started attempt is fresh, and is sent the moment it is claimed. -/
def startsPromptly (earlier : List (Transition System Label)) (started : Transition System Label) :
    Bool :=
  (startedBy started).all fun start =>
    (started.before.store.publish start.1.jobId true 0 start.2).isOk &&
      (earlier.all fun transition => transition.label.time?.all fun time => time ≤ start.2) &&
      (retriesOf earlier start.1.runId).getLast?.all fun retry =>
        (retry.older.find? start.1.jobId).isNone

theorem delivered_of_startsPromptly {earlier : List (Transition System Label)}
    (prompt : startsPromptly earlier started = true) :
    Delivered earlier started := by
  intro job now starts
  simp only [startsPromptly, starts, Option.all_some, Bool.and_eq_true, List.all_eq_true] at prompt
  obtain ⟨⟨sent, clock⟩, _⟩ := prompt
  cases published : started.before.store.publish job.jobId true 0 now with
  | error raised =>
    rw [published] at sent
    cases sent
  | ok next =>
    refine ⟨earlier, started, [], true, 0, now, next, rfl, published, le_refl _, ?_⟩
    intro transition member time at_
    simpa [at_] using clock transition member

theorem fresh_of_startsPromptly {earlier : List (Transition System Label)}
    (prompt : startsPromptly earlier started = true) :
    Fresh earlier started := by
  intro job now retry starts last
  simp only [startsPromptly, starts, Option.all_some, Bool.and_eq_true, last] at prompt
  exact Option.isNone_iff_eq_none.mp prompt.2

/-- The example's run fails retryably at time 1, to be tried again ten seconds later. -/
def exampleRetry (jobId : Uuid) : List Label :=
  [.claim "worker" (exampleJob jobId) 30 1,
    .act "worker" (.executorRaises (.retryable (py "busy"))), .finish "worker" 21 (seconds 10) 1]

theorem backoff_respected_retried : ∃ earlier started system retry,
    (machine examplePlatform).Runs (earlier ++ [started]) system ∧
      startedBy started = some (exampleJob 21, seconds 20) ∧
      (retriesOf earlier 3).getLast? = some retry ∧ retry.availableAt ≤ seconds 20 := by
  obtain ⟨history, system, runs, checked⟩ := Machine.exists_run_of_trace Opening
    (System.run examplePlatform)
    (exampleCreateRun :: exampleRetry 5 ++ [.claim "worker" (exampleJob 21) 30 (seconds 20)])
    exampleOpening
    (fun history _ => ((List.range history.length).all fun index =>
        history[index]?.all (startsPromptly (history.take index))) &&
      Machine.splitsAt history 4 fun earlier started later => later.isEmpty &&
        startedBy started = some (exampleJob 21, seconds 20) &&
          (retriesOf earlier 3).getLast?.isSome) (opening_openingWith _ _) (by decide +kernel)
  rw [Bool.and_eq_true] at checked
  obtain ⟨prompt, checked⟩ := checked
  obtain ⟨earlier, started, later, splits, checked⟩ := Machine.exists_split checked
  simp only [Bool.and_eq_true, decide_eq_true_eq, List.isEmpty_iff] at checked
  obtain ⟨⟨rfl, starts⟩, retried⟩ := checked
  obtain ⟨retry, last⟩ := Option.isSome_iff_exists.mp retried
  have late := backoff_respected runs
    (fun _ _ _ prior => delivered_of_startsPromptly (Machine.of_all_splits prompt prior))
    (fun _ _ _ prior => fresh_of_startsPromptly (Machine.of_all_splits prompt prior))
    splits starts last
  exact ⟨earlier, started, system, retry, splits ▸ runs, starts, last, late⟩

/-- A run that waited long for its first delivery gets another job, and both are delivered. -/
def exampleOrphan : List Label :=
  [exampleCreateRun, .request (.publish 5 true 0 0),
    .request (.recoverStale 1 0 [] [(3, 20)] 1), .request (.publish 20 true 0 1)]

/-- The delivery of the other job starts the next attempt while the backoff has not passed. -/
theorem older_delivery_overtakes_backoff : ∃ earlier started system retry,
    (machine examplePlatform).Runs (earlier ++ [started]) system ∧
      startedBy started = some (exampleJob 20, seconds 2) ∧
      (retriesOf earlier 3).getLast? = some retry ∧ seconds 2 < retry.availableAt := by
  obtain ⟨history, system, runs, checked⟩ := Machine.exists_run_of_trace Opening
    (System.run examplePlatform)
    (exampleOrphan ++ exampleRetry 5 ++ [.claim "worker" (exampleJob 20) 30 (seconds 2)])
    exampleOpening
    (fun history _ => Machine.splitsAt history 7 fun earlier started later => later.isEmpty &&
      startedBy started = some (exampleJob 20, seconds 2) &&
        (retriesOf earlier 3).getLast?.any fun retry => seconds 2 < retry.availableAt)
    (opening_openingWith _ _) (by decide +kernel)
  obtain ⟨earlier, started, later, splits, checked⟩ := Machine.exists_split checked
  simp only [Bool.and_eq_true, decide_eq_true_eq, List.isEmpty_iff] at checked
  obtain ⟨⟨rfl, starts⟩, retried⟩ := checked
  obtain ⟨retry, last, early⟩ := (Option.any_eq_true _ _).mp retried
  exact ⟨earlier, started, system, retry, splits ▸ runs, starts, last, of_decide_eq_true early⟩

end Nexora.Run
