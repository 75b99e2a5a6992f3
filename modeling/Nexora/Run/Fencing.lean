import Nexora.Run.Claims
import Nexora.Run.Frames

/-!
# Fencing of attempts

Along every run of the platform, each run of an agent stands as the claims made so far say:
whoever holds it claimed it last. So the fence lets one context pass, the one the latest
claim handed out, and whatever an attempt commits it commits as the holder, but for the
charge that is recorded outside the fence.
-/

namespace Nexora.Run

open Nexora.Std Nexora.Std.Fencing Nexora.Workspace Nexora.Tools Store

/-- The context a step hands out, with the worker it is handed to. -/
def handedOut (transition : Transition System Label) : Option (String × ExecutionContext) :=
  match transition.label with
  | .claim workerId job leaseSeconds now =>
    match transition.before.store.claim job workerId leaseSeconds now with
    | .ok (_, context) => context.map fun context => (workerId, context)
    | .error _ => none
  | _ => none

/-- The successful claims of a run, oldest first. -/
def claimsOf (history : List (Transition System Label)) (runId : Uuid) :
    List (String × ExecutionContext) :=
  (history.filterMap handedOut).filter fun handed => handed.2.runId = runId

/-- The latest successful claim of a run. -/
def latestClaim (history : List (Transition System Label)) (runId : Uuid) :
    Option (String × ExecutionContext) :=
  (claimsOf history runId).getLast?

/-- The grants the claims of a run stand for. -/
def grantsOf (history : List (Transition System Label)) (runId : Uuid) :
    List (Grant String Uuid) :=
  (claimsOf history runId).map fun handed => handed.2.grant handed.1

variable {platform : Platform} {history : List (Transition System Label)} {system next : System}
  {session : Session} {store after : Store} {action : Action} {stage : Stage}

theorem claimsOf_append (history : List (Transition System Label))
    (transition : Transition System Label) (runId : Uuid) :
    claimsOf (history ++ [transition]) runId = claimsOf history runId ++
      (handedOut transition).toList.filter fun handed => handed.2.runId = runId := by
  rw [claimsOf, claimsOf, List.filterMap_append, List.filter_append]
  cases handed : handedOut transition <;> simp [handed]

/-- A session works on a job of the outbox, under the context its worker was handed last for
the job's run. -/
structure Working (history : List (Transition System Label)) (store : Store) (workerId : String)
    (session : Session) : Prop where
  stored : store.JobStored session.job
  jobId : session.context.jobId = session.job.jobId
  runId : session.context.runId = session.job.runId
  handed : (workerId, session.context) ∈ claimsOf history session.context.runId
  current : ∀ context, (workerId, context) ∈ claimsOf history session.context.runId →
    context.attemptCount ≤ session.context.attemptCount

/-- Every run stands as its claims say, and every session works under one of them. -/
structure Attempts (history : List (Transition System Label)) (system : System) : Prop where
  receipts : system.store.ReceiptsMatchJobs
  fenced : ∀ runId, Fenced (system.store.standing runId) (grantsOf history runId)
  sessions : ∀ workerId session, system.sessions.find? workerId = some session →
    Working history system.store workerId session

/-- What an action does to the store: it extends the attempt's leases, or writes one of the
two groups of tables. -/
theorem Action.run_effect {workerId : String}
    (ok : action.run platform store workerId session = some (after, stage)) :
    (∃ leaseSeconds now, action = .renewLease leaseSeconds now ∧
      after = store.renewLease session.context.jobId session.context.runId workerId leaseSeconds
        now) ∨
    OnlyJournal store after ∨ OnlyCalls store after := by
  cases Action.effect ok with
  | renewed leaseSeconds now => exact .inl ⟨leaseSeconds, now, rfl, rfl⟩
  | wrote entry done => exact .inr (.inl (Write.run_onlyJournal done).1)
  | embedded record => exact .inr (.inl (recordSpend_onlyJournal _ _ _ _))
  | planned done => exact .inr (.inr (prepareCall_onlyCalls done))
  | started at_ done =>
    obtain ⟨_, _, _, _, rfl⟩ := markRunning_eq_ok done
    exact .inr (.inr ⟨_, _, rfl⟩)
  | succeeded at_ done =>
    obtain ⟨_, ⟨_, rfl⟩ | ⟨_, _, _, rfl⟩⟩ := completeCallSuccess_eq_ok done
    · exact .inr (.inr (.refl _))
    · exact .inr (.inr ⟨_, _, rfl⟩)
  | failed clocked done =>
    obtain ⟨_, _, ⟨_, rfl⟩ | ⟨_, _, _, rfl⟩⟩ := completeCallFailure_eq_ok done
    · exact .inr (.inr (.refl _))
    · exact .inr (.inr ⟨_, _, rfl⟩)
  | unchanged => exact .inr (.inr (.refl _))

/-- An action keeps jobs, and makes no grant. -/
theorem Action.run_kept {workerId : String}
    (ok : action.run platform store workerId session = some (after, stage)) :
    JobsKept store after ∧ Undisturbed store after := by
  rcases Action.run_effect ok with ⟨leaseSeconds, now, _, rfl⟩ | ⟨_, _, _, _, rfl⟩ | ⟨_, _, rfl⟩
  · exact ⟨renewLease_jobsKept _ _ _ _ _ _, renewLease_undisturbed _ _ _⟩
  · exact ⟨.of_eq rfl rfl, .of_eq rfl rfl⟩
  · exact ⟨.of_eq rfl rfl, .of_eq rfl rfl⟩

namespace Attempts

theorem opening (valid : Opening system) : Attempts [] system := by
  obtain ⟨quiet, memberships, agentDefinitions, unused⟩ := valid
  refine ⟨?_, fun runId => ?_, ?_⟩
  · intro jobId receipt present
    simp [unused, Store.empty] at present
  · refine .fresh ?_ ?_
    · simp [unused, Store.empty, standing]
    · rintro jobId workerId ⟨receipt, present, _⟩
      simp [unused, Store.empty] at present
  · intro workerId session present
    simp [quiet] at present

/-- The job of a session has a receipt for its own run, if it has one. -/
theorem receiptMatches (attempts : Attempts history system) {workerId : String}
    (present : system.sessions.find? workerId = some session) :
    system.store.ReceiptMatches session.job := by
  intro receipt found
  have stored := (attempts.sessions workerId session present).stored
  exact (stored.receipt_runId attempts.receipts found).1

/-- A step that grants nothing and hands out nothing, where every session that is left was
there before. -/
theorem quietly (attempts : Attempts history system) {label : Label}
    (nothing : handedOut ⟨system, label, next⟩ = none)
    (kept : JobsKept system.store next.store) (undisturbed : Undisturbed system.store next.store)
    (sessions : ∀ workerId session, next.sessions.find? workerId = some session →
      ∃ earlier, system.sessions.find? workerId = some earlier ∧ earlier.job = session.job ∧
        earlier.context = session.context) :
    Attempts (history ++ [⟨system, label, next⟩]) next := by
  have claims (runId : Uuid) :
      claimsOf (history ++ [⟨system, label, next⟩]) runId = claimsOf history runId := by
    rw [claimsOf_append, nothing]
    simp
  refine ⟨kept.receipts attempts.receipts, fun runId => ?_, ?_⟩
  · rw [grantsOf, claims]
    exact undisturbed runId _ (attempts.fenced runId)
  · intro workerId session present
    obtain ⟨earlier, found, sameJob, sameContext⟩ := sessions workerId session present
    obtain ⟨stored, jobId, runId, handed, current⟩ := attempts.sessions workerId earlier found
    rw [sameJob] at stored jobId runId
    rw [sameContext] at jobId runId handed current
    refine ⟨stored.kept kept, jobId, runId, ?_, ?_⟩
    · rw [claims]
      exact handed
    · rw [claims]
      exact current

/-- A claim grants its run to the worker it hands the context to. -/
theorem claim (attempts : Attempts history system) {workerId : String} {job : WorkerJob}
    {leaseSeconds : Nat} {now : Instant}
    (ok : System.run platform system (.claim workerId job leaseSeconds now) = .ok next) :
    Attempts (history ++ [⟨system, .claim workerId job leaseSeconds now, next⟩]) next := by
  obtain ⟨idle, store, handed, claimed, written⟩ := System.run_claim.mp ok
  have kept := claim_jobsKept claimed
  have made : handedOut ⟨system, .claim workerId job leaseSeconds now, next⟩ =
      handed.map fun context => (workerId, context) := by
    simp only [handedOut, claimed]
  have stored : next.store = store := by rw [written]
  have fenced (runId : Uuid) : Fenced (next.store.standing runId)
      (grantsOf (history ++ [⟨system, .claim workerId job leaseSeconds now, next⟩]) runId) := by
    rw [stored, grantsOf, claimsOf_append, made, List.map_append]
    have granted := claim_fenced attempts.receipts claimed runId _ (attempts.fenced runId)
    cases handed with
    | none => simpa [grantsOf] using granted
    | some context =>
      by_cases same : context.runId = runId
      · simpa [grantsOf, same] using granted
      · simpa [grantsOf, same] using granted
  refine ⟨stored ▸ kept.receipts attempts.receipts, fenced, ?_⟩
  · intro other session present
    rw [stored]
    have earlier (found : system.sessions.find? other = some session) :
        Working (history ++ [⟨system, .claim workerId job leaseSeconds now, next⟩]) store other
          session := by
      obtain ⟨stored, jobId, runId, member, current⟩ := attempts.sessions other session found
      refine ⟨stored.kept kept, jobId, runId, ?_, fun context claims => ?_⟩
      · rw [claimsOf_append]
        exact List.mem_append_left _ member
      · rw [claimsOf_append, made, List.mem_append] at claims
        rcases claims with before | last
        · exact current context before
        · -- The worker of this claim had no session.
          obtain ⟨member, _⟩ := List.mem_filter.mp last
          obtain ⟨_, _, same⟩ := Option.map_eq_some_iff.mp (Option.mem_toList.mp member)
          cases same
          rw [idle] at found
          cases found
    rw [written] at present
    cases handed with
    | none => exact earlier present
    | some context =>
      dsimp only at present
      rw [Table.find?_put_eq] at present
      split at present
      case isFalse => exact earlier present
      case isTrue same =>
        cases present
        subst same
        cases claim_effect claimed with
        | started run profile recovered _ claimable idle free requested done =>
          refine ⟨claimable.stored.kept kept, rfl, rfl, ?_, fun context claims => ?_⟩
          · rw [claimsOf_append, made]
            simp
          · have increasing := (fenced job.runId).increasing
            rw [grantsOf, List.pairwise_map, claimsOf_append, made] at increasing
            rw [claimsOf_append, made, List.mem_append] at claims
            rcases claims with before | last
            · have later := (List.pairwise_append.mp increasing).2.2 _ before
                (other, contextOf job run profile) (by simp [contextOf])
              exact later.le
            · obtain ⟨member, _⟩ := List.mem_filter.mp last
              cases Option.mem_toList.mp member
              exact le_refl _

/-- Every step keeps the attempts as their claims say. -/
theorem step (attempts : Attempts history system) {label : Label}
    (ok : System.run platform system label = .ok next) :
    Attempts (history ++ [⟨system, label, next⟩]) next := by
  cases label with
  | request request =>
    obtain ⟨store, done, rfl⟩ := System.run_request.mp ok
    exact attempts.quietly rfl (Request.run_jobsKept done) (Request.run_undisturbed done)
      fun _ session present => ⟨session, present, rfl, rfl⟩
  | claim workerId job leaseSeconds now => exact attempts.claim ok
  | act workerId action =>
    obtain ⟨session, store, stage, found, done, rfl⟩ := System.run_act.mp ok
    obtain ⟨kept, undisturbed⟩ := Action.run_kept done
    refine attempts.quietly rfl kept undisturbed fun other later present => ?_
    rw [Table.find?_put_eq] at present
    split at present
    case isFalse => exact ⟨later, present, rfl, rfl⟩
    case isTrue same =>
      cases present
      exact ⟨session, same ▸ found, rfl, rfl⟩
  | finish workerId newJobId delay now =>
    obtain ⟨session, store, handled, found, done, rfl⟩ := System.run_finish.mp ok
    have stored := (attempts.sessions workerId session found).stored
    refine attempts.quietly rfl (finish_jobsKept stored done)
      (finish_undisturbed (attempts.receiptMatches found) done) fun other later present => ?_
    rw [Table.find?_erase] at present
    split at present
    · cases present
    · exact ⟨later, present, rfl, rfl⟩
  | crash workerId =>
    obtain rfl := System.run_crash.mp ok
    refine attempts.quietly rfl (.refl _) (.refl _) fun other later present => ?_
    rw [Table.find?_erase] at present
    split at present
    · cases present
    · exact ⟨later, present, rfl, rfl⟩

end Attempts

/-- In every run of the platform the attempts are as their claims say. -/
theorem attempts_of_runs (runs : (machine platform).Runs history system) :
    Attempts history system :=
  runs.invariantWithHistory Attempts (fun _ valid => .opening valid)
    fun _ _ _ _ attempts transition => attempts.step transition

/-- What the fence guards is as it was. The charge for embedding a retrieval query is
recorded outside it. -/
structure GuardedKept (before after : Store) : Prop where
  modelSteps : after.modelSteps = before.modelSteps
  retrievals : after.retrievals = before.retrievals
  answerCache : after.answerCache = before.answerCache
  toolCalls : after.toolCalls = before.toolCalls
  toolApprovals : after.toolApprovals = before.toolApprovals
  ledger : ∀ workspaceId sourceKey, (∀ runId, sourceKey ≠ .runRetrieval runId) →
    after.ledger.find? (workspaceId, sourceKey) = before.ledger.find? (workspaceId, sourceKey)

theorem GuardedKept.refl (store : Store) : GuardedKept store store :=
  ⟨rfl, rfl, rfl, rfl, rfl, fun _ _ _ => rfl⟩

namespace Attempts

variable {runId : Uuid} {workerId : String} {context : ExecutionContext} {clock now : Instant}
  {run : AgentRun}

/-- Two claims of a run under one attempt number are the same claim. -/
theorem claim_unique (attempts : Attempts history system) {first second : String × ExecutionContext}
    (firstMade : first ∈ claimsOf history runId) (secondMade : second ∈ claimsOf history runId)
    (same : first.2.attemptCount = second.2.attemptCount) : first = second := by
  have increasing := (attempts.fenced runId).increasing
  rw [grantsOf, List.pairwise_map] at increasing
  have distinct : ((claimsOf history runId).map fun handed => handed.2.attemptCount).Nodup :=
    List.pairwise_map.mpr (increasing.imp fun earlier => Nat.ne_of_lt earlier)
  exact List.inj_on_of_nodup_map distinct firstMade secondMade same

/-- Whoever holds a run and presents a job it is processed under was handed the run last. -/
theorem latest_of_held (attempts : Attempts history system) {holder : String} {jobId : Uuid}
    (present : system.store.agentRuns.find? runId = some run) (held : run.phase = .held holder)
    (processes : ∃ receipt, system.store.receipts.find? jobId = some receipt ∧
      receipt.processes runId holder) :
    ∃ claimed, latestClaim history runId = some (holder, claimed) ∧ claimed.jobId = jobId ∧
      claimed.attemptCount = run.attemptCount := by
  have phase : (system.store.standing runId).phase = .held holder := by
    simp [standing, present, held]
  have last := (attempts.fenced runId).holder_latest phase processes
  rw [grantsOf, List.getLast?_map, Option.map_eq_some_iff] at last
  obtain ⟨⟨worker, claimed⟩, found, same⟩ := last
  simp only [ExecutionContext.grant, Grant.mk.injEq] at same
  obtain ⟨attempt, job, rfl⟩ := same
  refine ⟨claimed, found, job, ?_⟩
  simpa [standing, present] using attempt

/-- The context the fence lets pass is the one the latest claim handed out. -/
theorem latest_of_executable (attempts : Attempts history system)
    (handed : (workerId, context) ∈ claimsOf history context.runId)
    (passed : system.store.executableRun context clock = .ok run) :
    latestClaim history context.runId = some (workerId, context) ∧
      ∃ lease, run.lease = some lease ∧ lease.owner = workerId := by
  have holds := holds_of_executableRun passed
  obtain ⟨lease, receipt, leased, _, found, processes, _⟩ := holds.leased
  have phase : run.phase = .held lease.owner := by
    simp [AgentRun.phase, holds.running, leased]
  obtain ⟨claimed, last, _, attempt⟩ :=
    attempts.latest_of_held holds.present phase ⟨receipt, found, processes⟩
  have made := List.mem_of_getLast? last
  have same := attempts.claim_unique made handed (attempt.trans holds.attempt)
  cases same
  exact ⟨last, lease, leased, rfl⟩

end Attempts

end Nexora.Run
