import Nexora.Run.Reach

/-!
# What is answered

Only two steps of the platform touch what a run answers: a write of the executor that journals a
step, and the end of an attempt whose executor returned, which makes the run succeed. Every
other step leaves the journal and the answer cache alone and lets no run succeed.
-/

namespace Nexora.Run

open Nexora.Std Nexora.Workspace Nexora.Tools Json

variable {session : Session} {action : Action}

namespace Store

/-- The journal, the snapshots and the ledger are as they were. -/
structure JournalKept (before after : Store) : Prop where
  modelSteps : after.modelSteps = before.modelSteps
  retrievals : after.retrievals = before.retrievals
  ledger : after.ledger = before.ledger

/-- The journal and the answer cache are as they were, and of the runs only the admitted ones
may have succeeded. -/
structure Unanswered (Admitted : Uuid → Prop) (before after : Store) : Prop where
  modelSteps : after.modelSteps = before.modelSteps
  answerCache : after.answerCache = before.answerCache
  succeeded : ∀ runId run, after.agentRuns.find? runId = some run → run.status = .succeeded →
    Admitted runId ∨ ∃ earlier, before.agentRuns.find? runId = some earlier ∧
      earlier.status = .succeeded

/-- Nothing is written of what is journalled, cached and charged, and only admitted runs may have
succeeded. -/
structure Unwritten (Admitted : Uuid → Prop) (before after : Store) : Prop extends
  Unanswered Admitted before after, JournalKept before after

variable {Admitted : Uuid → Prop} {store next first second third : Store} {job : WorkerJob}
  {workerId : String} {now : Instant} {run : AgentRun} {change : AgentRun → AgentRun}
  {runId approvalId : Uuid} {recovery : Uuid × Uuid}

theorem Unanswered.of_eq (modelSteps : next.modelSteps = store.modelSteps)
    (answerCache : next.answerCache = store.answerCache)
    (agentRuns : next.agentRuns = store.agentRuns) : Unanswered Admitted store next := by
  refine ⟨modelSteps, answerCache, fun runId run found succeeded => .inr ⟨run, ?_, succeeded⟩⟩
  rw [← agentRuns]
  exact found

theorem Unanswered.refl (store : Store) : Unanswered Admitted store store := .of_eq rfl rfl rfl

theorem Unwritten.of_eq (modelSteps : next.modelSteps = store.modelSteps)
    (retrievals : next.retrievals = store.retrievals)
    (answerCache : next.answerCache = store.answerCache) (ledger : next.ledger = store.ledger)
    (agentRuns : next.agentRuns = store.agentRuns) : Unwritten Admitted store next :=
  ⟨.of_eq modelSteps answerCache agentRuns, retrievals, ledger⟩

theorem Unwritten.refl (store : Store) : Unwritten Admitted store store :=
  .of_eq rfl rfl rfl rfl rfl

theorem Unwritten.trans (early : Unwritten Admitted first second)
    (late : Unwritten Admitted second third) : Unwritten Admitted first third where
  modelSteps := late.modelSteps.trans early.modelSteps
  answerCache := late.answerCache.trans early.answerCache
  retrievals := late.retrievals.trans early.retrievals
  ledger := late.ledger.trans early.ledger
  succeeded runId run found succeeded := by
    rcases late.succeeded runId run found succeeded with admitted | ⟨earlier, stood, ended⟩
    · exact .inl admitted
    · exact early.succeeded runId earlier stood ended

/-- An update of one run that makes it succeed only if that is admitted. -/
theorem unwritten_of_modified
    (kept : ∀ run, (change run).status = .succeeded → Admitted runId ∨ run.status = .succeeded)
    (modelSteps : next.modelSteps = store.modelSteps)
    (retrievals : next.retrievals = store.retrievals)
    (answerCache : next.answerCache = store.answerCache) (ledger : next.ledger = store.ledger)
    (modified : next.agentRuns = store.agentRuns.modify runId change) :
    Unwritten Admitted store next := by
  refine ⟨⟨modelSteps, answerCache, fun other run found succeeded => ?_⟩, retrievals, ledger⟩
  rw [modified, Table.find?_modify] at found
  split at found
  case isTrue same =>
    obtain ⟨earlier, stood, rfl⟩ := Option.map_eq_some_iff.mp found
    subst same
    exact (kept earlier succeeded).imp id fun ended => ⟨earlier, stood, ended⟩
  case isFalse => exact .inr ⟨run, found, succeeded⟩

theorem updateRun_unwritten
    (kept : ∀ run, (change run).status = .succeeded → Admitted runId ∨ run.status = .succeeded)
    (ok : store.updateRun runId change = .ok next) : Unwritten Admitted store next := by
  rw [updateRun_eq_ok] at ok
  obtain ⟨_, rfl⟩ := ok
  exact unwritten_of_modified kept rfl rfl rfl rfl rfl

theorem leaveRun_unwritten {status : RunStatus} (other : status ≠ .succeeded)
    (ok : store.leaveRun runId status now = .ok next) : Unwritten Admitted store next :=
  updateRun_unwritten (fun _ succeeded => absurd succeeded other) ok

theorem enqueue_unwritten {jobId : Uuid} {availableAt : Instant}
    (ok : store.enqueue jobId run runId availableAt = .ok next) :
    Unwritten Admitted store next := by
  simp only [enqueue, bind_eq_ok, pure_eq_ok] at ok
  obtain ⟨_, _, rfl⟩ := ok
  exact .of_eq rfl rfl rfl rfl rfl

theorem cancelLocked_unwritten (ok : store.cancelLocked job workerId now = .ok next) :
    Unwritten Admitted store next := by
  simp only [cancelLocked, bind_eq_ok, pure_eq_ok] at ok
  obtain ⟨cancelled, done, rfl⟩ := ok
  exact (leaveRun_unwritten (by simp) done).trans (.of_eq rfl rfl rfl rfl rfl)

theorem claim_unwritten {leaseSeconds : Nat} {handed : Option ExecutionContext}
    (ok : store.claim job workerId leaseSeconds now = .ok (next, handed)) :
    Unwritten Admitted store next := by
  have recovery {run : AgentRun} {recovered : Store} (free : Recovered store job run now recovered) :
      Unwritten Admitted store recovered := by
    cases free with
    | queued => exact .refl _
    | expired _ _ ok =>
      have superseded : Unwritten Admitted store (store.supersedeReceipts job.runId false) :=
        .of_eq rfl rfl rfl rfl rfl
      exact superseded.trans (leaveRun_unwritten (by simp) ok)
  cases claim_effect ok with
  | untouched => exact .refl _
  | answered => exact .of_eq rfl rfl rfl rfl rfl
  | cancelled _ _ _ _ _ free _ done => exact (recovery free).trans (cancelLocked_unwritten done)
  | started _ _ _ _ _ _ free _ done =>
    simp only [startAttempt, bind_eq_ok, pure_eq_ok] at done
    obtain ⟨started, begun, rfl⟩ := done
    exact (recovery free).trans
      ((updateRun_unwritten (by simp) begun).trans (.of_eq rfl rfl rfl rfl rfl))

/-- The end of an attempt lets its run succeed only if the executor returned. -/
theorem finish_unwritten {newJobId : Uuid} {delay : Instant} {handled : Bool}
    (ok : finish store workerId session newJobId delay now = .ok (next, handled)) :
    Unwritten (fun runId => session.stage = .returned ∧ runId = session.job.runId) store next := by
  cases finish_effect ok with
  | stands same => exact same ▸ .refl _
  | cancelled _ _ done => exact cancelLocked_unwritten done
  | waiting _ _ _ _ _ _ _ done closed =>
    exact closed ▸ (leaveRun_unwritten (by simp) done).trans (.of_eq rfl rfl rfl rfl rfl)
  | ended _ _ _ result done closed =>
    refine closed ▸ (updateRun_unwritten ?_ done).trans (.of_eq rfl rfl rfl rfl rfl)
    rintro run succeeded
    rcases result with ⟨_, returned⟩ | rfl
    · exact .inl ⟨returned, rfl⟩
    · cases succeeded
  | retried _ done enqueued =>
    refine (leaveRun_unwritten (by simp) done).trans (Unwritten.trans ?_ (enqueue_unwritten enqueued))
    exact .of_eq rfl rfl rfl rfl rfl

/-- A fold of steps that answer nothing. -/
theorem foldlM_unwritten {Item : Type} {step : Store → Item → Except Raised Store}
    {items : List Item}
    (each : ∀ store item next, step store item = .ok next → Unwritten Admitted store next)
    (ok : items.foldlM step store = .ok next) : Unwritten Admitted store next :=
  foldlM_invariant (Unwritten Admitted store)
    (fun current item _ after before done => before.trans (each current item after done))
    (.refl store) ok

theorem cancelApproval_unwritten {approval : ToolApproval} {status : ApprovalStatus}
    (ok : store.cancelApproval approvalId approval status now = .ok next) :
    Unwritten Admitted store next := by
  obtain ⟨_, _, rfl | left_⟩ := cancelApproval_effect ok
  · exact .of_eq rfl rfl rfl rfl rfl
  · refine Unwritten.trans ?_ (leaveRun_unwritten (by simp) left_)
    exact .of_eq rfl rfl rfl rfl rfl

theorem expireApproval_unwritten (ok : expireApproval now store approvalId = .ok next) :
    Unwritten Admitted store next := by
  simp only [expireApproval, bind_eq_ok] at ok
  obtain ⟨approval, _, ok⟩ := ok
  exact cancelApproval_unwritten ok

theorem recoverExpired_unwritten (ok : recoverExpired now store recovery = .ok next) :
    Unwritten Admitted store next := by
  simp only [recoverExpired, bind_eq_ok] at ok
  obtain ⟨run, _, queued, taken, enqueued⟩ := ok
  have superseded : Unwritten Admitted store (store.supersedeReceipts recovery.1 true) :=
    .of_eq rfl rfl rfl rfl rfl
  exact superseded.trans ((leaveRun_unwritten (by simp) taken).trans (enqueue_unwritten enqueued))

theorem requeueOrphan_unwritten {orphanSeconds : Nat}
    (ok : requeueOrphan orphanSeconds now store recovery = .ok next) :
    Unwritten Admitted store next := by
  simp only [requeueOrphan, bind_eq_ok] at ok
  obtain ⟨run, _, touched, updated, enqueued⟩ := ok
  refine (updateRun_unwritten (fun run => ?_) updated).trans (enqueue_unwritten enqueued)
  exact .inr

end Store

open Store

theorem Request.run_unwritten {Admitted : Uuid → Prop} {platform : Platform} {store next : Store}
    {request : Request} (ok : request.run platform store = .ok next) :
    Unwritten Admitted store next := by
  cases Request.effect ok with
  | stands same => exact same ▸ .refl _
  | settings same => exact same ▸ .of_eq rfl rfl rfl rfl rfl
  | created absent enqueued =>
    refine Unwritten.trans ?_ (enqueue_unwritten enqueued)
    refine ⟨⟨rfl, rfl, fun other run found succeeded => ?_⟩, rfl, rfl⟩
    rw [Table.find?_put_eq] at found
    split at found
    · cases found
      simp [newRun] at succeeded
    · exact .inr ⟨run, found, succeeded⟩
  | requested _ _ same =>
    refine same ▸ unwritten_of_modified (fun run => ?_) rfl rfl rfl rfl rfl
    exact .inr
  | cancelled _ _ same => exact same ▸ unwritten_of_modified (by simp) rfl rfl rfl rfl rfl
  | lapsed _ _ _ done => exact cancelApproval_unwritten done
  | rejected _ _ _ _ same => exact same ▸ unwritten_of_modified (by simp) rfl rfl rfl rfl rfl
  | approved _ _ _ _ enqueued =>
    refine Unwritten.trans ?_ (enqueue_unwritten enqueued)
    exact unwritten_of_modified (by simp) rfl rfl rfl rfl rfl
  | expired done => exact foldlM_unwritten (fun _ _ _ => expireApproval_unwritten) done
  | recovered _ first second =>
    exact (foldlM_unwritten (fun _ _ _ => recoverExpired_unwritten) first).trans
      (foldlM_unwritten (fun _ _ _ => requeueOrphan_unwritten) second)
  | published _ done =>
    simp only [Store.publish, bind_eq_ok, pure_eq_ok] at done
    obtain ⟨_, _, rfl⟩ := done
    exact .of_eq rfl rfl rfl rfl rfl

/-- A write that journals no step. -/
def Write.journals : Write → Bool
  | .save _ _ _ _ _ | .restoreAnswerCache _ _ _ _ _ _ | .restoreSemanticAnswerCache _ _ _ _ _ _ =>
    true
  | .saveRetrieval _ _ _ _ _ | .recordSemanticCacheEmbedding _ _ => false

/-- An action that journals no step. -/
def Action.journals : Action → Bool
  | .write entry => entry.journals
  | _ => false

theorem recordSpend_unanswered {Admitted : Uuid → Prop} (store : Store) (workspaceId : Uuid)
    (sourceKey : SourceKey) (record : SpendRecord) :
    Unanswered Admitted store (store.recordSpend workspaceId sourceKey record) := by
  unfold recordSpend
  split
  · exact .refl _
  · exact .of_eq rfl rfl rfl

theorem Action.run_unanswered {Admitted : Uuid → Prop} {platform : Platform} {store after : Store}
    {workerId : String} {stage : Stage}
    (ok : action.run platform store workerId session = some (after, stage))
    (silent : action.journals = false) : Unanswered Admitted store after := by
  cases Action.effect ok with
  | renewed leaseSeconds now =>
    refine ⟨rfl, rfl, fun runId run found succeeded => .inr ?_⟩
    rw [Store.renewLease, Table.find?_modify] at found
    split at found
    case isTrue same =>
      obtain ⟨earlier, stood, rfl⟩ := Option.map_eq_some_iff.mp found
      subst same
      refine ⟨earlier, stood, ?_⟩
      split at succeeded
      · exact succeeded
      · exact succeeded
    case isFalse => exact ⟨run, found, succeeded⟩
  | wrote entry done =>
    cases entry with
    | save => cases silent
    | restoreAnswerCache => cases silent
    | restoreSemanticAnswerCache => cases silent
    | saveRetrieval =>
      simp only [Write.run, Store.saveRetrieval, bind_eq_ok, raiseIf_eq_ok, exists_and_left,
        exists_const] at done
      obtain ⟨_, _, _, done⟩ := done
      split at done
      · cases done
        exact .of_eq rfl rfl rfl
      · simp only [bind_eq_ok, raiseIf_eq_ok, pure_eq_ok, exists_and_left, exists_const] at done
        exact done.2 ▸ .refl _
    | recordSemanticCacheEmbedding =>
      simp only [Write.run, Store.recordSemanticCacheEmbedding, bind_eq_ok, pure_eq_ok] at done
      obtain ⟨_, _, rfl⟩ := done
      exact recordSpend_unanswered _ _ _ _
  | embedded record => exact recordSpend_unanswered _ _ _ _
  | planned done =>
    obtain ⟨_, _, rfl⟩ := prepareCall_onlyCalls done
    exact .of_eq rfl rfl rfl
  | started at_ done =>
    obtain ⟨_, _, _, _, rfl⟩ := markRunning_eq_ok done
    exact .of_eq rfl rfl rfl
  | succeeded at_ done =>
    obtain ⟨_, ⟨_, rfl⟩ | ⟨_, _, _, rfl⟩⟩ := completeCallSuccess_eq_ok done
    · exact .refl _
    · exact .of_eq rfl rfl rfl
  | failed clocked done =>
    obtain ⟨_, _, ⟨_, rfl⟩ | ⟨_, _, _, rfl⟩⟩ := completeCallFailure_eq_ok done
    · exact .refl _
    · exact .of_eq rfl rfl rfl
  | unchanged => exact .refl _

/-- An attempt is at its end only by its executor's return. -/
theorem Action.run_returned {platform : Platform} {store after : Store} {workerId : String}
    (ok : action.run platform store workerId session = some (after, .returned)) :
    action = .executorReturns ∨ session.stage = .returned := by
  have settled {callId : Uuid} {code : PyStr} {retryable : Bool} {error : ExecutionError}
      {clock : Instant} : (recordFailure store session callId code retryable (.raised error)
        clock).2 ≠ .returned := by
    unfold recordFailure
    split <;> simp
  cases action with
  | renewLease =>
    simp only [Action.run, Option.pure_def, Option.some.injEq, Prod.mk.injEq] at ok
    exact .inr ok.2
  | write entry =>
    simp only [Action.run, Option.bind_eq_bind, Option.bind_eq_some_iff, Option.pure_def,
      Option.some.injEq] at ok
    obtain ⟨_, _, ok⟩ := ok
    unfold journalled at ok
    split at ok <;> simp at ok
  | recordEmbeddingSpend =>
    simp [Action.run, Option.bind_eq_some_iff] at ok
  | prepareCall =>
    simp only [Action.run, Option.bind_eq_bind, Option.bind_eq_some_iff, Option.pure_def,
      Option.some.injEq] at ok
    obtain ⟨_, _, ok⟩ := ok
    unfold plan at ok
    split at ok
    · simp only [Prod.mk.injEq] at ok
      unfold Stage.ofPlan at ok
      split at ok <;> simp at ok
    · simp at ok
  | stopIfCancelled => simp [Action.run, Option.bind_eq_some_iff] at ok
  | markRunning =>
    simp only [Action.run, Option.bind_eq_bind, Option.bind_eq_some_iff, Option.pure_def,
      Option.some.injEq] at ok
    obtain ⟨_, _, ok⟩ := ok
    unfold start at ok
    split at ok
    · simp only [Prod.mk.injEq] at ok
      unfold Stage.ofExecution at ok
      split at ok <;> simp at ok
    · simp only [Prod.mk.injEq] at ok
      unfold Stage.notStarted at ok
      split at ok <;> simp at ok
  | settle outcome =>
    simp only [Action.run, Option.bind_eq_bind, Option.bind_eq_some_iff, Option.pure_def,
      Option.some.injEq] at ok
    obtain ⟨execution, _, ok⟩ := ok
    cases outcome with
    | result value =>
      simp only [Run.settle, recordResult] at ok
      split at ok <;> simp at ok
    | error => exact absurd (congrArg Prod.snd ok) settled
    | timeout => exact absurd (congrArg Prod.snd ok) settled
    | exception => exact absurd (congrArg Prod.snd ok) settled
    | cancelled =>
      simp only [Run.settle, recordFailure] at ok
      split at ok <;> simp at ok
  | settleUnavailable =>
    simp only [Action.run, Option.bind_eq_bind, Option.bind_eq_some_iff, Option.pure_def,
      Option.some.injEq] at ok
    obtain ⟨_, _, ok⟩ := ok
    exact absurd (congrArg Prod.snd ok) settled
  | settleInvalid =>
    simp only [Action.run, Option.bind_eq_bind, Option.bind_eq_some_iff, Option.pure_def,
      Option.some.injEq] at ok
    obtain ⟨_, _, ok⟩ := ok
    exact absurd (congrArg Prod.snd ok) settled
  | executorReturns => exact .inl rfl
  | executorRaises => simp [Action.run, Option.bind_eq_some_iff] at ok

namespace Store

variable {platform : Platform} {store next : Store} {context : ExecutionContext} {stepNo : Nat}
  {clock : Instant}

/-- A saved step is a new row of the journal, and perhaps an entry of the answer cache. -/
theorem save_eq_ok {step : ModelStep} {cost : Option SpendRecord}
    {cached : Option (String × CachedAnswer)}
    (ok : store.save platform context stepNo step cost cached clock = .ok next) :
    store.modelSteps.find? (context.runId, stepNo) = none ∧
      next.modelSteps = store.modelSteps.put (context.runId, stepNo)
        { step with response := platform.jsonb step.response } ∧
      next.agentRuns = store.agentRuns ∧
      (next.answerCache = store.answerCache ∨ ∃ key answer, cached = some (key, answer) ∧
        next.answerCache = store.answerCache.put (context.workspaceId, context.agentId, key)
          { answer with response := platform.jsonb answer.response }) := by
  simp only [save, bind_eq_ok, storeJson_eq_ok, insertStep, orRaise_eq_ok,
    Table.insert?_eq_some, pure_eq_ok] at ok
  obtain ⟨_, _, _, ⟨_, rfl⟩, stepped, ⟨_, ⟨absent, rfl⟩, rfl⟩, ok⟩ := ok
  have priced : ∀ inserted : Store,
      (inserted.recordStepCost context stepNo cost).modelSteps = inserted.modelSteps ∧
        (inserted.recordStepCost context stepNo cost).agentRuns = inserted.agentRuns ∧
        (inserted.recordStepCost context stepNo cost).answerCache = inserted.answerCache := by
    intro inserted
    unfold recordStepCost recordSpend
    split
    · split <;> exact ⟨rfl, rfl, rfl⟩
    · exact ⟨rfl, rfl, rfl⟩
  refine ⟨absent, ?_⟩
  split at ok
  · cases ok
    obtain ⟨steps, runs, cache⟩ := priced _
    exact ⟨steps, runs, .inl cache⟩
  case h_2 key answer =>
    simp only [bind_eq_ok, storeJson_eq_ok, pure_eq_ok] at ok
    obtain ⟨_, ⟨_, rfl⟩, rfl⟩ := ok
    obtain ⟨steps, runs, cache⟩ := priced _
    refine ⟨steps, runs, .inr ⟨key, answer, rfl, ?_⟩⟩
    rw [cache]

/-- The cached answer that serves a lookup. -/
def cachedFor (store : Store) (context : ExecutionContext) (provider model cacheKey : String)
    (now : Instant) : Option CachedAnswer :=
  (store.answerCache.find? (context.workspaceId, context.agentId, cacheKey)).filter fun answer =>
    answer.provider = provider && answer.model = model && now < answer.expiresAt

/-- A lookup in the cache restores the answer it finds, and changes nothing if there is none. -/
theorem restoreAnswer_eq_ok {provider model cacheKey reason : String} {now : Instant}
    (ok : store.restoreAnswer context stepNo provider model cacheKey reason clock now = .ok next) :
    next.agentRuns = store.agentRuns ∧ next.answerCache = store.answerCache ∧
      ((store.cachedFor context provider model cacheKey now = none ∧
          next.modelSteps = store.modelSteps) ∨
        ∃ answer, store.cachedFor context provider model cacheKey now = some answer ∧
          store.modelSteps.find? (context.runId, stepNo) = none ∧
          ∃ row : ModelStep, row.response = answer.response ∧
            next.modelSteps = store.modelSteps.put (context.runId, stepNo) row) := by
  simp only [restoreAnswer, bind_eq_ok] at ok
  obtain ⟨_, _, ok⟩ := ok
  split at ok
  case h_1 missing =>
    cases ok
    exact ⟨rfl, rfl, .inl ⟨missing, rfl⟩⟩
  case h_2 answer there =>
    simp only [insertStep, bind_eq_ok, orRaise_eq_ok, Table.insert?_eq_some, pure_eq_ok] at ok
    obtain ⟨_, ⟨absent, rfl⟩, rfl⟩ := ok
    exact ⟨rfl, rfl, .inr ⟨answer, there, absent, _, rfl, rfl⟩⟩

end Store

end Nexora.Run
