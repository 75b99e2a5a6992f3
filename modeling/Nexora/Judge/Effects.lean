import Nexora.Judge.System

/-!
# What the steps of the evaluation service do

Every step is read off the code once: what a request inserts, what a claim makes of the rows it
takes back and of the one it claims, and what a worker records under the lease it holds. A
worker that holds no lease leaves the store as it was.
-/

namespace Nexora.Judge

open Nexora.Std Nexora.Workspace

/-- The case a worker has loaded. -/
def Stage.loaded? : Stage → Option LoadedCase
  | .authorizing loaded _ | .budgeting loaded _ | .scoring loaded _ | .saving loaded _ _ =>
    some loaded
  | .claimed | .complete | .failing _ _ => none

/-- When an activity records something about the judge run. -/
def Activity.recordsAt : Activity → Option Instant
  | .save now _ | .finish now _ | .fail _ now => some now
  | _ => none

/-- What a request inserts. -/
inductive Requested (before : Store) : Store → Prop where
  | same : Requested before before
  | member (memberships : Memberships) : Requested before { before with memberships := memberships }
  | suite (suiteId : Uuid) (suite : EvalSuite) (rows : List (Uuid × EvalCase))
      (cases : Table Uuid EvalCase) (free : before.suites.find? suiteId = none)
      (inserted : before.cases.insertAll? rows = some cases)
      (own : ∀ entry ∈ rows, entry.2.suiteId = suiteId ∧
        entry.2.workspaceId = suite.workspaceId) :
      Requested before { before with suites := before.suites.put suiteId suite, cases := cases }
  | evaluated (evalRunId : Uuid) (run : EvalRun) (sources : Table (Uuid × Uuid) AgentRunSource)
      (free : before.evalRuns.find? evalRunId = none)
      (nonempty : before.casesOf run.workspaceId run.suiteId ≠ [])
      (counted : run.caseCount = (before.casesOf run.workspaceId run.suiteId).length) :
      Requested before
        { before with evalRuns := before.evalRuns.put evalRunId run, sources := sources }
  | judged (judgeRunId : Uuid) (row : JudgeRun) (run : EvalRun)
      (free : before.judgeRuns.find? judgeRunId = none)
      (evaluated : before.evalRunIn row.workspaceId row.evalRunId = some run)
      (counted : row.caseCount = run.caseCount) (queued : row.status = .queued)
      (unattempted : row.attemptCount = 0) (unleased : row.lease = none) :
      Requested before { before with judgeRuns := before.judgeRuns.put judgeRunId row }
  | spent (workspaceId : Uuid) (sourceKey : String) (record : SpendRecord)
      (free : before.ledger.find? (workspaceId, .other sourceKey) = none) :
      Requested before
        { before with ledger := before.ledger.put (workspaceId, .other sourceKey) record }

/-- A judge run whose attempt failed: it is put back while attempts are left. -/
structure JudgeRun.Failed (row later : JudgeRun) : Prop where
  request : later.toJudgeRequest = row.toJudgeRequest
  attempts : later.attemptCount = row.attemptCount + 1
  released : later.lease = none
  status : later.status = .failed ∨
    later.status = .queued ∧ row.attemptCount + 1 < maxJudgeAttempts

/-- What a worker records about the judge run it holds. -/
inductive Recorded (worker : JudgeWorker) (attempt : Attempt) (store : Store) (now : Instant) :
    Activity → Store → Prop where
  | saved {acknowledged loaded candidate baseline} (row later : JudgeRun)
      (price : Option SpendRecord) (judgeRuns : Table Uuid JudgeRun)
      (stage : attempt.stage = .saving loaded candidate baseline)
      (owned : store.owned worker attempt.judgeRunId now = some row)
      (priced : worker.price (JudgeWorker.scoreRow attempt.job candidate baseline).inputTokens
        (JudgeWorker.scoreRow attempt.job candidate baseline).outputTokens = .ok price)
      (written : Table.Written store.judgeRuns judgeRuns attempt.judgeRunId later)
      (ends : later = row.requeue now ∨ later = row.succeed now ∧
        (store.addScore attempt.judgeRunId loaded.caseId attempt.job
          (JudgeWorker.scoreRow attempt.job candidate baseline) price).scoreCount
            attempt.judgeRunId = row.caseCount) :
      Recorded worker attempt store now (.save now acknowledged)
        { store.addScore attempt.judgeRunId loaded.caseId attempt.job
            (JudgeWorker.scoreRow attempt.job candidate baseline) price with
          judgeRuns := judgeRuns }
  | finished {acknowledged} (row : JudgeRun) (judgeRuns : Table Uuid JudgeRun)
      (owned : store.owned worker attempt.judgeRunId now = some row)
      (complete : store.scoreCount attempt.judgeRunId = row.caseCount)
      (written : Table.Written store.judgeRuns judgeRuns attempt.judgeRunId (row.succeed now)) :
      Recorded worker attempt store now (.finish now acknowledged)
        { store with judgeRuns := judgeRuns }
  | failed {delay} (row later : JudgeRun) (judgeRuns : Table Uuid JudgeRun)
      (owned : store.owned worker attempt.judgeRunId now = some row)
      (written : Table.Written store.judgeRuns judgeRuns attempt.judgeRunId later)
      (fails : row.Failed later) :
      Recorded worker attempt store now (.fail delay now) { store with judgeRuns := judgeRuns }

/-- A case belongs to the suite of an evaluation run. -/
def Store.HasCase (store : Store) (workspaceId evalRunId caseId : Uuid) : Prop :=
  ∃ run row, store.evalRunIn workspaceId evalRunId = some run ∧
    store.cases.find? caseId = some row ∧ row.suiteId = run.suiteId ∧
    row.workspaceId = run.workspaceId

/-- The loaded case is one the attempt had loaded, or one of its judge run's suite. -/
def Attempt.Loads (attempt later : Attempt) (store : Store) : Prop :=
  ∀ loaded ∈ later.stage.loaded?, attempt.stage.loaded? = some loaded ∨
    store.HasCase attempt.job.workspaceId attempt.job.evalRunId loaded.caseId

/-- What an attempt becomes. -/
structure Attempt.Continues (attempt later : Attempt) (store : Store) : Prop where
  judgeRunId : later.judgeRunId = attempt.judgeRunId
  job : later.job = attempt.job
  loads : attempt.Loads later store

/-- What an activity does. -/
inductive Performed (worker : JudgeWorker) (attempt : Attempt) (store : Store) :
    Activity → Store × Option Attempt → Prop where
  | quiet {activity} (later : Option Attempt)
      (continues : ∀ next ∈ later, attempt.Continues next store) :
      Performed worker attempt store activity (store, later)
  | heartbeat {now} :
      Performed worker attempt store (.heartbeat now)
        (store.heartbeat worker attempt.judgeRunId now, some attempt)
  | recorded {activity now next} (later : Option Attempt)
      (continues : ∀ next ∈ later, attempt.Continues next store)
      (recorded : Recorded worker attempt store now activity next) :
      Performed worker attempt store activity (next, later)

/-- What a step of the service does. -/
inductive Effect (deployment : Deployment) (system : System) : Label → System → Prop where
  | request {label store} (idle : ∀ workerId due now acknowledged activity,
        label ≠ .claim workerId due now acknowledged ∧ label ≠ .work workerId activity)
      (requested : Requested system.store store) :
      Effect deployment system label { system with store := store }
  | swept {workerId now acknowledged} (worker : JudgeWorker)
      (found : deployment.workers.find? workerId = some worker)
      (free : system.attempts.find? workerId = none) :
      Effect deployment system (.claim workerId none now acknowledged)
        { system with store := system.store.sweep worker now }
  | claimed {workerId now judgeRunId acknowledged} (worker : JudgeWorker)
      (found : deployment.workers.find? workerId = some worker)
      (free : system.attempts.find? workerId = none) (row : JudgeRun)
      (judgeRuns : Table Uuid JudgeRun) (attempts : Table String Attempt)
      (present : (system.store.sweep worker now).judgeRuns.find? judgeRunId = some row)
      (due : row.isDue worker.config now = true)
      (written : Table.Written (system.store.sweep worker now).judgeRuns judgeRuns judgeRunId
        (row.claimedBy worker now))
      (attempts_eq : attempts = system.attempts ∨ attempts = system.attempts.put workerId
        ⟨judgeRunId, row.claimedBy worker now, .claimed⟩) :
      Effect deployment system (.claim workerId (some judgeRunId) now acknowledged)
        { store := { system.store with judgeRuns := judgeRuns }, attempts := attempts }
  | worked {workerId activity performed} (worker : JudgeWorker) (attempt : Attempt)
      (found : deployment.workers.find? workerId = some worker)
      (current : system.attempts.find? workerId = some attempt)
      (performs : Performed worker attempt system.store activity performed) :
      Effect deployment system (.work workerId activity) (system.resume workerId performed)

/-! ## Reading the operations -/

variable {judgeRunId workspaceId suiteId evalRunId : Uuid} {idempotencyKey : String}
  {result : Store × Uuid} {principal : Principal} {requestHash : Nat} {row : JudgeRun}

theorem Store.owned_eq_some {store : Store} {worker : JudgeWorker} {now : Instant} :
    store.owned worker judgeRunId now = some row ↔
      store.judgeRuns.find? judgeRunId = some row ∧ row.heldBy worker.workerId now = true := by
  simp [Store.owned]

theorem Store.updateRun_eq_ok {store next : Store} {change : JudgeRun → JudgeRun}
    (present : store.judgeRuns.find? judgeRunId = some row)
    (ok : store.updateRun judgeRunId change = .ok next) :
    ∃ judgeRuns, Table.Written store.judgeRuns judgeRuns judgeRunId (change row) ∧
      next = { store with judgeRuns := judgeRuns } := by
  simp only [Store.updateRun, bind_eq_ok, raiseIf_eq_ok, pure_eq_ok] at ok
  obtain ⟨_, _, rfl⟩ := ok
  exact ⟨_, .modify change present, rfl⟩

theorem createSuite_requested {store : Store} {body : EvalSuiteInput} {caseId : Nat → Uuid}
    (ok : store.createSuite principal workspaceId body requestHash idempotencyKey suiteId caseId =
      .ok result) : Requested store result.1 := by
  simp only [Store.createSuite, bind_eq_ok] at ok
  obtain ⟨_, _, ok⟩ := ok
  split at ok
  case h_1 existingId existing _ =>
    simp only [bind_eq_ok, raiseIf_eq_ok, pure_eq_ok] at ok
    obtain ⟨_, _, rfl⟩ := ok
    exact .same
  case h_2 =>
    simp only [bind_eq_ok, raiseIf_eq_ok, orRaise_eq_ok, pure_eq_ok, Table.insert?_eq_some] at ok
    obtain ⟨_, _, _, ⟨free, rfl⟩, cases, inserted, rfl⟩ := ok
    apply Requested.suite suiteId _ _ cases free inserted
    intro entry member
    obtain ⟨index, inside, rfl⟩ := List.mem_mapIdx.mp member
    exact ⟨rfl, rfl⟩

theorem evaluate_requested {store : Store} {baselineEvalRunId : Option Uuid} {caseKeys : List PyStr}
    {incomplete : Failure} {observe : EvalCase → Except Failure Unit}
    {mapping : List (PyStr × Uuid)}
    (ok : store.evaluate principal workspaceId suiteId baselineEvalRunId caseKeys incomplete observe
      mapping requestHash idempotencyKey evalRunId = .ok result) : Requested store result.1 := by
  simp only [Store.evaluate, bind_eq_ok] at ok
  obtain ⟨_, _, ok⟩ := ok
  split at ok
  case h_1 existingId existing _ =>
    simp only [bind_eq_ok, raiseIf_eq_ok, pure_eq_ok] at ok
    obtain ⟨_, _, rfl⟩ := ok
    exact .same
  case h_2 =>
    simp only [bind_eq_ok, raiseIf_eq_ok, inserted_eq_ok, pure_eq_ok, Table.insert?_eq_some] at ok
    obtain ⟨_, nonempty, _, _, _, _, _, _, _, ⟨free, rfl⟩, sources, _, rfl⟩ := ok
    exact .evaluated evalRunId _ sources free nonempty rfl

theorem createJudge_requested {store : Store} {now : Instant}
    (ok : store.createJudge principal workspaceId evalRunId requestHash idempotencyKey judgeRunId
      now = .ok result) : Requested store result.1 := by
  simp only [Store.createJudge, bind_eq_ok] at ok
  obtain ⟨_, _, run, own, _, _, _, _, ok⟩ := ok
  split at ok
  case h_1 existingId existing _ =>
    simp only [bind_eq_ok, raiseIf_eq_ok, pure_eq_ok] at ok
    obtain ⟨_, _, rfl⟩ := ok
    exact .same
  case h_2 =>
    simp only [bind_eq_ok, orRaise_eq_ok, pure_eq_ok, Table.insert?_eq_some] at ok
    obtain ⟨_, ⟨free, rfl⟩, rfl⟩ := ok
    have evaluated : store.evalRunIn workspaceId evalRunId = some run := by
      rw [Store.ownEvalRun, found_eq_ok, Option.filter_eq_some_iff] at own
      exact own.1
    exact .judged judgeRunId _ run free evaluated rfl rfl rfl rfl

section Activities

variable {deployment : Deployment} {worker : JudgeWorker} {attempt : Attempt} {store next : Store}
  {now : Instant} {acknowledged : Bool} {loaded : LoadedCase} {activity : Activity}

/-- A case that is loaded is one of the judge run's suite. -/
theorem nextCase_eq_some {job : JudgeRun} {agentRuns : Table Uuid SourceRun}
    (ok : store.nextCase judgeRunId job agentRuns = .ok (some loaded)) :
    store.HasCase job.workspaceId job.evalRunId loaded.caseId := by
  simp only [Store.nextCase, bind_eq_ok] at ok
  obtain ⟨_, _, ok⟩ := ok
  split at ok
  case h_1 => cases ok
  case h_2 run caseId row agentRunId isNext =>
    simp only [bind_eq_ok, pure_eq_ok] at ok
    obtain ⟨_, _, _, _, _, _, isLoaded⟩ := ok
    cases isLoaded
    simp only [Store.nextUnscored, Option.bind_eq_bind, Option.bind_eq_some_iff, Option.pure_def,
      Option.some.injEq] at isNext
    obtain ⟨_, evaluated, entry, head, same⟩ := isNext
    cases same
    have listed := (mem_orderBy _).mp (List.mem_of_head? head)
    obtain ⟨listedCase, member, isEntry⟩ := List.mem_filterMap.mp listed
    split at isEntry
    case isTrue => cases isEntry
    case isFalse =>
      obtain ⟨_, _, same⟩ := Option.map_eq_some_iff.mp isEntry
      cases same
      obtain ⟨present, inSuite⟩ := (Table.mem_select _ _ _ _).mp member
      obtain ⟨workspace, suite⟩ := (Bool.and_eq_true _ _).mp inSuite
      exact ⟨run, listedCase.2, evaluated, present, of_decide_eq_true suite,
        of_decide_eq_true workspace⟩

theorem saveCase_eq_ok {candidate : Scored} {baseline : Option Scored}
    (stage : attempt.stage = .saving loaded candidate baseline)
    (ok : worker.saveCase store attempt.judgeRunId attempt.job loaded.caseId candidate baseline
      now = .ok next) :
    next = store ∨ Recorded worker attempt store now (.save now acknowledged) next := by
  simp only [JudgeWorker.saveCase, bind_eq_ok] at ok
  obtain ⟨price, priced, ok⟩ := ok
  split at ok
  case h_1 => exact .inl (Except.ok.inj ok).symm
  case h_2 row owned =>
    have present : (store.addScore attempt.judgeRunId loaded.caseId attempt.job
        (JudgeWorker.scoreRow attempt.job candidate baseline) price).judgeRuns.find?
          attempt.judgeRunId = some row := (Store.owned_eq_some.mp owned).1
    right
    split at ok
    case isTrue complete =>
      obtain ⟨judgeRuns, written, rfl⟩ := Store.updateRun_eq_ok present ok
      exact .saved row _ price judgeRuns stage owned priced written (.inr ⟨rfl, complete⟩)
    case isFalse =>
      obtain ⟨judgeRuns, written, rfl⟩ := Store.updateRun_eq_ok present ok
      exact .saved row _ price judgeRuns stage owned priced written (.inl rfl)

theorem finishIfComplete_eq_ok
    (ok : worker.finishIfComplete store attempt.judgeRunId now = .ok next) :
    next = store ∨ Recorded worker attempt store now (.finish now acknowledged) next := by
  unfold JudgeWorker.finishIfComplete at ok
  split at ok
  case h_1 => exact .inl (Except.ok.inj ok).symm
  case h_2 row owned =>
    simp only [bind_eq_ok, raiseIf_eq_ok, not_not] at ok
    obtain ⟨_, complete, ok⟩ := ok
    obtain ⟨judgeRuns, written, rfl⟩ :=
      Store.updateRun_eq_ok (Store.owned_eq_some.mp owned).1 ok
    exact .inr (.finished row judgeRuns owned complete written)

theorem fail_eq_ok {errorCode : String} {retryable : Bool} {delay : Nat}
    (ok : worker.fail store attempt.judgeRunId errorCode retryable delay now = .ok next) :
    next = store ∨ Recorded worker attempt store now (.fail delay now) next := by
  unfold JudgeWorker.fail at ok
  split at ok
  case h_1 => exact .inl (Except.ok.inj ok).symm
  case h_2 row owned =>
    have present := (Store.owned_eq_some.mp owned).1
    right
    dsimp only at ok
    split at ok
    case isTrue left =>
      obtain ⟨judgeRuns, written, rfl⟩ := Store.updateRun_eq_ok present ok
      exact .failed row _ judgeRuns owned written ⟨rfl, rfl, rfl, .inr ⟨rfl, left.2⟩⟩
    case isFalse =>
      obtain ⟨judgeRuns, written, rfl⟩ := Store.updateRun_eq_ok present ok
      exact .failed row _ judgeRuns owned written ⟨rfl, rfl, rfl, .inl rfl⟩

theorem loaded?_recorded (raised : Raised) : raised.recorded.loaded? = none := by
  unfold Raised.recorded
  split <;> rfl

/-- An attempt at a stage without another case goes on. -/
theorem Attempt.Continues.ofStage {stage : Stage}
    (same : ∀ loaded ∈ stage.loaded?, attempt.stage.loaded? = some loaded) :
    attempt.Continues (attempt.at_ stage) store :=
  ⟨rfl, rfl, fun loaded member => .inl (same loaded member)⟩

theorem Attempt.Continues.ofRecorded (raised : Raised) :
    attempt.Continues (attempt.at_ raised.recorded) store := by
  apply Attempt.Continues.ofStage
  simp [loaded?_recorded]

/-- An attempt goes on after a computation that may raise. -/
theorem Attempt.Continues.ofAfter {α : Type} {computation : Except Raised α} {after : α → Stage}
    (same : ∀ value, computation = .ok value → ∀ loaded ∈ (after value).loaded?,
      attempt.stage.loaded? = some loaded) :
    attempt.Continues (attempt.at_ (.after computation after)) store := by
  cases computation with
  | error raised => exact .ofRecorded raised
  | ok value => exact .ofStage (same value rfl)

theorem loaded?_afterScore (loaded : LoadedCase) (candidate : Option Scored) (scored : Scored) :
    (Stage.afterScore loaded candidate scored).loaded? = some loaded := by
  cases candidate with
  | none =>
    simp only [Stage.afterScore]
    split <;> rfl
  | some candidate => rfl

/-- What a transaction whose outcome is recorded does. -/
theorem performed_settle {computation : Except Raised Store}
    (records : ∀ next, computation = .ok next →
      next = store ∨ Recorded worker attempt store now activity next) :
    Performed worker attempt store activity (attempt.settle store acknowledged computation) := by
  cases computation with
  | error raised =>
    apply Performed.quiet
    intro later isLater
    cases isLater
    exact .ofRecorded raised
  | ok next =>
    have continues : ∀ later ∈ (if acknowledged then none
        else some (attempt.at_ Raised.unexpected.recorded)), attempt.Continues later store := by
      intro later isLater
      cases acknowledged with
      | true => cases isLater
      | false =>
        cases isLater
        exact .ofRecorded _
    rcases records next rfl with rfl | recorded
    · exact .quiet _ continues
    · exact .recorded _ continues recorded

theorem performed_of_perform {performed : Store × Option Attempt}
    (ok : attempt.perform deployment worker store activity = .ok performed) :
    Performed worker attempt store activity performed := by
  cases activity with
  | heartbeat now =>
    cases ok
    exact .heartbeat
  | nextCase agentRuns =>
    simp only [Attempt.perform, bind_eq_ok, raiseIf_eq_ok, pure_eq_ok] at ok
    obtain ⟨_, _, rfl⟩ := ok
    apply Performed.quiet
    intro later isLater
    cases isLater
    refine ⟨rfl, rfl, fun loaded member => ?_⟩
    cases next : store.nextCase attempt.judgeRunId attempt.job agentRuns with
    | error raised =>
      rw [next] at member
      exact absurd member (by simp [Attempt.at_, Stage.after, loaded?_recorded])
    | ok found =>
      rw [next] at member
      cases found with
      | none => cases member
      | some isLoaded =>
        cases member
        exact .inr (nextCase_eq_some next)
  | authorize =>
    simp only [Attempt.perform] at ok
    split at ok
    case h_1 loaded candidate stage =>
      cases ok
      apply Performed.quiet
      intro later isLater
      cases isLater
      apply Attempt.Continues.ofAfter
      intro _ _ other member
      rw [stage]
      exact member
    case h_2 => cases ok
  | budget allowed =>
    simp only [Attempt.perform] at ok
    split at ok
    case h_1 loaded candidate stage =>
      cases ok
      apply Performed.quiet
      intro later isLater
      cases isLater
      apply Attempt.Continues.ofStage
      intro other member
      rw [stage]
      split at member
      · cases member
      · exact member
    case h_2 => cases ok
  | score reply =>
    simp only [Attempt.perform] at ok
    split at ok
    case h_1 loaded candidate stage =>
      cases ok
      apply Performed.quiet
      intro later isLater
      cases isLater
      apply Attempt.Continues.ofAfter
      intro scored _ other member
      rw [loaded?_afterScore] at member
      rw [stage]
      exact member
    case h_2 => cases ok
  | save now acknowledged =>
    simp only [Attempt.perform] at ok
    split at ok
    case h_1 loaded candidate baseline stage =>
      cases ok
      exact performed_settle fun next saved => saveCase_eq_ok stage saved
    case h_2 => cases ok
  | finish now acknowledged =>
    simp only [Attempt.perform, bind_eq_ok, raiseIf_eq_ok, pure_eq_ok] at ok
    obtain ⟨_, _, rfl⟩ := ok
    exact performed_settle fun next finished => finishIfComplete_eq_ok finished
  | fail delay now =>
    simp only [Attempt.perform] at ok
    split at ok
    case h_1 errorCode retryable stage =>
      cases ok
      cases failed : worker.fail store attempt.judgeRunId errorCode retryable delay now with
      | error raised => exact .quiet none (by simp)
      | ok next =>
        rcases fail_eq_ok failed with rfl | recorded
        · exact .quiet none (by simp)
        · exact .recorded none (by simp) recorded
    case h_2 => cases ok
  | interrupt =>
    simp only [Attempt.perform] at ok
    split at ok
    case h_1 =>
      cases ok
      exact .quiet none (by simp)
    case h_2 =>
      cases ok
      apply Performed.quiet
      intro later isLater
      cases isLater
      exact .ofRecorded _
  | crash =>
    cases ok
    exact .quiet none (by simp)

end Activities

theorem request_eq_ok {α : Type} {system next : System} {changed : Except Failure (Store × α)}
    (ok : system.request changed = .ok next) :
    ∃ result, changed = .ok result ∧ next = { system with store := result.1 } := by
  simp only [System.request, bind_eq_ok, ofRequest_eq_ok, pure_eq_ok] at ok
  obtain ⟨result, changed, rfl⟩ := ok
  exact ⟨result, changed, rfl⟩

theorem effect_of_run {deployment : Deployment} {system next : System} {label : Label}
    (ok : system.run deployment label = .ok next) : Effect deployment system label next := by
  cases label with
  | setMember principal workspaceId subject role =>
    simp only [System.run, bind_eq_ok, pure_eq_ok] at ok
    obtain ⟨memberships, _, rfl⟩ := ok
    exact .request (by simp) (.member memberships)
  | createSuite principal workspaceId body requestHash idempotencyKey suiteId caseId =>
    obtain ⟨result, created, rfl⟩ := request_eq_ok ok
    exact .request (by simp) (createSuite_requested created)
  | createRun principal workspaceId suiteId body requestHash idempotencyKey evalRunId =>
    obtain ⟨result, created, rfl⟩ := request_eq_ok ok
    exact .request (by simp) (evaluate_requested created)
  | createRunFromAgentRuns principal workspaceId suiteId body observe requestHash idempotencyKey
      evalRunId =>
      obtain ⟨result, created, rfl⟩ := request_eq_ok ok
      exact .request (by simp) (evaluate_requested created)
  | createJudge principal workspaceId evalRunId requestHash idempotencyKey judgeRunId now =>
    obtain ⟨result, created, rfl⟩ := request_eq_ok ok
    exact .request (by simp) (createJudge_requested created)
  | spend workspaceId sourceKey record =>
    simp only [System.run, bind_eq_ok, orRaise_eq_ok, pure_eq_ok, Table.insert?_eq_some] at ok
    obtain ⟨_, ⟨free, rfl⟩, rfl⟩ := ok
    exact .request (by simp) (.spent workspaceId sourceKey record free)
  | claim workerId due now acknowledged =>
    simp only [System.run, bind_eq_ok, orRaise_eq_ok, raiseIf_eq_ok, Option.isSome_iff_ne_none,
      not_not] at ok
    obtain ⟨worker, found, _, free, ok⟩ := ok
    cases due with
    | none =>
      cases ok
      exact .swept worker found free
    | some judgeRunId =>
      simp only [System.claim, Store.claimDue, bind_eq_ok, orRaise_eq_ok,
        Option.filter_eq_some_iff, pure_eq_ok] at ok
      obtain ⟨_, ⟨row, ⟨present, due⟩, _, updated, rfl⟩, rfl⟩ := ok
      obtain ⟨judgeRuns, written, rfl⟩ := Store.updateRun_eq_ok present updated
      apply Effect.claimed worker found free row judgeRuns _ present due written
      rw [deployment.named workerId worker found]
      cases acknowledged with
      | false => exact .inl rfl
      | true => exact .inr rfl
  | work workerId activity =>
    simp only [System.run, bind_eq_ok, orRaise_eq_ok, pure_eq_ok] at ok
    obtain ⟨worker, found, attempt, current, performed, performs, rfl⟩ := ok
    exact .worked worker attempt found current (performed_of_perform performs)

end Nexora.Judge
