import Nexora.Judge.Scoring

/-!
# Every case is scored once

Over any run of the service: a score and its charge are added once and stay, a judge run
succeeds when every case of its suite is scored and then stays as it is, its attempts are the
leases it lost and the failures that were recorded, and whoever records something has held the
judge run ever since it claimed it.
-/

namespace Nexora.Judge

open Nexora.Std Nexora.Workspace

/-- A step scores a case of a judge run. -/
def Scores (id caseId : Uuid) (step : Transition System Label) : Prop :=
  step.before.store.scores.find? (id, caseId) ≠ step.after.store.scores.find? (id, caseId)

/-- A step charges a case of a judge run, in whichever workspace. -/
def Charges (id caseId : Uuid) (step : Transition System Label) : Prop :=
  ∃ workspaceId, step.before.store.ledger.find? (workspaceId, .judgeCase id caseId) ≠
    step.after.store.ledger.find? (workspaceId, .judgeCase id caseId)

/-- A step loses an attempt of a judge run. -/
def losesAttempt (deployment : Deployment) (id : Uuid) (step : Transition System Label) : Bool :=
  match step.before.store.judgeRuns.find? id, step.after.store.judgeRuns.find? id with
  | some row, some later => step.label.loses deployment row later
  | _, _ => false

/-- A judge run is leased to a worker. -/
def System.Leased (system : System) (id : Uuid) (workerId : String) : Prop :=
  ∃ row, system.store.judgeRuns.find? id = some row ∧ row.LeasedTo workerId

/-- A worker claimed a judge run, and it was leased to that worker ever since. -/
def HeldSinceClaim (history : List (Transition System Label)) (id : Uuid) (workerId : String) :
    Prop :=
  ∃ earlier claimed later, history = earlier ++ claimed :: later ∧
    (∃ now acknowledged, claimed.label = .claim workerId (some id) now acknowledged) ∧
    ∀ step ∈ claimed :: later, step.after.Leased id workerId

/-- Nothing was committed: each row of a judge run, a score or the ledger is as it was, and so
are the other tables. -/
structure Unchanged (before after : Store) : Prop where
  judgeRuns : ∀ id, after.judgeRuns.find? id = before.judgeRuns.find? id
  scores : after.scores = before.scores
  ledger : after.ledger = before.ledger
  others : after.memberships = before.memberships ∧ after.suites = before.suites ∧
    after.cases = before.cases ∧ after.evalRuns = before.evalRuns ∧
    after.sources = before.sources

/-- When a worker's transaction is. -/
def Activity.clock : Activity → Option Instant
  | .heartbeat now | .save now _ | .finish now _ | .fail _ now => some now
  | _ => none

/-- A worker commits nothing, or it holds the judge run under a lease that has not expired, and
has held it since it claimed it. -/
def CommitsHeld (earlier : List (Transition System Label)) (step : Transition System Label) :
    Prop :=
  ∀ workerId activity, step.label = .work workerId activity →
    Unchanged step.before.store step.after.store ∨
    ∃ attempt row now, step.before.attempts.find? workerId = some attempt ∧
      activity.clock = some now ∧
      step.before.store.judgeRuns.find? attempt.judgeRunId = some row ∧
      row.heldBy workerId now = true ∧ HeldSinceClaim earlier attempt.judgeRunId workerId

section Steps

variable {deployment : Deployment} {system next : System} {label : Label}
  {history earlier later : List (Transition System Label)} {since : Transition System Label}
  {id caseId : Uuid} {store : Store} {worker : JudgeWorker} {now : Instant} {attempt : Attempt}
  {workerId : String}

theorem Unchanged.refl (store : Store) : Unchanged store store :=
  ⟨fun _ => rfl, rfl, rfl, rfl, rfl, rfl, rfl, rfl⟩

theorem unchanged_heartbeat {judgeRunId : Uuid}
    (unheld : ∀ row, store.judgeRuns.find? judgeRunId = some row →
      row.heldBy worker.workerId now = false) :
    Unchanged store (store.heartbeat worker judgeRunId now) := by
  refine ⟨fun id => ?_, rfl, rfl, rfl, rfl, rfl, rfl, rfl⟩
  rw [Store.heartbeat, Table.find?_modify]
  split
  case isFalse => rfl
  case isTrue same =>
    rw [same]
    cases there : store.judgeRuns.find? judgeRunId with
    | none => rfl
    | some row => simp [unheld row there]

/-- A worker's transaction changes something only under its lease. -/
theorem Performed.commits {activity : Activity} {performed : Store × Option Attempt}
    (performs : Performed worker attempt store activity performed) :
    Unchanged store performed.1 ∨ ∃ row now, activity.clock = some now ∧
      store.judgeRuns.find? attempt.judgeRunId = some row ∧
      row.heldBy worker.workerId now = true := by
  cases performs with
  | quiet => exact .inl (.refl store)
  | @heartbeat now =>
    by_cases held : ∃ row, store.judgeRuns.find? attempt.judgeRunId = some row ∧
        row.heldBy worker.workerId now = true
    · obtain ⟨row, there, held⟩ := held
      exact .inr ⟨row, now, rfl, there, held⟩
    · left
      apply unchanged_heartbeat
      intro row there
      by_contra isHeld
      exact held ⟨row, there, Bool.eq_true_of_not_eq_false isHeld⟩
  | @recorded _ now _ _ _ recorded =>
    right
    cases recorded with
    | saved row _ _ _ _ owned =>
      obtain ⟨there, held⟩ := Store.owned_eq_some.mp owned
      exact ⟨row, now, rfl, there, held⟩
    | finished row _ owned =>
      obtain ⟨there, held⟩ := Store.owned_eq_some.mp owned
      exact ⟨row, now, rfl, there, held⟩
    | failed row _ _ owned =>
      obtain ⟨there, held⟩ := Store.owned_eq_some.mp owned
      exact ⟨row, now, rfl, there, held⟩

/-- A worker claims only while it processes nothing. -/
theorem Effect.free (effect : Effect deployment system label next) {due : Option Uuid}
    {acknowledged : Bool} (isClaim : label = .claim workerId due now acknowledged) :
    system.attempts.find? workerId = none := by
  cases effect with
  | request idle => exact absurd isClaim (idle workerId due now acknowledged .crash).1
  | swept worker found free =>
    cases isClaim
    exact free
  | claimed worker found free =>
    cases isClaim
    exact free
  | worked => cases isClaim

/-- What a worker is processing was leased to it ever since it claimed it, if it is now. -/
theorem leased_since_claim (runs : (machine deployment).Runs history system)
    (current : system.attempts.find? workerId = some attempt)
    (leased : system.Leased attempt.judgeRunId workerId) :
    HeldSinceClaim history attempt.judgeRunId workerId := by
  induction runs generalizing attempt with
  | initial valid =>
    rw [valid.quiet] at current
    cases current
  | @step history before label next prior transition ih =>
    have effect := effect_of_run transition
    have sound := System.sound_of_runs prior
    -- The attempt was there before the step, and so was the worker's lease.
    have extends_ : ∀ attempt, before.attempts.find? workerId = some attempt →
        next.Leased attempt.judgeRunId workerId →
        HeldSinceClaim (history ++ [⟨before, label, next⟩]) attempt.judgeRunId workerId := by
      intro attempt there leased
      obtain ⟨row, isRow, _⟩ := (sound.attempts workerId attempt there).claimed
      obtain ⟨after, present, step⟩ := effect.runStep isRow
      obtain ⟨own, isOwn, leasedOwn⟩ := leased
      rw [present] at isOwn
      cases isOwn
      rcases step.leasedTo leasedOwn with already | ⟨now, acknowledged, isClaim⟩
      · obtain ⟨earlier, claimed, later, splits, isClaim, held⟩ :=
          ih there ⟨row, isRow, already⟩
        refine ⟨earlier, claimed, later ++ [⟨before, label, next⟩], by simp [splits], isClaim, ?_⟩
        intro step member
        rcases List.mem_append.mp (List.cons_append .. ▸ member) with old | last
        · exact held step old
        · rw [List.mem_singleton.mp last]
          exact ⟨after, present, leasedOwn⟩
      · rw [effect.free isClaim] at there
        cases there
    rcases effect.processing current with there | ⟨prior, there, continues⟩ |
      ⟨_, now, acknowledged, isClaim, _⟩
    · exact extends_ attempt there leased
    · rw [continues.judgeRunId] at leased ⊢
      exact extends_ prior there leased
    · refine ⟨history, ⟨before, label, next⟩, [], rfl, ⟨now, acknowledged, isClaim⟩, ?_⟩
      intro step member
      rw [List.mem_singleton.mp member]
      exact leased

theorem commits_held (runs : (machine deployment).Runs earlier system)
    (transition : (machine deployment).Step system label next) :
    CommitsHeld earlier ⟨system, label, next⟩ := by
  intro workerId activity isWork
  have effect := effect_of_run transition
  change label = .work workerId activity at isWork
  subst isWork
  cases effect with
  | request idle => exact absurd rfl (idle workerId none 0 true activity).2
  | worked worker attempt found current performs =>
    rcases performs.commits with unchanged | ⟨row, now, clock, there, held⟩
    · exact .inl unchanged
    · rw [deployment.named workerId worker found] at held
      exact .inr ⟨attempt, row, now, current, clock, there, held,
        leased_since_claim runs current ⟨row, there, JudgeRun.leasedTo_of_heldBy held⟩⟩

/-- A case that is scored is not scored again. -/
theorem scores_once (runs : (machine deployment).Runs history system)
    (splits : history = earlier ++ since :: later) (scores : Scores id caseId since) :
    ∀ step ∈ later, ¬ Scores id caseId step := by
  have transition := (runs.split splits).2.1
  have scored : (since.after.store.scores.find? (id, caseId)).isSome = true := by
    cases before : since.before.store.scores.find? (id, caseId) with
    | some score =>
      have kept := (effect_of_run transition).grows.scores _ _ before
      exact absurd (before.trans kept.symm) scores
    | none =>
      rw [Option.isSome_iff_ne_none]
      exact fun absent => scores (before.trans absent.symm)
  apply (runs.afterwards (fun state => (state.store.scores.find? (id, caseId)).isSome = true)
    (fun step => ¬ Scores id caseId step) _ splits scored).2
  intro state label next present step
  obtain ⟨score, isScore⟩ := Option.isSome_iff_exists.mp present
  have kept := (effect_of_run step).grows.scores _ _ isScore
  exact ⟨by rw [kept]; rfl, fun again => again (isScore.trans kept.symm)⟩

/-- A case is charged in one workspace only. -/
theorem charged_in_one (sound : system.Sound) {first second : Uuid}
    {firstRecord secondRecord : SpendRecord}
    (inFirst : system.store.ledger.find? (first, .judgeCase id caseId) = some firstRecord)
    (inSecond : system.store.ledger.find? (second, .judgeCase id caseId) = some secondRecord) :
    first = second := by
  obtain ⟨row, there, isFirst⟩ := sound.store.ledger _ _ _ _ inFirst
  obtain ⟨other, isOther, isSecond⟩ := sound.store.ledger _ _ _ _ inSecond
  rw [there] at isOther
  cases isOther
  exact isFirst.symm.trans isSecond

/-- A step that charges a case finds it charged nowhere. -/
theorem uncharged_of_charges (sound : next.Sound) (grows : Grows system.store next.store)
    {workspaceId : Uuid} {record : SpendRecord}
    (already : system.store.ledger.find? (workspaceId, .judgeCase id caseId) = some record) :
    ¬ Charges id caseId ⟨system, label, next⟩ := by
  rintro ⟨other, differs⟩
  have kept := grows.ledger _ _ already
  cases after : next.store.ledger.find? (other, .judgeCase id caseId) with
  | none =>
    cases before : system.store.ledger.find? (other, .judgeCase id caseId) with
    | none => exact differs (before.trans after.symm)
    | some row => exact differs (before.trans (grows.ledger _ _ before).symm)
  | some row =>
    have same := charged_in_one sound kept after
    subst same
    exact differs (already.trans kept.symm)

/-- A case that is charged is not charged again. -/
theorem charges_once (runs : (machine deployment).Runs history system)
    (splits : history = earlier ++ since :: later) (charges : Charges id caseId since) :
    ∀ step ∈ later, ¬ Charges id caseId step := by
  obtain ⟨prior, transition, _⟩ := runs.split splits
  have sound := System.sound_of_runs (.step prior transition)
  have charged : ∃ workspaceId record,
      since.after.store.ledger.find? (workspaceId, .judgeCase id caseId) = some record := by
    obtain ⟨workspaceId, differs⟩ := charges
    cases before : since.before.store.ledger.find? (workspaceId, .judgeCase id caseId) with
    | some record =>
      exact absurd (before.trans ((effect_of_run transition).grows.ledger _ _ before).symm)
        differs
    | none =>
      have present := Option.ne_none_iff_exists'.mp fun absent =>
        differs (before.trans absent.symm)
      exact ⟨workspaceId, present⟩
  apply (runs.afterwards (fun state => state.Sound ∧ ∃ workspaceId record,
      state.store.ledger.find? (workspaceId, .judgeCase id caseId) = some record)
    (fun step => ¬ Charges id caseId step) _ splits ⟨sound, charged⟩).2
  rintro state label next ⟨soundState, workspaceId, record, already⟩ step
  have effect := effect_of_run step
  have soundNext := soundState.step effect
  exact ⟨⟨soundNext, workspaceId, record, effect.grows.ledger _ _ already⟩,
    uncharged_of_charges soundNext effect.grows already⟩

/-- An ended judge run, and its scores, stay as they are. -/
theorem ended_kept (runs : (machine deployment).Runs history system)
    (splits : history = earlier ++ since :: later) {row : JudgeRun}
    (there : since.before.store.judgeRuns.find? id = some row)
    (ended : row.status.isTerminal = true) :
    system.store.judgeRuns.find? id = some row ∧ ∀ caseId,
      system.store.scores.find? (id, caseId) = since.before.store.scores.find? (id, caseId) := by
  obtain ⟨prior, transition, _⟩ := runs.split splits
  have kept : ∀ state label next, state.Sound → (machine deployment).Step state label next →
      state.store.judgeRuns.find? id = some row →
      next.store.judgeRuns.find? id = some row ∧ ∀ caseId,
        next.store.scores.find? (id, caseId) = state.store.scores.find? (id, caseId) := by
    intro state label next sound step isRow
    have effect := effect_of_run step
    obtain ⟨after, present, rowStep⟩ := effect.runStep isRow
    have same := rowStep.terminal ended
    subst same
    refine ⟨present, fun caseId => ?_⟩
    cases scored : state.store.scores.find? (id, caseId) with
    | some score => exact effect.grows.scores _ _ scored
    | none =>
      cases new : next.store.scores.find? (id, caseId) with
      | none => rfl
      | some score =>
        rcases effect.scored sound.attempts new with ⟨earlier, there⟩ | ⟨own, isOwn, running, _⟩
        · rw [scored] at there
          cases there
        · rw [isRow] at isOwn
          cases isOwn
          rw [running] at ended
          cases ended
  have sound := System.sound_of_runs prior
  obtain ⟨present, scores⟩ := kept _ _ _ sound transition there
  have final := (runs.afterwards (fun state => state.Sound ∧
      state.store.judgeRuns.find? id = some row ∧ ∀ caseId,
        state.store.scores.find? (id, caseId) = since.before.store.scores.find? (id, caseId))
    (fun _ => True) (by
      rintro state label next ⟨soundState, isRow, same⟩ step
      obtain ⟨isLater, sameLater⟩ := kept state label next soundState step isRow
      exact ⟨⟨soundState.step (effect_of_run step), isLater,
        fun caseId => (sameLater caseId).trans (same caseId)⟩, trivial⟩)
    splits ⟨sound.step (effect_of_run transition), present, scores⟩).1
  exact final.2

/-- The attempts of a judge run are those that were lost. -/
theorem attempts_lost (runs : (machine deployment).Runs history system) (id : Uuid) :
    ((system.store.judgeRuns.find? id).map JudgeRun.attemptCount).getD 0 =
      (history.filter (losesAttempt deployment id)).length := by
  induction runs with
  | initial valid =>
    obtain ⟨_, _, store⟩ := valid.unused
    simp [store, Store.empty]
  | @step history before label next prior transition ih =>
    have effect := effect_of_run transition
    rw [List.filter_append, List.length_append, ← ih]
    cases there : before.store.judgeRuns.find? id with
    | some row =>
      obtain ⟨after, present, step⟩ := effect.runStep there
      have counted := step.attemptCount
      rw [present]
      cases lost : label.loses deployment row after <;>
        simp [counted, lost, losesAttempt, there, present]
    | none =>
      have none_lost : losesAttempt deployment id ⟨before, label, next⟩ = false := by
        simp [losesAttempt, there]
      cases present : next.store.judgeRuns.find? id with
      | none => simp [none_lost]
      | some after =>
        rcases effect.origin present with ⟨row, isRow⟩ | ⟨_, unattempted, _⟩
        · rw [there] at isRow
          cases isRow
        · simp [none_lost, unattempted]

end Steps

/-- In every run of any number of judge workers: a judge run that succeeded has one score for
every case of its suite; a case is scored at most once and charged at most once; a worker
commits only under a lease that it has held since it claimed the judge run; the attempts of a
judge run are those that were lost, leases that expired among them, and are bounded; and a
judge run that has ended never changes again. -/
theorem judge_runs_score_once (deployment : Deployment) (history : List (Transition System Label))
    (system : System) (runs : (machine deployment).Runs history system) :
    (∀ id row, system.store.judgeRuns.find? id = some row → row.status = .succeeded →
      ∃ run, system.store.evalRuns.find? row.evalRunId = some run ∧
        ∀ caseId caseRow, system.store.cases.find? caseId = some caseRow →
          caseRow.suiteId = run.suiteId →
          ∃ score, system.store.scores.select (fun key _ => key = (id, caseId)) =
            [((id, caseId), score)]) ∧
    (∀ earlier step later, history = earlier ++ step :: later →
      (∀ id caseId, Scores id caseId step → ∀ after ∈ later, ¬ Scores id caseId after) ∧
      (∀ id caseId, Charges id caseId step → ∀ after ∈ later, ¬ Charges id caseId after) ∧
      CommitsHeld earlier step ∧
      ∀ id row, step.before.store.judgeRuns.find? id = some row → row.status.isTerminal = true →
        system.store.judgeRuns.find? id = some row ∧ ∀ caseId,
          system.store.scores.find? (id, caseId) =
            step.before.store.scores.find? (id, caseId)) ∧
    ∀ id row, system.store.judgeRuns.find? id = some row →
      row.attemptCount = (history.filter (losesAttempt deployment id)).length ∧
        row.attemptCount ≤ maxJudgeAttempts := by
  have sound := System.sound_of_runs runs
  refine ⟨?_, ?_, ?_⟩
  · intro id row there succeeded
    obtain ⟨_, run, found, _⟩ := sound.store.judgeRuns id row there
    have stored := (Option.filter_eq_some_iff.mp found).1
    refine ⟨run, stored, ?_⟩
    intro caseId caseRow present isOf
    obtain ⟨suite, isSuite, workspace⟩ := sound.store.cases caseId caseRow present
    obtain ⟨own, isOwn, ownWorkspace⟩ := (sound.store.evalRuns _ run stored).1
    rw [isOf, isOwn] at isSuite
    cases isSuite
    have has : system.store.HasCase row.workspaceId row.evalRunId caseId :=
      ⟨run, caseRow, found, present, isOf, workspace.symm.trans ownWorkspace⟩
    obtain ⟨score, scored⟩ :=
      Option.isSome_iff_exists.mp (sound.store.succeeded id row there succeeded caseId has)
    exact ⟨score, Table.select_key scored⟩
  · intro earlier step later splits
    obtain ⟨prior, transition, _⟩ := runs.split splits
    exact ⟨fun id caseId => scores_once runs splits, fun id caseId => charges_once runs splits,
      commits_held prior transition, fun id row => ended_kept runs splits⟩
  · intro id row there
    have lost := attempts_lost runs id
    rw [there] at lost
    exact ⟨lost, (sound.store.judgeRuns id row there).1.limit⟩

/-! ## An example -/

def exampleOwner : Principal := ⟨"issuer", "owner"⟩

theorem exampleLease_range : 3 ≤ 30 ∧ 30 ≤ 300 := by decide

def exampleWorker (workerId : String) : JudgeWorker where
  workerId := workerId
  config := ⟨⟨"provider", "judge", "nexora-eval-judge-v1"⟩, [1], 70000⟩
  leaseSeconds := 30
  spend := none
  leaseSeconds_range := exampleLease_range

def exampleWorkers : Table String JudgeWorker :=
  .ofList [("first", exampleWorker "first"), ("second", exampleWorker "second")]

theorem exampleWorkers_named (workerId : String) (worker : JudgeWorker)
    (found : exampleWorkers.find? workerId = some worker) : worker.workerId = workerId := by
  rcases (Table.Written.put _ "first" (exampleWorker "first")).found found with
    ⟨rfl, rfl⟩ | ⟨_, found⟩
  · rfl
  · rcases (Table.Written.put _ "second" (exampleWorker "second")).found found with
      ⟨rfl, rfl⟩ | ⟨_, found⟩
    · rfl
    · cases found

theorem examplePoints_range : 3 ≤ 4 := by decide

theorem exampleRationale_length : 1 ≤ (py "clear").length ∧ (py "clear").length ≤ 1000 := by decide

def exampleScores : JudgeScores :=
  ⟨3, 3, 3, py "clear", examplePoints_range, examplePoints_range, examplePoints_range,
    exampleRationale_length⟩

def exampleDeployment : Deployment where
  workers := exampleWorkers
  validate := fun _ => some exampleScores
  named := exampleWorkers_named

def exampleCases : List (PyStr × PyStr) := [(py "one", py "first"), (py "two", py "second")]

theorem exampleCases_nonempty : exampleCases ≠ [] := by decide

theorem exampleCases_distinct : (exampleCases.map Prod.fst).Nodup := by decide

def exampleSources : List (PyStr × Uuid) := [(py "one", 21), (py "two", 22)]

theorem exampleSources_distinct : (exampleSources.map Prod.fst).Nodup := by decide

theorem exampleSources_distinctRuns : (exampleSources.map Prod.snd).Nodup := by decide

/-- The agent runs that answered the two cases. -/
def exampleAgentRuns : Table Uuid SourceRun :=
  .ofList [(21, ⟨1, exampleOwner, true, py "first", some (py "answer")⟩),
    (22, ⟨1, exampleOwner, true, py "second", some (py "answer")⟩)]

/-- A worker claims judge run 4 and scores a case of it up to its save. -/
def exampleAttempt (workerId : String) (now : Instant) : List Label :=
  [.claim workerId (some 4) now true, .work workerId (.nextCase exampleAgentRuns),
    .work workerId .authorize, .work workerId (.budget true),
    .work workerId (.score (.response "stop" 0 (some .null) 10 20 5))]

/-- The first worker's lease expires before it saves the case that the second one then scores. -/
def exampleTakeover : List Label :=
  [.createSuite exampleOwner 1
      ⟨py "suite", 1, exampleCases, exampleCases_nonempty, exampleCases_distinct⟩ 7 "suite-key" 2
      (fun caseNo => 10 + caseNo),
    .createRunFromAgentRuns exampleOwner 1 2
      ⟨none, exampleSources, exampleSources_distinct, exampleSources_distinctRuns⟩
      (fun _ => .ok ()) 8 "run-key" 3,
    .createJudge exampleOwner 1 3 9 "judge-key" 4 0] ++
  exampleAttempt "first" 0 ++ exampleAttempt "second" 40000000 ++
  [.work "second" (.save 41000000 true), .work "first" (.save 42000000 true)] ++
  exampleAttempt "first" 43000000 ++ [.work "first" (.save 44000000 true)]

def exampleOpening : System :=
  ⟨{ Store.empty with memberships := .ofList [((1, exampleOwner), .owner)] }, .empty⟩

theorem opening_exampleOpening : Opening exampleOpening :=
  ⟨rfl, ⟨_, _, rfl⟩, fun _ _ _ => rfl⟩

theorem judge_runs_score_once_takeover : ∃ history system row run,
    (machine exampleDeployment).Runs history system ∧
    system.store.judgeRuns.find? 4 = some row ∧ row.status = .succeeded ∧
    system.store.evalRuns.find? row.evalRunId = some run ∧
    (∀ caseId caseRow, system.store.cases.find? caseId = some caseRow →
      caseRow.suiteId = run.suiteId →
      ∃ score, system.store.scores.select (fun key _ => key = (4, caseId)) =
        [((4, caseId), score)]) ∧
    row.attemptCount = 1 ∧
    row.attemptCount = (history.filter (losesAttempt exampleDeployment 4)).length := by
  obtain ⟨history, system, runs, checked⟩ := Machine.exists_run_of_trace Opening
    (fun system label => system.run exampleDeployment label) exampleTakeover exampleOpening
    (fun _ system => (system.store.judgeRuns.find? 4).any fun (row : JudgeRun) =>
      decide (row.status = JudgeStatus.succeeded) && decide (row.attemptCount = 1))
    opening_exampleOpening (by decide +kernel)
  obtain ⟨row, found, stands⟩ := (Option.any_eq_true _ _).mp checked
  have succeeded : row.status = .succeeded := of_decide_eq_true (Bool.and_elim_left stands)
  have attempts : row.attemptCount = 1 := of_decide_eq_true (Bool.and_elim_right stands)
  obtain ⟨scored, _, lost⟩ := judge_runs_score_once exampleDeployment history system runs
  obtain ⟨run, evaluated, each⟩ := scored 4 row found succeeded
  exact ⟨history, system, row, run, runs, found, succeeded, evaluated, each, attempts,
    (lost 4 row found).1⟩

end Nexora.Judge
