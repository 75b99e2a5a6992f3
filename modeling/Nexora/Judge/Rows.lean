import Nexora.Judge.Effects

/-!
# The life of a judge run

What one step may make of a row of `eval_judge_runs`. The row is taken back when its lease has
expired, claimed when it is queued, and otherwise changed only by the worker that holds it. So
an ended run stays as it is, its attempts are bounded, and a worker holds a row only since it
claimed it.
-/

namespace Nexora.Judge

open Nexora.Std Nexora.Workspace

/-- A claim takes back a row. -/
def Label.takesBack (deployment : Deployment) (row : JudgeRun) : Label → Bool
  | .claim workerId _ now _ => (deployment.workers.find? workerId).any fun worker =>
    row.isLapsed worker.config now
  | _ => false

/-- A worker records a failure. -/
def Label.isFail : Label → Bool
  | .work _ (.fail _ _) => true
  | _ => false

/-- A step loses an attempt of a judge run: its lease expired, or its failure was recorded. -/
def Label.loses (deployment : Deployment) (row later : JudgeRun) (label : Label) : Bool :=
  label.takesBack deployment row || label.isFail && later ≠ row

/-- What a step makes of a judge run. -/
inductive RunStep (deployment : Deployment) (label : Label) (id : Uuid) (row : JudgeRun) :
    JudgeRun → Prop where
  | same (current : label.takesBack deployment row = false) : RunStep deployment label id row row
  | takenBack (now : Instant) (expired : label.takesBack deployment row = true)
      (running : row.status = .running) : RunStep deployment label id row (row.takeBack now)
  | claimed {workerId now acknowledged} (worker : JudgeWorker) (prior : JudgeRun)
      (isClaim : label = .claim workerId (some id) now acknowledged)
      (owner : worker.workerId = workerId)
      (due : label.takesBack deployment row = false ∧ prior = row ∨
        label.takesBack deployment row = true ∧ row.status = .running ∧ prior = row.takeBack now)
      (queued : prior.status = .queued) :
      RunStep deployment label id row (prior.claimedBy worker now)
  | beat {workerId now} (expiresAt : Instant) (isBeat : label = .work workerId (.heartbeat now))
      (held : row.heldBy workerId now = true) :
      RunStep deployment label id row { row with lease := some ⟨workerId, expiresAt⟩ }
  | recorded {workerId activity later} (now : Instant) (isWork : label = .work workerId activity)
      (held : row.heldBy workerId now = true) (notFail : label.isFail = false)
      (ends : later = row.requeue now ∨ later = row.succeed now) :
      RunStep deployment label id row later
  | failed {workerId delay now later} (isFail : label = .work workerId (.fail delay now))
      (held : row.heldBy workerId now = true) (fails : row.Failed later) :
      RunStep deployment label id row later

/-- The attempts of a judge run are bounded, and some are left while it has not ended. -/
structure JudgeRun.Bounded (row : JudgeRun) : Prop where
  limit : row.attemptCount ≤ maxJudgeAttempts
  open_ : row.status.isTerminal = false → row.attemptCount < maxJudgeAttempts

/-- A worker's lease is on the row. -/
def JudgeRun.LeasedTo (row : JudgeRun) (workerId : String) : Prop :=
  row.status = .running ∧ ∃ lease ∈ row.lease, lease.owner = workerId

variable {workerId : String} {now : Instant}

theorem JudgeRun.running_of_heldBy {row : JudgeRun} (held : row.heldBy workerId now = true) :
    row.status = .running :=
  of_decide_eq_true ((Bool.and_eq_true _ _).mp held).1

theorem JudgeRun.leasedTo_of_heldBy {row : JudgeRun} (held : row.heldBy workerId now = true) :
    row.LeasedTo workerId := by
  obtain ⟨running, leased⟩ := (Bool.and_eq_true _ _).mp held
  obtain ⟨lease, isLease, current⟩ := (Option.any_eq_true _ _).mp leased
  exact ⟨of_decide_eq_true running, lease, isLease,
    of_decide_eq_true ((Bool.and_eq_true _ _).mp current).1⟩

namespace RunStep

variable {deployment : Deployment} {label : Label} {id : Uuid} {row later : JudgeRun}

theorem request (step : RunStep deployment label id row later) :
    later.toJudgeRequest = row.toJudgeRequest := by
  cases step with
  | same | takenBack | beat => rfl
  | claimed worker prior _ _ due _ => rcases due with ⟨_, rfl⟩ | ⟨_, _, rfl⟩ <;> rfl
  | recorded now _ _ _ ends => rcases ends with rfl | rfl <;> rfl
  | failed _ _ fails => exact fails.request

/-- An ended judge run is as it was. -/
theorem terminal (step : RunStep deployment label id row later)
    (ended : row.status.isTerminal = true) : later = row := by
  have notRunning : row.status ≠ .running := fun running => by rw [running] at ended; cases ended
  cases step with
  | same => rfl
  | takenBack _ _ running => exact absurd running notRunning
  | claimed worker prior _ _ due queued =>
    rcases due with ⟨_, rfl⟩ | ⟨_, running, _⟩
    · rw [queued] at ended
      cases ended
    · exact absurd running notRunning
  | beat _ _ held => exact absurd (JudgeRun.running_of_heldBy held) notRunning
  | recorded _ _ held => exact absurd (JudgeRun.running_of_heldBy held) notRunning
  | failed _ held => exact absurd (JudgeRun.running_of_heldBy held) notRunning

theorem bounded (step : RunStep deployment label id row later) (bounded : row.Bounded) :
    later.Bounded := by
  have takenBack : ∀ now, row.status = .running → (row.takeBack now).Bounded := by
    intro now running
    have left := bounded.open_ (by rw [running]; rfl)
    refine ⟨left, fun isOpen => ?_⟩
    simp only [JudgeRun.takeBack] at isOpen ⊢
    split at isOpen
    · cases isOpen
    · omega
  have recorded : ∀ {workerId now}, row.heldBy workerId now = true →
      row.attemptCount < maxJudgeAttempts := fun held =>
    bounded.open_ (by rw [JudgeRun.running_of_heldBy held]; rfl)
  cases step with
  | same => exact bounded
  | takenBack now _ running => exact takenBack now running
  | claimed worker prior _ _ due queued =>
    have priorBounded : prior.Bounded := by
      rcases due with ⟨_, rfl⟩ | ⟨_, running, rfl⟩
      · exact bounded
      · exact takenBack _ running
    exact ⟨priorBounded.limit, fun _ => priorBounded.open_ (by rw [queued]; rfl)⟩
  | beat _ _ held => exact ⟨bounded.limit, bounded.open_⟩
  | recorded _ _ held _ ends =>
    have left := recorded held
    rcases ends with rfl | rfl <;> exact ⟨bounded.limit, fun _ => left⟩
  | failed _ held fails =>
    have left := recorded held
    have counted := fails.attempts
    refine ⟨by omega, fun isOpen => ?_⟩
    rcases fails.status with failed | ⟨_, more⟩
    · rw [failed] at isOpen
      cases isOpen
    · rw [counted]
      exact more

/-- An attempt is counted exactly when one is lost. -/
theorem attemptCount (step : RunStep deployment label id row later) :
    later.attemptCount = row.attemptCount + if label.loses deployment row later then 1 else 0 := by
  cases step with
  | same current => simp [Label.loses, current]
  | takenBack _ expired => simp [Label.loses, expired, JudgeRun.takeBack]
  | claimed worker prior isClaim _ due _ =>
    have notFail : label.isFail = false := by rw [isClaim]; rfl
    rcases due with ⟨current, rfl⟩ | ⟨expired, _, rfl⟩
    · simp [Label.loses, current, notFail, JudgeRun.claimedBy]
    · simp [Label.loses, expired, JudgeRun.claimedBy, JudgeRun.takeBack]
  | beat _ isBeat =>
    subst isBeat
    rfl
  | recorded _ isWork _ notFail ends =>
    have current : label.takesBack deployment row = false := by rw [isWork]; rfl
    rcases ends with rfl | rfl <;>
      simp [Label.loses, current, notFail, JudgeRun.requeue, JudgeRun.succeed]
  | failed isFail _ fails =>
    have changed : later ≠ row := by
      rintro rfl
      have := fails.attempts
      omega
    have isFail : label.isFail = true := by rw [isFail]; rfl
    simp [Label.loses, isFail, changed, fails.attempts]

/-- Who a row is leased to claimed it, in this step or earlier. -/
theorem leasedTo (step : RunStep deployment label id row later) (leased : later.LeasedTo workerId) :
    row.LeasedTo workerId ∨
      ∃ now acknowledged, label = .claim workerId (some id) now acknowledged := by
  obtain ⟨running, lease, isLease, owner⟩ := leased
  cases step with
  | same => exact .inl ⟨running, lease, isLease, owner⟩
  | takenBack => cases isLease
  | claimed worker prior isClaim isOwner =>
    cases isLease
    have same := isOwner.symm.trans owner
    subst same
    exact .inr ⟨_, _, isClaim⟩
  | beat _ _ held =>
    cases isLease
    rw [← owner]
    exact .inl (JudgeRun.leasedTo_of_heldBy held)
  | recorded _ _ _ _ ends => rcases ends with rfl | rfl <;> cases isLease
  | failed _ _ fails =>
    rw [fails.released] at isLease
    cases isLease

end RunStep

section Steps

variable {deployment : Deployment} {system next : System} {label : Label}

/-- What a claim that takes rows back leaves of one. -/
theorem Store.find?_sweep (store : Store) (worker : JudgeWorker) (now : Instant) (id : Uuid) :
    (store.sweep worker now).judgeRuns.find? id = (store.judgeRuns.find? id).map fun row =>
      if row.isLapsed worker.config now then row.takeBack now else row :=
  Table.find?_mapRows store.judgeRuns _ id

theorem Store.find?_heartbeat (store : Store) (worker : JudgeWorker) (judgeRunId : Uuid)
    (now : Instant) (id : Uuid) (row : JudgeRun) (present : store.judgeRuns.find? id = some row) :
    (store.heartbeat worker judgeRunId now).judgeRuns.find? id =
      some (if id = judgeRunId ∧ row.heldBy worker.workerId now = true then
        { row with lease := some ⟨worker.workerId, now + worker.leaseSeconds * 1000000⟩ }
        else row) := by
  rw [Store.heartbeat, Table.find?_modify]
  by_cases same : id = judgeRunId
  · subst same
    by_cases held : row.heldBy worker.workerId now = true <;> simp [present, held]
  · simp [same, present]

theorem JudgeRun.running_of_isLapsed {row : JudgeRun} {config : EvaluationJudgeConfig}
    (lapsed : row.isLapsed config now = true) : row.status = .running := by
  simp only [JudgeRun.isLapsed, Bool.and_eq_true, decide_eq_true_eq] at lapsed
  exact lapsed.1.1.1

/-- What a worker records is a step of the row it holds, and of no other. -/
theorem Recorded.runStep {worker : JudgeWorker} {attempt : Attempt} {store : Store}
    {activity : Activity} {recorded : Store} (owner : worker.workerId = workerId)
    (records : Recorded worker attempt store now activity recorded) {id : Uuid} {row : JudgeRun}
    (present : store.judgeRuns.find? id = some row) :
    ∃ later, recorded.judgeRuns.find? id = some later ∧
      RunStep deployment (.work workerId activity) id row later := by
  subst owner
  cases records with
  | saved own later price judgeRuns _ owned _ written ends =>
    obtain ⟨found, held⟩ := Store.owned_eq_some.mp owned
    rcases written.kept present with ⟨same, after⟩ | ⟨_, after⟩
    · rw [same, found] at present
      cases present
      have ending : later = row.requeue now ∨ later = row.succeed now := ends.imp_right And.left
      exact ⟨later, after, .recorded now rfl held rfl ending⟩
    · exact ⟨row, after, .same rfl⟩
  | finished own judgeRuns owned _ written =>
    obtain ⟨found, held⟩ := Store.owned_eq_some.mp owned
    rcases written.kept present with ⟨same, after⟩ | ⟨_, after⟩
    · rw [same, found] at present
      cases present
      exact ⟨_, after, .recorded now rfl held rfl (.inr rfl)⟩
    · exact ⟨row, after, .same rfl⟩
  | failed own later judgeRuns owned written fails =>
    obtain ⟨found, held⟩ := Store.owned_eq_some.mp owned
    rcases written.kept present with ⟨same, after⟩ | ⟨_, after⟩
    · rw [same, found] at present
      cases present
      exact ⟨later, after, .failed rfl held fails⟩
    · exact ⟨row, after, .same rfl⟩

/-- What a request does leaves every judge run there was. -/
theorem Requested.judgeRuns {before after : Store} (requested : Requested before after) {id : Uuid}
    {row : JudgeRun} (present : before.judgeRuns.find? id = some row) :
    after.judgeRuns.find? id = some row := by
  cases requested with
  | same | member | suite | evaluated | spent => exact present
  | judged judgeRunId _ _ free =>
    have distinct : id ≠ judgeRunId := by
      rintro rfl
      rw [free] at present
      cases present
    exact (Table.find?_put_ne _ _ distinct).trans present

/-- What a step makes of a judge run that was there. -/
theorem Effect.runStep (effect : Effect deployment system label next) {id : Uuid} {row : JudgeRun}
    (present : system.store.judgeRuns.find? id = some row) :
    ∃ later, next.store.judgeRuns.find? id = some later ∧
      RunStep deployment label id row later := by
  cases effect with
  | request idle requested =>
    refine ⟨row, requested.judgeRuns present, .same ?_⟩
    cases label with
    | claim workerId due now acknowledged =>
      exact absurd rfl (idle workerId due now acknowledged .crash).1
    | _ => rfl
  | @swept workerId now acknowledged worker found free =>
    have takesBack : (Label.claim workerId none now acknowledged).takesBack deployment row =
        row.isLapsed worker.config now := by simp [Label.takesBack, found]
    have swept := Store.find?_sweep system.store worker now id
    rw [present, Option.map_some] at swept
    refine ⟨_, swept, ?_⟩
    split
    case isTrue lapsed =>
      exact .takenBack now (takesBack.trans lapsed) (JudgeRun.running_of_isLapsed lapsed)
    case isFalse current => exact .same (takesBack.trans (Bool.eq_false_of_not_eq_true current))
  | @claimed workerId now judgeRunId acknowledged worker found free prior judgeRuns _ due isDue
      written =>
      have takesBack : (Label.claim workerId (some judgeRunId) now acknowledged).takesBack
          deployment row = row.isLapsed worker.config now := by simp [Label.takesBack, found]
      have swept := Store.find?_sweep system.store worker now id
      rw [present, Option.map_some] at swept
      rcases written.kept swept with ⟨same, after⟩ | ⟨_, after⟩
      · subst same
        rw [due] at swept
        have queued : prior.status = .queued := by
          simp only [JudgeRun.isDue, Bool.and_eq_true, decide_eq_true_eq] at isDue
          exact isDue.1.1.1
        refine ⟨_, after, .claimed worker prior rfl (deployment.named _ _ found) ?_ queued⟩
        split at swept
        case isTrue lapsed =>
          exact .inr ⟨takesBack.trans lapsed, JudgeRun.running_of_isLapsed lapsed,
            Option.some.inj swept⟩
        case isFalse current =>
          exact .inl ⟨takesBack.trans (Bool.eq_false_of_not_eq_true current),
            Option.some.inj swept⟩
      · refine ⟨_, after, ?_⟩
        split
        case isTrue lapsed =>
          exact .takenBack now (takesBack.trans lapsed) (JudgeRun.running_of_isLapsed lapsed)
        case isFalse current =>
          exact .same (takesBack.trans (Bool.eq_false_of_not_eq_true current))
  | @worked workerId activity performed worker attempt found current performs =>
    have owner := deployment.named _ _ found
    cases performs with
    | quiet => exact ⟨row, present, .same rfl⟩
    | heartbeat =>
      refine ⟨_, Store.find?_heartbeat _ _ _ _ _ _ present, ?_⟩
      rw [owner]
      split
      case isTrue held => exact .beat _ rfl held.2
      case isFalse => exact .same rfl
    | recorded _ _ recorded => exact recorded.runStep owner present

end Steps

end Nexora.Judge
