import Nexora.Judge.Rows

/-!
# Which cases are scored

Suites keep their cases, and an evaluation run counts the cases of its suite. A judge run's
scores are of cases of that suite, so once there are as many of them every case is scored.
-/

namespace Nexora.Judge

open Nexora.Std Nexora.Workspace

/-- What is kept by every step. A case that is new belongs to a suite that is new. -/
structure Grows (before after : Store) : Prop where
  suites : ∀ id row, before.suites.find? id = some row → after.suites.find? id = some row
  cases : ∀ id row, before.cases.find? id = some row → after.cases.find? id = some row
  newCases : ∀ id row, after.cases.find? id = some row → before.cases.find? id = some row ∨
    before.suites.find? row.suiteId = none
  evalRuns : ∀ id row, before.evalRuns.find? id = some row → after.evalRuns.find? id = some row
  scores : ∀ key row, before.scores.find? key = some row → after.scores.find? key = some row
  ledger : ∀ key row, before.ledger.find? key = some row → after.ledger.find? key = some row

/-- A row under another key than the one that is stored under a free key. -/
theorem find?_put_of_free {Key Row : Type} [DecidableEq Key] {table : Table Key Row}
    {key other : Key} {row new : Row} (free : table.find? key = none)
    (present : table.find? other = some row) : (table.put key new).find? other = some row := by
  have distinct : other ≠ key := by
    rintro rfl
    rw [free] at present
    cases present
  exact (Table.find?_put_ne _ _ distinct).trans present

/-- Only the judge runs may differ. -/
theorem Grows.ofJudgeRuns (store : Store) (judgeRuns : Table Uuid JudgeRun) :
    Grows store { store with judgeRuns := judgeRuns } :=
  ⟨fun _ _ => id, fun _ _ => id, fun _ _ => .inl, fun _ _ => id, fun _ _ => id, fun _ _ => id⟩

theorem Grows.refl (store : Store) : Grows store store := .ofJudgeRuns store store.judgeRuns

theorem Requested.grows {before after : Store} (requested : Requested before after) :
    Grows before after := by
  cases requested with
  | same => exact .refl before
  | member memberships =>
    exact ⟨fun _ _ => id, fun _ _ => id, fun _ _ => .inl, fun _ _ => id, fun _ _ => id,
      fun _ _ => id⟩
  | suite suiteId suite rows cases free inserted own =>
    obtain ⟨added, _⟩ := Table.insertAll?_eq_some inserted
    refine ⟨fun _ _ => find?_put_of_free free, fun id row present => ?_, fun id row present => ?_,
      fun _ _ => id, fun _ _ => id, fun _ _ => id⟩
    · exact (added id row).mpr (.inl present)
    · rcases (added id row).mp present with earlier | new
      · exact .inl earlier
      · rw [(own (id, row) new).1]
        exact .inr free
  | evaluated evalRunId run sources free =>
    exact ⟨fun _ _ => id, fun _ _ => id, fun _ _ => .inl, fun _ _ => find?_put_of_free free,
      fun _ _ => id, fun _ _ => id⟩
  | judged judgeRunId row run => exact .ofJudgeRuns before _
  | spent workspaceId sourceKey record free =>
    exact ⟨fun _ _ => id, fun _ _ => id, fun _ _ => .inl, fun _ _ => id, fun _ _ => id,
      fun _ _ => find?_put_of_free free⟩

section AddScore

variable (store : Store) (judgeRunId caseId : Uuid) (job : JudgeRun) (score : CaseScore)
  (price : Option SpendRecord)

/-- A score is added unless the case has one. -/
theorem Store.find?_addScore (key : Uuid × Uuid) :
    (store.addScore judgeRunId caseId job score price).scores.find? key =
      if key = (judgeRunId, caseId) then some ((store.scores.find? key).getD score)
      else store.scores.find? key := by
  by_cases same : key = (judgeRunId, caseId)
  · subst same
    cases scored : store.scores.find? (judgeRunId, caseId) <;> simp [Store.addScore, scored]
  · by_cases scored : (store.scores.find? (judgeRunId, caseId)).isSome <;>
      simp [Store.addScore, scored, same]

/-- A charge is added where calls are priced, unless the case has one. -/
theorem Store.ledger_addScore (key : Uuid × SourceKey) :
    (store.addScore judgeRunId caseId job score price).ledger.find? key =
      if key = (job.workspaceId, .judgeCase judgeRunId caseId) then
        (store.ledger.find? key).or price
      else store.ledger.find? key := by
  cases price with
  | none => simp [Store.addScore]
  | some record =>
    by_cases same : key = (job.workspaceId, .judgeCase judgeRunId caseId)
    · subst same
      cases charged : store.ledger.find? (job.workspaceId, .judgeCase judgeRunId caseId) <;>
        simp [Store.addScore, charged]
    · by_cases charged :
        (store.ledger.find? (job.workspaceId, .judgeCase judgeRunId caseId)).isSome <;>
          simp [Store.addScore, charged, same]

theorem grows_addScore (judgeRuns : Table Uuid JudgeRun) :
    Grows store
      { store.addScore judgeRunId caseId job score price with judgeRuns := judgeRuns } := by
  refine ⟨fun _ _ => id, fun _ _ => id, fun _ _ => .inl, fun _ _ => id, fun key row present => ?_,
    fun key row present => ?_⟩
  · have after := store.find?_addScore judgeRunId caseId job score price key
    rw [present, Option.getD_some, ite_self] at after
    exact after
  · have after := store.ledger_addScore judgeRunId caseId job score price key
    rw [present, Option.some_or, ite_self] at after
    exact after

end AddScore

variable {worker : JudgeWorker} {now : Instant} {run : EvalRun} {activity : Activity}
  {attempt : Attempt} {row : EvalCase} {workspaceId : Uuid} {recorded : Store}

theorem Recorded.grows {store : Store}
    (records : Recorded worker attempt store now activity recorded) :
    Grows store recorded := by
  cases records with
  | saved => exact grows_addScore _ _ _ _ _ _ _
  | finished _ judgeRuns => exact .ofJudgeRuns store judgeRuns
  | failed _ _ judgeRuns => exact .ofJudgeRuns store judgeRuns

theorem Effect.grows {deployment : Deployment} {system next : System} {label : Label}
    (effect : Effect deployment system label next) : Grows system.store next.store := by
  cases effect with
  | request _ requested => exact requested.grows
  | swept => exact .ofJudgeRuns system.store _
  | claimed worker found free row judgeRuns => exact .ofJudgeRuns system.store judgeRuns
  | worked worker attempt _ _ performs =>
    cases performs with
    | quiet => exact .refl _
    | heartbeat => exact .ofJudgeRuns system.store _
    | recorded _ _ recorded => exact recorded.grows

/-- What holds of the store throughout. -/
structure Sound (store : Store) : Prop where
  cases : ∀ id row, store.cases.find? id = some row →
    ∃ suite, store.suites.find? row.suiteId = some suite ∧ suite.workspaceId = row.workspaceId
  evalRuns : ∀ id run, store.evalRuns.find? id = some run →
    (∃ suite, store.suites.find? run.suiteId = some suite ∧
      suite.workspaceId = run.workspaceId) ∧
    run.caseCount = (store.casesOf run.workspaceId run.suiteId).length
  judgeRuns : ∀ id row, store.judgeRuns.find? id = some row →
    row.Bounded ∧ ∃ run, store.evalRunIn row.workspaceId row.evalRunId = some run ∧
      row.caseCount = run.caseCount
  scores : ∀ id caseId score, store.scores.find? (id, caseId) = some score →
    ∃ row, store.judgeRuns.find? id = some row ∧
      store.HasCase row.workspaceId row.evalRunId caseId
  succeeded : ∀ id row, store.judgeRuns.find? id = some row → row.status = .succeeded →
    ∀ caseId, store.HasCase row.workspaceId row.evalRunId caseId →
      (store.scores.find? (id, caseId)).isSome = true
  ledger : ∀ workspaceId id caseId record,
    store.ledger.find? (workspaceId, .judgeCase id caseId) = some record →
    ∃ row, store.judgeRuns.find? id = some row ∧ row.workspaceId = workspaceId

/-- What holds of what a worker is processing. -/
structure Attempt.Sound (attempt : Attempt) (store : Store) : Prop where
  claimed : ∃ row, store.judgeRuns.find? attempt.judgeRunId = some row ∧
    row.toJudgeRequest = attempt.job.toJudgeRequest
  loaded : ∀ loaded ∈ attempt.stage.loaded?,
    store.HasCase attempt.job.workspaceId attempt.job.evalRunId loaded.caseId

section Growth

variable {before after : Store} {evalRunId suiteId : Uuid} {suite : EvalSuite}

theorem Grows.evalRunIn (grows : Grows before after)
    (found : before.evalRunIn workspaceId evalRunId = some run) :
    after.evalRunIn workspaceId evalRunId = some run := by
  rw [Store.evalRunIn, Option.filter_eq_some_iff] at found ⊢
  exact ⟨grows.evalRuns _ _ found.1, found.2⟩

theorem Grows.hasCase (grows : Grows before after) {caseId : Uuid}
    (has : before.HasCase workspaceId evalRunId caseId) :
    after.HasCase workspaceId evalRunId caseId := by
  obtain ⟨run, row, found, present, suite, workspace⟩ := has
  exact ⟨run, row, grows.evalRunIn found, grows.cases _ _ present, suite, workspace⟩

/-- A suite that was there has the cases it had. -/
theorem Grows.case_of_after (grows : Grows before after) {caseId : Uuid}
    (there : before.suites.find? suiteId = some suite)
    (present : after.cases.find? caseId = some row) (isOf : row.suiteId = suiteId) :
    before.cases.find? caseId = some row := by
  rcases grows.newCases caseId row present with earlier | new
  · exact earlier
  · rw [isOf, there] at new
    cases new

/-- An evaluation run that was there has the cases it had. -/
theorem Grows.hasCase_of_after (grows : Grows before after) (sound : Sound before) {caseId : Uuid}
    (found : before.evalRunIn workspaceId evalRunId = some run)
    (has : after.HasCase workspaceId evalRunId caseId) :
    before.HasCase workspaceId evalRunId caseId := by
  obtain ⟨later, row, foundLater, present, isOf, workspace⟩ := has
  rw [grows.evalRunIn found] at foundLater
  cases foundLater
  have stored := (Option.filter_eq_some_iff.mp found).1
  obtain ⟨suite, there, _⟩ := (sound.evalRuns _ _ stored).1
  exact ⟨run, row, found, grows.case_of_after there present isOf, isOf, workspace⟩

theorem Store.mem_casesOf {store : Store} {caseId : Uuid} :
    (caseId, row) ∈ store.casesOf workspaceId suiteId ↔
      store.cases.find? caseId = some row ∧ row.workspaceId = workspaceId ∧
        row.suiteId = suiteId := by
  simp [Store.casesOf]

theorem Store.nodup_casesOf (store : Store) (workspaceId suiteId : Uuid) :
    ((store.casesOf workspaceId suiteId).map Prod.fst).Nodup :=
  Table.nodup_select _ _

/-- A suite that was there is as long as it was. -/
theorem Grows.length_casesOf (grows : Grows before after)
    (there : before.suites.find? suiteId = some suite) (workspaceId : Uuid) :
    (after.casesOf workspaceId suiteId).length = (before.casesOf workspaceId suiteId).length := by
  apply List.Perm.length_eq
  rw [List.perm_ext_iff_of_nodup (after.nodup_casesOf _ _).of_map (before.nodup_casesOf _ _).of_map]
  rintro ⟨caseId, row⟩
  rw [Store.mem_casesOf, Store.mem_casesOf]
  constructor
  · rintro ⟨present, workspace, isOf⟩
    exact ⟨grows.case_of_after there present isOf, workspace, isOf⟩
  · rintro ⟨present, workspace, isOf⟩
    exact ⟨grows.cases _ _ present, workspace, isOf⟩

end Growth

variable {id : Uuid} {workerId : String}

/-- A judge run with as many scores as its suite has cases has scored every case. -/
theorem scored_of_count {store : Store} {row : JudgeRun}
    (found : store.evalRunIn row.workspaceId row.evalRunId = some run)
    (counted : run.caseCount = (store.casesOf run.workspaceId run.suiteId).length)
    (same : row.caseCount = run.caseCount)
    (ofSuite : ∀ caseId score, store.scores.find? (id, caseId) = some score →
      store.HasCase row.workspaceId row.evalRunId caseId)
    (complete : store.scoreCount id = row.caseCount) {caseId : Uuid}
    (has : store.HasCase row.workspaceId row.evalRunId caseId) :
    (store.scores.find? (id, caseId)).isSome = true := by
  let listed := store.scores.select fun key _ => key.1 = id
  let scored := (listed.map Prod.fst).map Prod.snd
  let suite := (store.casesOf run.workspaceId run.suiteId).map Prod.fst
  have mem_scored : ∀ {caseId}, caseId ∈ scored ↔ ∃ score, store.scores.find? (id, caseId) =
      some score := by
    intro caseId
    simp [scored, listed]
  have mem_suite : ∀ {caseId}, caseId ∈ suite ↔
      store.HasCase row.workspaceId row.evalRunId caseId := by
    intro caseId
    simp only [suite, List.mem_map, Prod.exists, exists_and_right, exists_eq_right,
      Store.mem_casesOf]
    constructor
    · rintro ⟨caseRow, present, workspace, isOf⟩
      exact ⟨run, caseRow, found, present, isOf, workspace⟩
    · rintro ⟨other, caseRow, foundOther, present, isOf, workspace⟩
      rw [found] at foundOther
      cases foundOther
      exact ⟨caseRow, present, workspace, isOf⟩
  have distinct : scored.Nodup := by
    apply (Table.nodup_select _ _).map_on
    rintro ⟨first, firstCase⟩ firstListed ⟨second, secondCase⟩ secondListed sameCase
    simp only [List.mem_map, Prod.exists, exists_and_right, exists_eq_right, Table.mem_select,
      decide_eq_true_eq] at firstListed secondListed
    obtain ⟨_, _, rfl⟩ := firstListed
    obtain ⟨_, _, rfl⟩ := secondListed
    exact Prod.ext rfl sameCase
  have subset : scored ⊆ suite := by
    intro caseId member
    obtain ⟨score, isScore⟩ := mem_scored.mp member
    exact mem_suite.mpr (ofSuite caseId score isScore)
  have length : suite.length ≤ scored.length := by
    have count : scored.length = store.scoreCount id := by
      simp [scored, listed, Store.scoreCount]
    rw [count, complete, same, counted, List.length_map]
  have perm := (List.subperm_of_subset distinct subset).perm_of_length_le length
  obtain ⟨score, isScore⟩ := mem_scored.mp (perm.mem_iff.mpr (mem_suite.mpr has))
  rw [isScore]
  rfl

/-! ## Every step -/

section Steps

variable {deployment : Deployment} {system next : System} {label : Label} {later : JudgeRun}

/-- A row that is left by a claim that takes rows back was there. -/
theorem Store.of_find?_sweep {store : Store}
    (present : (store.sweep worker now).judgeRuns.find? id = some later) :
    ∃ row, store.judgeRuns.find? id = some row := by
  rw [Store.find?_sweep, Option.map_eq_some_iff] at present
  obtain ⟨row, there, _⟩ := present
  exact ⟨row, there⟩

/-- A worker records nothing about a judge run that is not there. -/
theorem Recorded.origin {store : Store}
    (records : Recorded worker attempt store now activity recorded)
    (present : recorded.judgeRuns.find? id = some later) :
    ∃ row, store.judgeRuns.find? id = some row := by
  cases records with
  | saved own _ _ judgeRuns _ owned _ written =>
    rcases written.found present with ⟨rfl, _⟩ | ⟨_, there⟩
    · exact ⟨own, (Store.owned_eq_some.mp owned).1⟩
    · exact ⟨later, there⟩
  | finished own judgeRuns owned _ written =>
    rcases written.found present with ⟨rfl, _⟩ | ⟨_, there⟩
    · exact ⟨own, (Store.owned_eq_some.mp owned).1⟩
    · exact ⟨later, there⟩
  | failed own _ judgeRuns owned written =>
    rcases written.found present with ⟨rfl, _⟩ | ⟨_, there⟩
    · exact ⟨own, (Store.owned_eq_some.mp owned).1⟩
    · exact ⟨later, there⟩

/-- A judge run that is new has just been asked for. -/
theorem Effect.origin (effect : Effect deployment system label next)
    (present : next.store.judgeRuns.find? id = some later) :
    (∃ row, system.store.judgeRuns.find? id = some row) ∨
      later.status = .queued ∧ later.attemptCount = 0 ∧
        ∃ run, system.store.evalRunIn later.workspaceId later.evalRunId = some run ∧
          later.caseCount = run.caseCount := by
  cases effect with
  | request _ requested =>
    cases requested with
    | same | member | suite | evaluated | spent => exact .inl ⟨later, present⟩
    | judged judgeRunId row run free evaluated counted queued unattempted =>
      rcases (Table.Written.put _ judgeRunId row).found present with ⟨_, rfl⟩ | ⟨_, there⟩
      · exact .inr ⟨queued, unattempted, run, evaluated, counted⟩
      · exact .inl ⟨later, there⟩
  | swept => exact .inl (Store.of_find?_sweep present)
  | claimed worker found free row judgeRuns _ due _ written =>
    rcases written.found present with ⟨rfl, _⟩ | ⟨_, there⟩
    · exact .inl (Store.of_find?_sweep due)
    · exact .inl (Store.of_find?_sweep there)
  | worked worker attempt _ _ performs =>
    cases performs with
    | quiet => exact .inl ⟨later, present⟩
    | @heartbeat now =>
      have beat := Table.find?_modify system.store.judgeRuns attempt.judgeRunId id fun run =>
        if run.heldBy worker.workerId now then
          { run with lease := some ⟨worker.workerId, now + worker.leaseSeconds * 1000000⟩ }
        else run
      have there : (system.store.judgeRuns.find? id).isSome = true := by
        change (system.store.judgeRuns.modify attempt.judgeRunId _).find? id = _ at present
        rw [beat] at present
        split at present
        case isTrue same =>
          obtain ⟨row, there, _⟩ := Option.map_eq_some_iff.mp present
          rw [same, there]
          rfl
        case isFalse =>
          rw [present]
          rfl
      exact .inl (Option.isSome_iff_exists.mp there)
    | recorded _ _ recorded => exact .inl (recorded.origin present)

/-- A worker records a success once every case is scored. -/
theorem Recorded.complete {store : Store}
    (records : Recorded worker attempt store now activity recorded) {row : JudgeRun}
    (there : store.judgeRuns.find? id = some row)
    (present : recorded.judgeRuns.find? id = some later) (succeeded : later.status = .succeeded) :
    row.status = .succeeded ∨ recorded.scoreCount id = row.caseCount := by
  cases records with
  | saved own _ _ judgeRuns _ owned _ written ends =>
    rcases written.found present with ⟨rfl, rfl⟩ | ⟨_, same⟩
    · rw [(Store.owned_eq_some.mp owned).1] at there
      cases there
      rcases ends with rfl | ⟨_, complete⟩
      · cases succeeded
      · exact .inr complete
    · rw [there] at same
      cases same
      exact .inl succeeded
  | finished own judgeRuns owned complete written =>
    rcases written.found present with ⟨rfl, rfl⟩ | ⟨_, same⟩
    · rw [(Store.owned_eq_some.mp owned).1] at there
      cases there
      exact .inr complete
    · rw [there] at same
      cases same
      exact .inl succeeded
  | failed own _ judgeRuns owned written fails =>
    rcases written.found present with ⟨rfl, rfl⟩ | ⟨_, same⟩
    · rcases fails.status with failed | ⟨queued, _⟩
      · rw [failed] at succeeded
        cases succeeded
      · rw [queued] at succeeded
        cases succeeded
    · rw [there] at same
      cases same
      exact .inl succeeded

theorem status_takeBack {row : JudgeRun} :
    (row.takeBack now).status ≠ .succeeded := by
  simp only [JudgeRun.takeBack]
  split <;> decide

/-- A judge run succeeds in the step that finds every case scored. -/
theorem Effect.complete (effect : Effect deployment system label next) {row : JudgeRun}
    (there : system.store.judgeRuns.find? id = some row)
    (present : next.store.judgeRuns.find? id = some later) (succeeded : later.status = .succeeded) :
    row.status = .succeeded ∨ next.store.scoreCount id = row.caseCount := by
  cases effect with
  | request _ requested =>
    have same := requested.judgeRuns there
    rw [present] at same
    cases same
    exact .inl succeeded
  | @swept _ now _ worker =>
    have swept := Store.find?_sweep system.store worker now id
    change (system.store.sweep worker now).judgeRuns.find? id = some later at present
    rw [present, there, Option.map_some, Option.some.injEq] at swept
    subst swept
    split at succeeded
    · exact absurd succeeded status_takeBack
    · exact .inl succeeded
  | claimed worker found free prior judgeRuns _ due isDue written =>
    rcases written.found present with ⟨_, rfl⟩ | ⟨_, same⟩
    · cases succeeded
    · rw [Store.find?_sweep, there, Option.map_some, Option.some.injEq] at same
      subst same
      split at succeeded
      · exact absurd succeeded status_takeBack
      · exact .inl succeeded
  | worked worker attempt _ _ performs =>
    cases performs with
    | quiet =>
      change system.store.judgeRuns.find? id = some later at present
      rw [there] at present
      cases present
      exact .inl succeeded
    | @heartbeat now =>
      have beat := Store.find?_heartbeat _ worker attempt.judgeRunId now id row there
      change (system.store.heartbeat worker attempt.judgeRunId now).judgeRuns.find? id = _
        at present
      rw [present, Option.some.injEq] at beat
      subst beat
      left
      split at succeeded <;> exact succeeded
    | recorded _ _ recorded => exact recorded.complete there present succeeded

/-- A score that is new is one of the case its worker had loaded. -/
theorem Effect.scored (effect : Effect deployment system label next)
    (attempts : ∀ workerId attempt, system.attempts.find? workerId = some attempt →
      attempt.Sound system.store) {caseId : Uuid} {score : CaseScore}
    (present : next.store.scores.find? (id, caseId) = some score) :
    (∃ score, system.store.scores.find? (id, caseId) = some score) ∨
      ∃ row, system.store.judgeRuns.find? id = some row ∧ row.status = .running ∧
        system.store.HasCase row.workspaceId row.evalRunId caseId := by
  cases effect with
  | request _ requested => cases requested <;> exact .inl ⟨score, present⟩
  | swept | claimed => exact .inl ⟨score, present⟩
  | worked worker attempt _ current performs =>
    cases performs with
    | quiet | heartbeat => exact .inl ⟨score, present⟩
    | recorded _ _ recorded =>
      cases recorded with
      | finished | failed => exact .inl ⟨score, present⟩
      | @saved _ loaded candidate baseline own _ price judgeRuns stage owned =>
        change (system.store.addScore attempt.judgeRunId loaded.caseId attempt.job
          (JudgeWorker.scoreRow attempt.job candidate baseline) price).scores.find?
            (id, caseId) = some score at present
        rw [Store.find?_addScore] at present
        split at present
        case isFalse => exact .inl ⟨score, present⟩
        case isTrue same =>
          obtain ⟨rfl, rfl⟩ := Prod.mk.injEq .. ▸ same
          obtain ⟨⟨row, claimed, request⟩, isLoaded⟩ := attempts _ _ current
          obtain ⟨isOwn, held⟩ := Store.owned_eq_some.mp owned
          have isRow := isOwn.symm.trans claimed
          cases isRow
          refine .inr ⟨_, claimed, JudgeRun.running_of_heldBy held, ?_⟩
          have workspace : own.workspaceId = attempt.job.workspaceId :=
            congrArg JudgeRequest.workspaceId request
          have evalRun : own.evalRunId = attempt.job.evalRunId :=
            congrArg JudgeRequest.evalRunId request
          rw [workspace, evalRun]
          exact isLoaded loaded (by rw [stage]; rfl)

/-- A charge of a case that is new is made in the workspace of its judge run. -/
theorem Effect.charged (effect : Effect deployment system label next)
    (attempts : ∀ workerId attempt, system.attempts.find? workerId = some attempt →
      attempt.Sound system.store) {caseId : Uuid} {record : SpendRecord}
    (present : next.store.ledger.find? (workspaceId, .judgeCase id caseId) = some record) :
    (∃ record, system.store.ledger.find? (workspaceId, .judgeCase id caseId) = some record) ∨
      ∃ row, system.store.judgeRuns.find? id = some row ∧ row.workspaceId = workspaceId := by
  cases effect with
  | request _ requested =>
    cases requested with
    | same | member | suite | evaluated | judged => exact .inl ⟨record, present⟩
    | spent => exact .inl ⟨record, (Table.find?_put_ne _ _ (by simp)).symm.trans present⟩
  | swept | claimed => exact .inl ⟨record, present⟩
  | worked worker attempt _ current performs =>
    cases performs with
    | quiet | heartbeat => exact .inl ⟨record, present⟩
    | recorded _ _ recorded =>
      cases recorded with
      | finished | failed => exact .inl ⟨record, present⟩
      | @saved _ loaded candidate baseline own _ price judgeRuns stage owned =>
        change (system.store.addScore attempt.judgeRunId loaded.caseId attempt.job
          (JudgeWorker.scoreRow attempt.job candidate baseline) price).ledger.find?
            (workspaceId, .judgeCase id caseId) = some record at present
        rw [Store.ledger_addScore] at present
        split at present
        case isFalse => exact .inl ⟨record, present⟩
        case isTrue same =>
          simp only [Prod.mk.injEq, SourceKey.judgeCase.injEq] at same
          obtain ⟨isWorkspace, isRun, _⟩ := same
          obtain ⟨row, claimed, request⟩ := (attempts _ _ current).claimed
          refine .inr ⟨row, isRun ▸ claimed, ?_⟩
          rw [isWorkspace]
          exact congrArg JudgeRequest.workspaceId request

/-- A case that is new is one of a suite of its workspace. -/
theorem Effect.inserted (effect : Effect deployment system label next)
    (present : next.store.cases.find? id = some row) :
    system.store.cases.find? id = some row ∨
      ∃ suite, next.store.suites.find? row.suiteId = some suite ∧
        suite.workspaceId = row.workspaceId := by
  cases effect with
  | request _ requested =>
    cases requested with
    | same | member | evaluated | judged | spent => exact .inl present
    | suite suiteId suite rows cases free inserted own =>
      rcases ((Table.insertAll?_eq_some inserted).1 id row).mp present with earlier | new
      · exact .inl earlier
      · obtain ⟨isOf, workspace⟩ := own (id, row) new
        exact .inr ⟨suite, isOf ▸ Table.find?_put _ _ _, workspace.symm⟩
  | swept | claimed => exact .inl present
  | worked worker attempt _ _ performs =>
    cases performs with
    | quiet | heartbeat => exact .inl present
    | recorded _ _ recorded => cases recorded <;> exact .inl present

/-- An evaluation run that is new counts the cases of its suite. -/
theorem Effect.evaluated (effect : Effect deployment system label next)
    (present : next.store.evalRuns.find? id = some run) :
    system.store.evalRuns.find? id = some run ∨
      system.store.casesOf run.workspaceId run.suiteId ≠ [] ∧
        run.caseCount = (system.store.casesOf run.workspaceId run.suiteId).length := by
  cases effect with
  | request _ requested =>
    cases requested with
    | same | member | suite | judged | spent => exact .inl present
    | evaluated evalRunId new sources free nonempty counted =>
      rcases (Table.Written.put _ evalRunId new).found present with ⟨_, rfl⟩ | ⟨_, there⟩
      · exact .inr ⟨nonempty, counted⟩
      · exact .inl there
  | swept | claimed => exact .inl present
  | worked worker attempt _ _ performs =>
    cases performs with
    | quiet | heartbeat => exact .inl present
    | recorded _ _ recorded => cases recorded <;> exact .inl present

/-- What a worker is processing after a step is what it was processing or has just claimed. -/
theorem Effect.processing (effect : Effect deployment system label next) {later : Attempt}
    (current : next.attempts.find? workerId = some later) :
    system.attempts.find? workerId = some later ∨
      (∃ attempt, system.attempts.find? workerId = some attempt ∧
        attempt.Continues later system.store) ∨
      later.stage = .claimed ∧ ∃ now acknowledged,
        label = .claim workerId (some later.judgeRunId) now acknowledged ∧
        next.store.judgeRuns.find? later.judgeRunId = some later.job := by
  cases effect with
  | request | swept => exact .inl current
  | @claimed claimer now judgeRunId acknowledged worker found free row judgeRuns attempts _ _
      written isAttempts =>
      rcases isAttempts with rfl | rfl
      · exact .inl current
      · rcases (Table.Written.put _ claimer _).found current with ⟨rfl, rfl⟩ | ⟨_, there⟩
        · exact .inr (.inr ⟨rfl, now, acknowledged, rfl, written.self⟩)
        · exact .inl there
  | @worked active activity performed worker attempt _ there performs =>
    have performedLater : ∀ out, performed.2 = out →
        (∀ next ∈ out, attempt.Continues next system.store ∨ next = attempt) →
        system.attempts.find? workerId = some later ∨
          ∃ attempt, system.attempts.find? workerId = some attempt ∧
            attempt.Continues later system.store := by
      intro out isOut continues
      cases out with
      | none =>
        simp only [System.resume, isOut] at current
        exact .inl (Table.of_find?_erase current).2
      | some goesOn =>
        simp only [System.resume, isOut] at current
        rcases (Table.Written.put _ active goesOn).found current with ⟨rfl, rfl⟩ | ⟨_, other⟩
        · rcases continues later rfl with goes | rfl
          · exact .inr ⟨attempt, there, goes⟩
          · exact .inl there
        · exact .inl other
    have kept : system.attempts.find? workerId = some later ∨
        ∃ attempt, system.attempts.find? workerId = some attempt ∧
          attempt.Continues later system.store := by
      cases performs with
      | quiet out continues =>
        exact performedLater _ rfl fun next isNext => .inl (continues next isNext)
      | heartbeat =>
        apply performedLater _ rfl
        intro next isNext
        cases isNext
        exact .inr rfl
      | recorded out continues =>
        exact performedLater _ rfl fun next isNext => .inl (continues next isNext)
    rcases kept with same | goes
    · exact .inl same
    · exact .inr (.inl goes)

end Steps

/-- What holds of the service throughout. -/
structure System.Sound (system : System) : Prop where
  store : Judge.Sound system.store
  attempts : ∀ workerId attempt, system.attempts.find? workerId = some attempt →
    attempt.Sound system.store

section Invariant

variable {deployment : Deployment} {system next : System} {label : Label}

theorem Sound.step (sound : system.Sound) (effect : Effect deployment system label next) :
    Sound next.store := by
  have grows := effect.grows
  have store := sound.store
  have judgeRun : ∀ id later, next.store.judgeRuns.find? id = some later →
      later.Bounded ∧ ∃ run, next.store.evalRunIn later.workspaceId later.evalRunId = some run ∧
        later.caseCount = run.caseCount := by
    intro id later present
    rcases effect.origin present with ⟨row, there⟩ | ⟨queued, unattempted, run, found, counted⟩
    · obtain ⟨_, same, step⟩ := effect.runStep there
      rw [present] at same
      cases same
      obtain ⟨bounded, run, found, counted⟩ := store.judgeRuns id row there
      have request := step.request
      refine ⟨step.bounded bounded, run, ?_, ?_⟩
      · rw [request]
        exact grows.evalRunIn found
      · rw [request]
        exact counted
    · have few : later.attemptCount < maxJudgeAttempts := by rw [unattempted]; decide
      exact ⟨⟨few.le, fun _ => few⟩, run, grows.evalRunIn found, counted⟩
  have score : ∀ id caseId score, next.store.scores.find? (id, caseId) = some score →
      ∃ row, next.store.judgeRuns.find? id = some row ∧
        next.store.HasCase row.workspaceId row.evalRunId caseId := by
    intro id caseId score present
    have earlier : ∃ row, system.store.judgeRuns.find? id = some row ∧
        system.store.HasCase row.workspaceId row.evalRunId caseId := by
      rcases effect.scored sound.attempts present with ⟨earlier, there⟩ | ⟨row, there, _, has⟩
      · exact store.scores id caseId earlier there
      · exact ⟨row, there, has⟩
    obtain ⟨row, there, has⟩ := earlier
    obtain ⟨later, after, step⟩ := effect.runStep there
    refine ⟨later, after, ?_⟩
    rw [step.request]
    exact grows.hasCase has
  have evalRun : ∀ id run, next.store.evalRuns.find? id = some run →
      (∃ suite, next.store.suites.find? run.suiteId = some suite ∧
        suite.workspaceId = run.workspaceId) ∧
      run.caseCount = (next.store.casesOf run.workspaceId run.suiteId).length := by
    intro id run present
    have earlier : (∃ suite, system.store.suites.find? run.suiteId = some suite ∧
        suite.workspaceId = run.workspaceId) ∧
        run.caseCount = (system.store.casesOf run.workspaceId run.suiteId).length := by
      rcases effect.evaluated present with there | ⟨nonempty, counted⟩
      · exact store.evalRuns id run there
      · obtain ⟨⟨caseId, row⟩, member⟩ := List.exists_mem_of_ne_nil _ nonempty
        obtain ⟨found, workspace, isOf⟩ := Store.mem_casesOf.mp member
        obtain ⟨suite, there, same⟩ := store.cases caseId row found
        exact ⟨⟨suite, isOf ▸ there, same.trans workspace⟩, counted⟩
    obtain ⟨⟨suite, there, workspace⟩, counted⟩ := earlier
    exact ⟨⟨suite, grows.suites _ _ there, workspace⟩,
      counted.trans (grows.length_casesOf there run.workspaceId).symm⟩
  refine ⟨?_, evalRun, judgeRun, score, ?_, ?_⟩
  · intro id row present
    rcases effect.inserted present with there | new
    · obtain ⟨suite, isSuite, workspace⟩ := store.cases id row there
      exact ⟨suite, grows.suites _ _ isSuite, workspace⟩
    · exact new
  · intro id later present succeeded caseId has
    rcases effect.origin present with ⟨row, there⟩ | ⟨queued, _⟩
    · obtain ⟨_, same, step⟩ := effect.runStep there
      rw [present] at same
      cases same
      obtain ⟨_, run, found, counted⟩ := store.judgeRuns id row there
      have request := step.request
      rcases effect.complete there present succeeded with earlier | complete
      · rw [request] at has
        have scored := store.succeeded id row there earlier caseId
          (grows.hasCase_of_after store found has)
        obtain ⟨score, isScore⟩ := Option.isSome_iff_exists.mp scored
        rw [grows.scores _ _ isScore]
        rfl
      · obtain ⟨_, laterRun, foundLater, countedLater⟩ := judgeRun id later present
        have stored := (Option.filter_eq_some_iff.mp foundLater).1
        apply scored_of_count foundLater (evalRun _ _ stored).2 countedLater _ _ has
        · intro scoredCase isScore scored
          obtain ⟨owner, isOwner, hasScored⟩ := score id scoredCase isScore scored
          rw [present] at isOwner
          cases isOwner
          exact hasScored
        · rw [complete, request]
    · rw [queued] at succeeded
      cases succeeded
  · intro workspaceId id caseId record present
    have earlier : ∃ row, system.store.judgeRuns.find? id = some row ∧
        row.workspaceId = workspaceId := by
      rcases effect.charged sound.attempts present with ⟨earlier, there⟩ | new
      · exact store.ledger workspaceId id caseId earlier there
      · exact new
    obtain ⟨row, there, workspace⟩ := earlier
    obtain ⟨later, after, step⟩ := effect.runStep there
    refine ⟨later, after, ?_⟩
    rw [step.request]
    exact workspace

theorem Attempt.Sound.step (sound : system.Sound) (effect : Effect deployment system label next)
    {later : Attempt} (current : next.attempts.find? workerId = some later) :
    later.Sound next.store := by
  have kept : ∀ id request, (∃ row, system.store.judgeRuns.find? id = some row ∧
      row.toJudgeRequest = request) →
      ∃ row, next.store.judgeRuns.find? id = some row ∧ row.toJudgeRequest = request := by
    rintro id request ⟨row, there, same⟩
    obtain ⟨after, present, step⟩ := effect.runStep there
    exact ⟨after, present, step.request.trans same⟩
  rcases effect.processing current with there | ⟨attempt, there, continues⟩ | ⟨stage, _, _, _, own⟩
  · have before := sound.attempts workerId later there
    exact ⟨kept _ _ before.claimed, fun loaded member =>
      effect.grows.hasCase (before.loaded loaded member)⟩
  · have before := sound.attempts workerId attempt there
    refine ⟨?_, fun loaded member => ?_⟩
    · rw [continues.judgeRunId, continues.job]
      exact kept _ _ before.claimed
    · rw [continues.job]
      apply effect.grows.hasCase
      rcases continues.loads loaded member with same | new
      · exact before.loaded loaded same
      · exact new
  · refine ⟨⟨later.job, own, rfl⟩, fun loaded member => ?_⟩
    rw [stage] at member
    cases member

theorem System.Sound.step (sound : system.Sound) (effect : Effect deployment system label next) :
    next.Sound :=
  ⟨Judge.Sound.step sound effect, fun _ _ current => Attempt.Sound.step sound effect current⟩

theorem System.Sound.of_opening (opening : Opening system) : system.Sound := by
  obtain ⟨memberships, ledger, store⟩ := opening.unused
  have uncharged := opening.uncharged
  refine ⟨⟨?_, ?_, ?_, ?_, ?_, ?_⟩, ?_⟩
  · simp [store, Store.empty]
  · simp [store, Store.empty]
  · simp [store, Store.empty]
  · simp [store, Store.empty]
  · simp [store, Store.empty]
  · simp [uncharged]
  · simp [opening.quiet]

theorem System.sound_of_runs {history : List (Transition System Label)}
    (runs : (machine deployment).Runs history system) : system.Sound :=
  runs.invariant System.Sound (fun _ => .of_opening) fun _ _ _ sound ran =>
    sound.step (effect_of_run ran)

end Invariant

end Nexora.Judge
