import Nexora.Run.Successes

/-!
# What is journalled of a run

Only the executor's writes touch the journal, the retrieval snapshots and the ledger, and
each touches the rows of the run it passed the fence for. Requests, claims and the end of an
attempt leave all of them alone.
-/

namespace Nexora.Run

open Nexora.Std Nexora.Workspace Nexora.Tools Json

namespace Store

/-- What is journalled of a run is as it was. -/
structure RunJournalKept (runId : Uuid) (before after : Store) : Prop where
  modelSteps : ∀ stepNo, after.modelSteps.find? (runId, stepNo) =
    before.modelSteps.find? (runId, stepNo)
  retrieval : after.retrievals.find? runId = before.retrievals.find? runId
  agentSteps : ∀ workspaceId stepNo, after.ledger.find? (workspaceId, .agentStep runId stepNo) =
    before.ledger.find? (workspaceId, .agentStep runId stepNo)

variable {store next first second third : Store} {runId : Uuid} {context : ExecutionContext}

theorem RunJournalKept.refl (runId : Uuid) (store : Store) : RunJournalKept runId store store :=
  ⟨fun _ => rfl, rfl, fun _ _ => rfl⟩

theorem RunJournalKept.trans (early : RunJournalKept runId first second)
    (late : RunJournalKept runId second third) : RunJournalKept runId first third where
  modelSteps stepNo := (late.modelSteps stepNo).trans (early.modelSteps stepNo)
  retrieval := late.retrieval.trans early.retrieval
  agentSteps workspaceId stepNo :=
    (late.agentSteps workspaceId stepNo).trans (early.agentSteps workspaceId stepNo)

theorem JournalKept.ofRun (kept : JournalKept first second) (runId : Uuid) :
    RunJournalKept runId first second where
  modelSteps _ := by rw [kept.modelSteps]
  retrieval := by rw [kept.retrievals]
  agentSteps _ _ := by rw [kept.ledger]

/-- A ledger row prices a step of one run, or something else. -/
theorem recordSpend_runJournalKept (store : Store) (workspaceId : Uuid) {sourceKey : SourceKey}
    (record : SpendRecord) (other : ∀ stepNo, sourceKey ≠ .agentStep runId stepNo) :
    RunJournalKept runId store (store.recordSpend workspaceId sourceKey record) := by
  unfold recordSpend
  split
  · exact .refl _ _
  · refine ⟨fun _ => rfl, rfl, fun inWorkspace stepNo => ?_⟩
    rw [Table.find?_put_ne]
    intro same
    exact other stepNo (Prod.mk.inj same).2.symm

theorem insertStep_runJournalKept {stepNo : Nat} {step : ModelStep} (other : runId ≠ context.runId)
    (ok : store.insertStep context stepNo step = .ok next) : RunJournalKept runId store next := by
  simp only [insertStep, bind_eq_ok, orRaise_eq_ok, Table.insert?_eq_some, pure_eq_ok] at ok
  obtain ⟨_, ⟨_, rfl⟩, rfl⟩ := ok
  refine ⟨fun _ => ?_, rfl, fun _ _ => rfl⟩
  rw [Table.find?_put_ne]
  intro same
  exact other (Prod.mk.inj same).1

theorem recordStepCost_runJournalKept (store : Store) (stepNo : Nat) (cost : Option SpendRecord)
    (other : runId ≠ context.runId) :
    RunJournalKept runId store (store.recordStepCost context stepNo cost) := by
  unfold recordStepCost
  split
  · refine recordSpend_runJournalKept _ _ _ fun _ same => ?_
    exact other (SourceKey.agentStep.inj same).1.symm
  · exact .refl _ _

theorem restoreAnswer_runJournalKept {stepNo : Nat} {provider model cacheKey reason : String}
    {clock now : Instant} (other : runId ≠ context.runId)
    (ok : store.restoreAnswer context stepNo provider model cacheKey reason clock now = .ok next) :
    RunJournalKept runId store next := by
  simp only [restoreAnswer, bind_eq_ok] at ok
  obtain ⟨_, _, ok⟩ := ok
  split at ok
  · cases ok
    exact .refl _ _
  · exact insertStep_runJournalKept other ok

end Store

open Store

variable {platform : Platform}

/-- A write journals nothing of another run than the one it passed the fence for. -/
theorem Write.run_runJournalKept {store next : Store} {context : ExecutionContext} {entry : Write}
    {runId : Uuid} (other : runId ≠ context.runId)
    (ok : entry.run platform store context = .ok next) : RunJournalKept runId store next := by
  cases entry with
  | save stepNo step cost cached clock =>
    simp only [Write.run, Store.save, bind_eq_ok] at ok
    obtain ⟨_, _, _, _, stepped, inserted, ok⟩ := ok
    have priced := (insertStep_runJournalKept other inserted).trans
      (recordStepCost_runJournalKept stepped stepNo cost other)
    split at ok
    · cases ok
      exact priced
    · simp only [bind_eq_ok, pure_eq_ok] at ok
      obtain ⟨_, _, rfl⟩ := ok
      exact priced.trans ⟨fun _ => rfl, rfl, fun _ _ => rfl⟩
  | restoreAnswerCache => exact restoreAnswer_runJournalKept other ok
  | restoreSemanticAnswerCache => exact restoreAnswer_runJournalKept other ok
  | saveRetrieval =>
    simp only [Write.run, Store.saveRetrieval, bind_eq_ok, raiseIf_eq_ok, exists_and_left,
      exists_const] at ok
    obtain ⟨_, _, _, ok⟩ := ok
    split at ok
    · cases ok
      refine ⟨fun _ => rfl, ?_, fun _ _ => rfl⟩
      exact Table.find?_put_ne _ _ other
    · simp only [bind_eq_ok, raiseIf_eq_ok, pure_eq_ok, exists_and_left, exists_const] at ok
      exact ok.2 ▸ .refl _ _
  | recordSemanticCacheEmbedding =>
    simp only [Write.run, Store.recordSemanticCacheEmbedding, bind_eq_ok, pure_eq_ok] at ok
    obtain ⟨_, _, rfl⟩ := ok
    exact recordSpend_runJournalKept _ _ _ (by simp)

/-- An action journals something of a run only past the fence, and only of the run it passed
for. -/
theorem Action.run_runJournalKept {store after : Store} {workerId : String} {session : Session}
    {action : Action} {stage : Stage} {runId : Uuid}
    (ok : action.run platform store workerId session = some (after, stage))
    (notHeld : ¬ store.board.Held runId) : RunJournalKept runId store after := by
  cases Action.effect ok with
  | renewed => exact ⟨fun _ => rfl, rfl, fun _ _ => rfl⟩
  | wrote entry done =>
    obtain ⟨run, passed⟩ := (Write.run_onlyJournal done).2
    refine Write.run_runJournalKept ?_ done
    rintro rfl
    exact notHeld (held_of_executableRun passed)
  | embedded record => exact recordSpend_runJournalKept _ _ _ (by simp)
  | planned done =>
    obtain ⟨_, _, rfl⟩ := prepareCall_onlyCalls done
    exact ⟨fun _ => rfl, rfl, fun _ _ => rfl⟩
  | started at_ done =>
    obtain ⟨_, _, _, _, rfl⟩ := markRunning_eq_ok done
    exact ⟨fun _ => rfl, rfl, fun _ _ => rfl⟩
  | succeeded at_ done =>
    obtain ⟨_, ⟨_, rfl⟩ | ⟨_, _, _, rfl⟩⟩ := completeCallSuccess_eq_ok done
    · exact .refl _ _
    · exact ⟨fun _ => rfl, rfl, fun _ _ => rfl⟩
  | failed clocked done =>
    obtain ⟨_, _, ⟨_, rfl⟩ | ⟨_, _, _, rfl⟩⟩ := completeCallFailure_eq_ok done
    · exact .refl _ _
    · exact ⟨fun _ => rfl, rfl, fun _ _ => rfl⟩
  | unchanged => exact .refl _ _

/-- A step journals something of a run only past the fence. -/
theorem System.run_runJournalKept {system next : System} {label : Label} {runId : Uuid}
    (ok : System.run platform system label = .ok next) (notHeld : ¬ system.store.board.Held runId) :
    RunJournalKept runId system.store next.store := by
  cases label with
  | request request =>
    obtain ⟨store, done, rfl⟩ := System.run_request.mp ok
    have kept : Unwritten (fun _ => True) system.store _ := Request.run_unwritten done
    exact kept.ofRun runId
  | claim workerId job leaseSeconds now =>
    obtain ⟨_, store, handed, claimed, rfl⟩ := System.run_claim.mp ok
    have kept : Unwritten (fun _ => True) system.store _ := claim_unwritten claimed
    exact kept.ofRun runId
  | act workerId action =>
    obtain ⟨session, store, stage, _, done, rfl⟩ := System.run_act.mp ok
    exact Action.run_runJournalKept done notHeld
  | finish workerId newJobId delay now =>
    obtain ⟨session, store, handled, _, done, rfl⟩ := System.run_finish.mp ok
    exact (finish_unwritten done).ofRun runId
  | crash workerId =>
    obtain rfl := System.run_crash.mp ok
    exact .refl _ _

end Nexora.Run
