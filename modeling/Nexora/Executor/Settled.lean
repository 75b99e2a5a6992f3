import Nexora.Executor.Budget

/-!
# A journal that is settled

What an attempt journals stays, whatever attempts follow it, and an answer is the last step a
run ever has: no retry, redelivery or worker of another deployment puts a step behind it.
-/

namespace Nexora.Executor

open Nexora.Std

variable {platform : Run.Platform} {history earlier later : List (Transition System (Deployment × Label))}
  {system : System} {since : Transition System (Deployment × Label)}

/-- Since any step of a run the journal has only grown. -/
theorem extends_since (keeps : KeepsValues platform.jsonb)
    (runs : (fleet platform).Runs history system) (splits : history = earlier ++ since :: later) :
    Extends since.after.platform.store system.platform.store := by
  obtain ⟨before, ⟨same, ok⟩, steps⟩ := runs.split splits
  have reached := budgeted_of_runs keeps (before.step ⟨same, ok⟩)
  have grown := steps.invariant
    (fun state => (∀ deployment : Deployment, deployment.platform = platform →
      Sound deployment state) ∧ Extends since.after.platform.store state.platform.store)
    ?_ ⟨reached.sound, .refl _⟩
  · exact grown.2
  · rintro state ⟨deployment, label⟩ next ⟨sound, grown⟩ ⟨onPlatform, ok⟩
    have keeps : KeepsValues deployment.platform.jsonb := onPlatform ▸ keeps
    have held := sound deployment onPlatform
    have grows := (Effect.of_run keeps held.chained ok).grows
    exact ⟨fun other same => (held.step keeps ok).of_platform (same.trans onPlatform.symm),
      fun key row found => grows key row (grown key row found)⟩

/-- Every step a run has journalled is kept as it is, every one but the last asks for tools, and
once a run has been answered nothing is journalled of it any more. -/
theorem journal_settles (keeps : KeepsValues platform.jsonb)
    (runs : (fleet platform).Runs history system) (splits : history = earlier ++ since :: later)
    (runId : Uuid) :
    Extends since.after.platform.store system.platform.store ∧
    (∀ stepNo written next row, Journalled platform.jsonb system.platform.store runId stepNo written →
      system.platform.store.modelSteps.find? (runId, next) = some row → stepNo < next →
        written.toolCalls ≠ []) ∧
    (Answered platform.jsonb since.after.platform.store runId → ∀ stepNo,
      system.platform.store.modelSteps.find? (runId, stepNo) =
        since.after.platform.store.modelSteps.find? (runId, stepNo)) := by
  have grows := extends_since keeps runs splits
  have chained := (budgeted_of_runs keeps runs).chained
  obtain ⟨before, step, -⟩ := runs.split splits
  have earlierChained := (budgeted_of_runs keeps (before.step step)).chained
  refine ⟨grows, fun stepNo written next row journalled found follows =>
    chained.calls_of_followed keeps journalled found follows, ?_⟩
  rintro ⟨answer, written, journalled, final⟩ stepNo
  cases there : system.platform.store.modelSteps.find? (runId, stepNo) with
  | none =>
    cases was : since.after.platform.store.modelSteps.find? (runId, stepNo) with
    | none => rfl
    | some row => exact there.symm.trans (grows _ _ was)
  | some row =>
    have within : stepNo ≤ answer := by
      by_contra behind
      exact chained.calls_of_followed keeps (journalled.mono grows) there (by omega) final.calls
    -- The steps up to the answer were journalled when it was.
    obtain ⟨_, found, _⟩ := journalled
    obtain ⟨other, was⟩ := earlierChained.before found within
    rw [was]
    exact there.symm.trans (grows _ _ was)

/-- `journal_settles` applies to a run that is answered and then finished. -/
theorem journal_settles_answered :
    ∃ history earlier later since system, (fleet exampleDeployment.platform).Runs history system ∧
      history = earlier ++ since :: later ∧ later ≠ [] ∧
      Answered exampleDeployment.platform.jsonb since.after.platform.store 3 ∧
      ∀ stepNo, system.platform.store.modelSteps.find? (3, stepNo) =
        since.after.platform.store.modelSteps.find? (3, stepNo) := by
  let answer : ProviderResponse := ⟨some (py "answer"), [], none, ⟨.int 1, .int 1⟩, "stop"⟩
  obtain ⟨history, system, runs, checked⟩ := Machine.exists_run_of_trace Opening
    (fun system label => system.run exampleDeployment label)
    (exampleAttempt answer ++ [.platform (.finish "worker" 9 0 1)]) exampleOpening
    (fun history _ => Machine.splitsAt history 7 fun _ since later => later ≠ [] &&
      (since.after.platform.store.modelSteps.find? (3, 0)).any fun row =>
        row.response = answer.asDict)
    opening_exampleOpening (by decide +kernel)
  obtain ⟨earlier, since, later, splits, checked⟩ := Machine.exists_split checked
  simp only [Bool.and_eq_true, decide_eq_true_eq, Option.any_eq_true] at checked
  obtain ⟨follows, row, found, holds⟩ := checked
  have answered : Answered exampleDeployment.platform.jsonb since.after.platform.store 3 :=
    ⟨0, answer, ⟨row, found, holds⟩, .inl rfl, rfl, by decide⟩
  have mapped := congrArg (List.map fun transition : Transition System Label =>
    (⟨transition.before, (exampleDeployment, transition.label), transition.after⟩ :
      Transition System (Deployment × Label))) splits
  rw [List.map_append, List.map_cons] at mapped
  obtain ⟨-, -, settled⟩ := journal_settles keepsValues_id (fleet_of_runs runs) mapped 3
  exact ⟨_, _, _, _, system, fleet_of_runs runs, mapped, by simpa using follows, answered,
    settled answered⟩

end Nexora.Executor
