import Nexora.Run.Journal
import Nexora.Run.Lasting

/-!
# A run that has ended

No retry, redelivery, recovery or request brings a run back once it has ended, and nothing is
written of it any more: not its status, not a step of its journal or what that step cost, and
not a call that had ended.
-/

namespace Nexora.Run

open Nexora.Std Store

variable {platform : Platform} {history earlier later : List (Transition System Label)}
  {system : System} {since : Transition System Label} {runId : Uuid} {run : AgentRun}

/-- What an ended run leaves from one state of the platform to a later one. -/
structure RunSettled (runId : Uuid) (status : RunStatus) (before after : Store) : Prop where
  status : ∃ run, after.agentRuns.find? runId = some run ∧ run.status = status
  journal : RunJournalKept runId before after
  calls : ∀ callId call, before.toolCalls.find? callId = some call →
    call.status.isOpen = false → after.toolCalls.find? callId = some call

theorem RunSettled.step {status : RunStatus} {before : Store} {next : System} {label : Label}
    (settled : RunSettled runId status before system.store) (terminal : status.isTerminal = true)
    (coupled : Coupled system.store.board) (ok : System.run platform system label = .ok next) :
    RunSettled runId status before next.store where
  status := by
    obtain ⟨run, found, ended⟩ := settled.status
    obtain ⟨later, present, kept⟩ := System.run_status ok found
    exact ⟨later, present, (kept (ended ▸ terminal)).trans ended⟩
  journal := by
    refine settled.journal.trans (System.run_runJournalKept ok ?_)
    obtain ⟨run, found, ended⟩ := settled.status
    rintro ⟨held, present, running, -⟩
    cases found.symm.trans present
    rw [← ended, running] at terminal
    cases terminal
  calls callId call found ended :=
    (System.run_endedKept coupled ok).2 callId call (settled.calls callId call found ended) ended

/-- Once a run has ended it keeps its status, its journal and the calls that have ended, and no
attempt at it is started. -/
theorem ended_runs_stay (runs : (machine platform).Runs history system)
    (splits : history = earlier ++ since :: later)
    (found : since.after.store.agentRuns.find? runId = some run)
    (terminal : run.status.isTerminal = true) :
    RunSettled runId run.status since.after.store system.store ∧ claimsOf later runId = [] := by
  refine ⟨?_, ended_unstarted runs splits found terminal⟩
  obtain ⟨before, step, steps⟩ := runs.split splits
  have coupled := coupled_of_runs (before.step step)
  refine (steps.invariant (fun state => RunSettled runId run.status since.after.store state.store ∧
    Coupled state.store.board) ?_ ⟨⟨⟨run, found, rfl⟩, .refl _ _, fun _ _ there _ => there⟩,
      coupled⟩).1
  rintro state label next ⟨settled, coupled⟩ ok
  exact ⟨settled.step terminal coupled ok, (System.run_endedKept coupled ok).1⟩

/-- `ended_runs_stay` applies to a run that is cancelled and whose job is delivered all the
same. -/
theorem ended_runs_stay_cancelled : ∃ earlier since later system,
    (machine examplePlatform).Runs (earlier ++ since :: later) system ∧ later ≠ [] ∧
      RunSettled 3 .cancelled since.after.store system.store ∧ claimsOf later 3 = [] := by
  obtain ⟨history, system, runs, checked⟩ := Machine.exists_run_of_trace Opening
    (System.run examplePlatform)
    [exampleCreateRun, .request (.cancelRun exampleOwner 1 3 0), .claim "worker" (exampleJob 5) 30 1]
    exampleOpening
    (fun history _ => Machine.splitsAt history 1 fun _ since later => later ≠ [] &&
      (since.after.store.agentRuns.find? 3).map AgentRun.status = some .cancelled)
    (opening_openingWith _ _) (by decide +kernel)
  obtain ⟨earlier, since, later, splits, checked⟩ := Machine.exists_split checked
  simp only [Bool.and_eq_true, decide_eq_true_eq] at checked
  obtain ⟨run, found, cancelled⟩ := Option.map_eq_some_iff.mp checked.2
  obtain ⟨settled, none⟩ := ended_runs_stay runs splits found (by rw [cancelled]; rfl)
  exact ⟨earlier, since, later, system, splits ▸ runs, checked.1, cancelled ▸ settled, none⟩

end Nexora.Run
