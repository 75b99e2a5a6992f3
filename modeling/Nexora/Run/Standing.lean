import Nexora.Std.Fencing
import Nexora.Run.System

/-!
# How a run stands

A run as a fenced resource: its epoch is the attempt counter, its holder the owner of its
lease, and its outstanding tickets are the jobs it is being processed under. Nothing but
a successful claim makes a grant; every other transaction is a sequence of the moves that
leave the relation with the grants made so far undisturbed.
-/

namespace Nexora.Run

open Nexora.Std Nexora.Std.Fencing Nexora.Workspace Nexora.Tools

/-- Whether a run may be claimed, is held, or has ended. -/
def AgentRun.phase (run : AgentRun) : Phase String :=
  match run.status with
  | .running => run.lease.elim .closed fun lease => .held lease.owner
  | .queued | .waitingForApproval => .free
  | .succeeded | .failed | .cancelled => .closed

/-- A receipt that says a job is being processed, for a run and by a worker. -/
def Receipt.processes (receipt : Receipt) (runId : Uuid) (workerId : String) : Prop :=
  receipt.runId = runId ∧ receipt.status = .processing ∧ receipt.workerId = workerId

namespace Store

/-- What is stored about a run. -/
def standing (store : Store) (runId : Uuid) : Standing String Uuid where
  epoch := (store.agentRuns.find? runId).elim 0 AgentRun.attemptCount
  phase := (store.agentRuns.find? runId).elim .free AgentRun.phase
  outstanding jobId workerId :=
    ∃ receipt, store.receipts.find? jobId = some receipt ∧ receipt.processes runId workerId

/-- No receipt processes a run that did not before. -/
def NoNewReceipts (before after : Store) : Prop :=
  ∀ jobId receipt runId workerId, after.receipts.find? jobId = some receipt →
    receipt.processes runId workerId →
    ∃ earlier, before.receipts.find? jobId = some earlier ∧ earlier.processes runId workerId

/-- Whatever grants a run's standing agreed with, it still does. -/
def Undisturbed (before after : Store) : Prop :=
  ∀ runId grants, Fenced (before.standing runId) grants → Fenced (after.standing runId) grants

end Store

namespace Store.NoNewReceipts

variable {first second third : Store}

theorem of_eq (same : second.receipts = first.receipts) : NoNewReceipts first second := by
  intro jobId receipt runId workerId present processes
  exact ⟨receipt, same ▸ present, processes⟩

theorem trans (early : NoNewReceipts first second) (late : NoNewReceipts second third) :
    NoNewReceipts first third := by
  intro jobId receipt runId workerId present processes
  obtain ⟨middle, middlePresent, middleProcesses⟩ :=
    late jobId receipt runId workerId present processes
  exact early jobId middle runId workerId middlePresent middleProcesses

/-- Receipts rewritten in place, where what is processing afterwards was before. -/
theorem of_rewrite (change : Uuid → Receipt → Receipt)
    (rewritten : ∀ jobId, second.receipts.find? jobId =
      (first.receipts.find? jobId).map (change jobId))
    (kept : ∀ jobId receipt runId workerId, (change jobId receipt).processes runId workerId →
      receipt.processes runId workerId) : NoNewReceipts first second := by
  intro jobId receipt runId workerId present processes
  rw [rewritten, Option.map_eq_some_iff] at present
  obtain ⟨earlier, earlierPresent, rfl⟩ := present
  exact ⟨earlier, earlierPresent, kept jobId earlier runId workerId processes⟩

/-- Ending one job's receipt. -/
theorem closeReceipt (store : Store) (jobId : Uuid) {status : ReceiptStatus}
    (ended : status ≠ .processing) : NoNewReceipts store (store.closeReceipt jobId status) := by
  intro other receipt runId workerId present processes
  rw [Store.closeReceipt, Table.find?_modify] at present
  split at present
  · obtain ⟨earlier, _, rfl⟩ := Option.map_eq_some_iff.mp present
    exact absurd processes.2.1 ended
  · exact ⟨receipt, present, processes⟩

/-- Withdrawing every receipt of a run. -/
theorem supersedeReceipts (store : Store) (runId : Uuid) (clearLease : Bool) :
    NoNewReceipts store (store.supersedeReceipts runId clearLease) := by
  refine of_rewrite _ (fun jobId => Table.find?_mapRows store.receipts _ jobId) ?_
  intro jobId receipt other workerId processes
  split at processes
  · exact absurd processes.2.1 (by simp)
  · exact processes

/-- Writing a receipt that ends a job. -/
theorem terminalReceipt (store : Store) (job : WorkerJob) {status : ReceiptStatus}
    (workerId : String) (ended : status ≠ .processing) :
    NoNewReceipts store (store.terminalReceipt job status workerId) := by
  intro other receipt runId holder present processes
  rw [Store.terminalReceipt, Store.putReceipt, Table.find?_put_eq] at present
  split at present
  · cases present
    refine absurd processes.2.1 ?_
    split <;> exact ended
  · exact ⟨receipt, present, processes⟩

end Store.NoNewReceipts

namespace Store.Undisturbed

variable {first second third : Store}

theorem trans (early : Undisturbed first second) (late : Undisturbed second third) :
    Undisturbed first third :=
  fun runId grants fenced => late runId grants (early runId grants fenced)

/-- Moves of every run that make no grant. -/
theorem of_moves (moves : ∀ runId, Move (first.standing runId) (second.standing runId) none) :
    Undisturbed first second := by
  intro runId grants fenced
  exact fenced.move_none (moves runId)

/-- Neither a run nor a receipt changes. -/
theorem of_eq (runs : second.agentRuns = first.agentRuns)
    (receipts : second.receipts = first.receipts) : Undisturbed first second := by
  intro runId grants fenced
  rwa [standing, runs, receipts]

theorem refl (store : Store) : Undisturbed store store := of_eq rfl rfl

/-- No run changes its attempt, its holder or whether it may be claimed. -/
theorem of_kept (receipts : NoNewReceipts first second)
    (runs : ∀ runId, (second.agentRuns.find? runId).map (fun run => (run.attemptCount, run.phase)) =
      (first.agentRuns.find? runId).map fun run => (run.attemptCount, run.phase)) :
    Undisturbed first second := by
  refine of_moves fun runId => .keep ?_ ?_ ?_
  · have same := congrArg (Option.elim · 0 Prod.fst) (runs runId)
    simpa [standing, Option.elim_map, Function.comp_def] using same
  · have same := congrArg (Option.elim · Phase.free Prod.snd) (runs runId)
    simpa [standing, Option.elim_map, Function.comp_def] using same
  · rintro jobId workerId ⟨receipt, present, processes⟩
    exact receipts jobId receipt runId workerId present processes

/-- One run changes, by a move of its own, and no other. -/
theorem of_modified {runId : Uuid} {change : AgentRun → AgentRun}
    (receipts : NoNewReceipts first second)
    (modified : second.agentRuns = first.agentRuns.modify runId change)
    (move : ∀ run, first.agentRuns.find? runId = some run →
      second.agentRuns.find? runId = some (change run) →
        Move (first.standing runId) (second.standing runId) none) : Undisturbed first second := by
  refine of_moves fun other => ?_
  have tickets : (first.standing other).NoNewer (second.standing other) := by
    rintro jobId workerId ⟨receipt, present, processes⟩
    exact receipts jobId receipt other workerId present processes
  have others (kept : second.agentRuns.find? other = first.agentRuns.find? other) :
      Move (first.standing other) (second.standing other) none :=
    .keep (by simp only [standing, kept]) (by simp only [standing, kept]) tickets
  by_cases same : other = runId
  · subst same
    cases present : first.agentRuns.find? other with
    | none => exact others (by simp [modified, present])
    | some run => exact move run present (by simp [modified, present])
  · exact others (by simp [modified, same])

section Modified

variable {runId : Uuid} {change : AgentRun → AgentRun}

/-- A run changes in what its standing does not depend on. -/
theorem of_modified_kept (receipts : NoNewReceipts first second)
    (modified : second.agentRuns = first.agentRuns.modify runId change)
    (kept : ∀ run, first.agentRuns.find? runId = some run →
      (change run).attemptCount = run.attemptCount ∧ (change run).phase = run.phase) :
    Undisturbed first second := by
  refine of_modified receipts modified fun run present after => ?_
  obtain ⟨attempt, phase⟩ := kept run present
  refine .keep (by simp [standing, after, present, attempt])
    (by simp [standing, after, present, phase]) ?_
  rintro jobId workerId ⟨receipt, found, processes⟩
  exact receipts jobId receipt runId workerId found processes

/-- A run ends. -/
theorem of_closed (receipts : NoNewReceipts first second)
    (modified : second.agentRuns = first.agentRuns.modify runId change)
    (closed : ∀ run, first.agentRuns.find? runId = some run →
      (change run).attemptCount = run.attemptCount ∧ (change run).phase = .closed) :
    Undisturbed first second := by
  refine of_modified receipts modified fun run present after => ?_
  obtain ⟨attempt, phase⟩ := closed run present
  exact .close (by simp [standing, after, present, attempt]) (by simp [standing, after, phase])

/-- A run is freed by the worker that holds it, under the job it holds it by. -/
theorem of_released (jobId : Uuid) (workerId : String)
    (receipts : NoNewReceipts first second)
    (modified : second.agentRuns = first.agentRuns.modify runId change)
    (freed : ∀ run, first.agentRuns.find? runId = some run →
      (change run).attemptCount = run.attemptCount ∧ (change run).phase = .free ∧
        run.phase = .held workerId)
    (used : ∃ receipt, first.receipts.find? jobId = some receipt ∧
      receipt.processes runId workerId)
    (withdrawn : ∀ receipt, second.receipts.find? jobId = some receipt →
      receipt.status ≠ .processing) : Undisturbed first second := by
  refine of_modified receipts modified fun run present after => ?_
  obtain ⟨attempt, free, held⟩ := freed run present
  refine .release workerId jobId (by simp [standing, after, present, attempt])
    (by simp [standing, present, held]) used (by simp [standing, after, free]) ?_ ?_
  · rintro other holder ⟨receipt, found, processes⟩
    exact receipts other receipt runId holder found processes
  · rintro other ⟨receipt, found, processes⟩
    exact withdrawn receipt found processes.2.1

/-- A run is freed and every receipt it was processed under withdrawn. -/
theorem of_recovered (receipts : NoNewReceipts first second)
    (modified : second.agentRuns = first.agentRuns.modify runId change)
    (freed : ∀ run, first.agentRuns.find? runId = some run →
      (change run).attemptCount = run.attemptCount ∧ (change run).phase = .free)
    (withdrawn : ∀ jobId receipt, second.receipts.find? jobId = some receipt →
      receipt.runId = runId → receipt.status ≠ .processing) : Undisturbed first second := by
  refine of_modified receipts modified fun run present after => ?_
  obtain ⟨attempt, free⟩ := freed run present
  refine .recover (by simp [standing, after, present, attempt]) (by simp [standing, after, free]) ?_
  rintro jobId workerId ⟨receipt, found, processes⟩
  exact withdrawn jobId receipt found processes.1 processes.2.1

end Modified

end Store.Undisturbed

end Nexora.Run
