import Nexora.Std.History
import Nexora.Std.Locks
import Nexora.Spend.Budget
import Nexora.Workspace.Members

/-!
# Ledger transactions

`record_spend` and `set_budget` as concurrent transactions of one workspace, statement
by statement. A statement reads what is committed when it starts and what its own
transaction wrote; what a transaction writes becomes visible when it commits and
disappears when it does not. A statement that meets a lock or an index entry of another
transaction waits: it is no step until it can finish.

Rows carry the accounting month of their timestamp. Every transaction of a run starts
in the same month.
-/

namespace Nexora.Spend

open Nexora.Std Nexora.Workspace

/-- The accounting month of a timestamp, counted from the first one. -/
abbrev Month := Nat

/-- One priced call, as it is recorded. -/
structure PricedCall where
  sourceKey : String
  category : SpendCategory
  provider : String
  model : String
  inputTokens : Nat
  outputTokens : Nat
  costMicros : Nat
  deriving DecidableEq

/-- A row of `workspace_spend_records`. -/
structure SpendRecord extends PricedCall where
  occurredIn : Month
  deriving DecidableEq

/-- A row of `workspace_spend_budgets`. -/
structure Budget extends BudgetInput where
  updatedIn : Month
  deriving DecidableEq

/-- A row of `workspace_spend_alerts`. -/
structure SpendAlert where
  id : Uuid
  periodStart : Month
  thresholdPercent : Nat
  monthlyLimitMicros : Nat
  consumedMicros : Nat
  enforcement : BudgetEnforcement
  deriving DecidableEq

/-- Rows of one workspace: those committed, those a transaction wrote, or both together.
The outbox is listed by the alert each of its rows is for. -/
structure Rows where
  records : List SpendRecord
  budget : Option Budget
  alerts : List SpendAlert
  outbox : List Uuid
  deriving DecidableEq

namespace Rows

/-- No rows. -/
def none : Rows := ⟨[], .none, [], []⟩

/-- Rows with another transaction's writes on top. -/
def merge (committed written : Rows) : Rows where
  records := committed.records ++ written.records
  budget := written.budget.or committed.budget
  alerts := committed.alerts ++ written.alerts
  outbox := committed.outbox ++ written.outbox

/-- What the month's priced calls cost together. -/
def consumed (rows : Rows) (month : Month) : Nat :=
  ((rows.records.filter fun record => record.occurredIn = month).map fun record =>
    record.costMicros).sum

/-- An alert of a month's threshold is among the rows. -/
def alerted (rows : Rows) (month : Month) (threshold : Nat) : Bool :=
  rows.alerts.any fun alert => alert.periodStart = month && alert.thresholdPercent = threshold

end Rows

/-- What a transaction is for. -/
inductive Work where
  | recordSpend (call : PricedCall)
  | setBudget (principal : Principal) (body : BudgetInput)

/-- The last statement a transaction finished. -/
inductive Phase where
  | begun
  | recorded
  | replayed
  | referenced
  | scopedTo
  | budgeted
  | locked
  | evaluated
  deriving DecidableEq, Repr

/-- A row lock: on the workspace's row, in one of two strengths, or on its budget's row. -/
inductive Lock where
  | workspaceUpdate
  | workspaceKeyShare
  | budgetRow
  deriving DecidableEq, Repr

/-- An update lock of the workspace's row excludes every lock of it, and a lock of the
budget's row another one. -/
def Lock.conflicts : Lock → Lock → Bool
  | .workspaceUpdate, .workspaceUpdate => true
  | .workspaceUpdate, .workspaceKeyShare => true
  | .workspaceKeyShare, .workspaceUpdate => true
  | .budgetRow, .budgetRow => true
  | _, _ => false

/-- A transaction in progress: its locks, what it wrote and the thresholds it raised. -/
structure Tx where
  work : Work
  phase : Phase
  locks : List Lock
  written : Rows
  fired : List Nat

/-- The workspace's committed rows and the transactions in progress. -/
structure State where
  workspaceId : Uuid
  memberships : Memberships
  month : Month
  committed : Rows
  running : Table Nat Tx

/-- Why a statement is no step. -/
inductive Refusal where
  | waits
  | outOfOrder
  | outOfRange
  | uniqueViolation
  | failed (failure : Failure)

/-- A statement of a transaction, or its end. -/
inductive Statement where
  | begin (id : Nat) (work : Work)
  | insertRecord (id : Nat)
  | referenceWorkspace (id : Nat)
  | scope (id : Nat)
  | writeBudget (id : Nat)
  | lockBudget (id : Nat)
  | raiseThresholdAlerts (id : Nat) (alertId : Nat → Uuid)
  | commit (id : Nat)
  | abort (id : Nat)

namespace State

/-- A transaction that has just finished one of the listed statements. -/
def running? (state : State) (id : Nat) (phases : List Phase) : Except Refusal Tx :=
  orRaise ((state.running.find? id).filter fun tx => tx.phase ∈ phases) .outOfOrder

/-- Store a transaction's progress. -/
def progress (state : State) (id : Nat) (tx : Tx) : State :=
  { state with running := state.running.put id tx }

/-- What a statement of a transaction sees. -/
def view (state : State) (tx : Tx) : Rows := state.committed.merge tx.written

/-- Another transaction holds a conflicting lock. -/
def isBlocked (state : State) (id : Nat) (lock : Lock) : Bool :=
  blocked Tx.locks Lock.conflicts state.running id lock

/-- Another transaction has written rows that meet a condition and not committed them. -/
def awaited (state : State) (id : Nat) (condition : Rows → Bool) : Bool :=
  state.running.any fun other tx => other ≠ id && condition tx.written

end State

/-- A transaction before its first statement. -/
def Tx.start (work : Work) : Tx where
  work := work
  phase := .begun
  locks := []
  written := .none
  fired := []

/-- The record of a transaction that records spend. -/
def Tx.call (tx : Tx) : Except Refusal PricedCall :=
  match tx.work with
  | .recordSpend call => pure call
  | .setBudget _ _ => throw .outOfOrder

/-- The decision of a transaction that sets the budget. -/
def Tx.decision (tx : Tx) : Except Refusal (Principal × BudgetInput) :=
  match tx.work with
  | .recordSpend _ => throw .outOfOrder
  | .setBudget principal body => pure (principal, body)

/-- `INSERT INTO workspace_spend_records … ON CONFLICT DO NOTHING`. A replayed unit of
work inserts nothing, and its transaction evaluates nothing. -/
def insertRecord (state : State) (id : Nat) : Except Refusal State := do
  let tx ← state.running? id [.begun]
  let call ← tx.call
  raiseIf (state.awaited id fun written =>
    written.records.any fun record => record.sourceKey = call.sourceKey) .waits
  if state.committed.records.any fun record => record.sourceKey = call.sourceKey then
    pure (state.progress id { tx with phase := .replayed })
  else
    pure (state.progress id { tx with
      phase := .recorded
      written := { Rows.none with records := [{ call with occurredIn := state.month }] } })

/-- The insert's foreign key: a key-share lock of the workspace's row. -/
def referenceWorkspace (state : State) (id : Nat) : Except Refusal State := do
  let tx ← state.running? id [.recorded]
  raiseIf (state.isBlocked id .workspaceKeyShare) .waits
  pure (state.progress id { tx with
    phase := .referenced, locks := .workspaceKeyShare :: tx.locks })

/-- `WorkspaceRepository.scoped`: an update lock of the workspace's row, held to the end. -/
def scope (state : State) (id : Nat) : Except Refusal State := do
  let tx ← state.running? id [.begun]
  let decision ← tx.decision
  raiseIf (state.isBlocked id .workspaceUpdate) .waits
  (scopedMember state.memberships decision.1 state.workspaceId .manageSpend).mapError .failed
  pure (state.progress id { tx with
    phase := .scopedTo, locks := .workspaceUpdate :: tx.locks })

/-- `INSERT INTO workspace_spend_budgets … ON CONFLICT DO UPDATE`. The foreign key's
key-share lock is implied by the update lock the transaction already holds. -/
def writeBudget (state : State) (id : Nat) : Except Refusal State := do
  let tx ← state.running? id [.scopedTo]
  let decision ← tx.decision
  raiseIf (state.isBlocked id .budgetRow || state.awaited id fun written =>
    written.budget.isSome) .waits
  pure (state.progress id { tx with
    phase := .budgeted
    locks := .budgetRow :: tx.locks
    written := { tx.written with
      budget := some { decision.2 with updatedIn := state.month } } })

/-- `SELECT … FROM workspace_spend_budgets … FOR NO KEY UPDATE`: without a budget there is
no row to lock. -/
def lockBudget (state : State) (id : Nat) : Except Refusal State := do
  let tx ← state.running? id [.referenced, .budgeted]
  if (state.view tx).budget = none then
    pure (state.progress id { tx with phase := .locked })
  else do
    raiseIf (state.isBlocked id .budgetRow) .waits
    pure (state.progress id { tx with phase := .locked, locks := .budgetRow :: tx.locks })

/-- The alerts the evaluation inserts: one for each threshold the rows have reached and
not been alerted of. -/
def raised (rows : Rows) (month : Month) (alertId : Nat → Uuid) : List SpendAlert :=
  match rows.budget with
  | none => []
  | some budget =>
    (budget.alertThresholds.filter fun threshold =>
      reached budget.monthlyLimitMicros (rows.consumed month) threshold &&
        !rows.alerted month threshold).map fun threshold =>
      { id := alertId threshold, periodStart := month, thresholdPercent := threshold,
        monthlyLimitMicros := budget.monthlyLimitMicros, consumedMicros := rows.consumed month,
        enforcement := budget.enforcement }

/-- The evaluation's arithmetic leaves the range of `bigint`. -/
def overflows (rows : Rows) (month : Month) : Bool :=
  2 ^ 63 ≤ rows.consumed month ||
    (2 ^ 63 ≤ rows.consumed month * 100 &&
      rows.budget.any fun budget => budget.alertThresholds ≠ [])

/-- `raise_threshold_alerts`' evaluation: the alerts and their outbox rows, in one
statement. -/
def raiseThresholdAlerts (state : State) (id : Nat) (alertId : Nat → Uuid) :
    Except Refusal State := do
  let tx ← state.running? id [.locked]
  let rows := state.view tx
  raiseIf (overflows rows state.month) .outOfRange
  let alerts := raised rows state.month alertId
  raiseIf (state.awaited id fun written =>
    alerts.any fun alert => written.alerted state.month alert.thresholdPercent) .waits
  raiseIf (¬ (rows.alerts ++ alerts).Pairwise fun first second => first.id ≠ second.id)
    .uniqueViolation
  pure (state.progress id { tx with
    phase := .evaluated
    written := { tx.written with
      alerts := tx.written.alerts ++ alerts
      outbox := tx.written.outbox ++ alerts.map SpendAlert.id }
    fired := alerts.map SpendAlert.thresholdPercent })

/-- A transaction whose statements are done commits. -/
def commit (state : State) (id : Nat) : Except Refusal State := do
  let tx ← state.running? id [.replayed, .evaluated]
  pure { state with committed := state.view tx, running := state.running.erase id }

/-- The state after a statement. -/
def run (state : State) : Statement → Except Refusal State
  | .begin id work => do
      raiseIf ((state.running.find? id).isSome) .outOfOrder
      pure (state.progress id (.start work))
  | .insertRecord id => insertRecord state id
  | .referenceWorkspace id => referenceWorkspace state id
  | .scope id => scope state id
  | .writeBudget id => writeBudget state id
  | .lockBudget id => lockBudget state id
  | .raiseThresholdAlerts id alertId => raiseThresholdAlerts state id alertId
  | .commit id => commit state id
  -- Any transaction may fail at any point: nothing it wrote is kept.
  | .abort id => pure { state with running := state.running.erase id }

/-- A workspace as a month opens: no transaction is in progress and nothing has been
recorded, decided or alerted this month. Earlier rows satisfy the tables' constraints. -/
structure Opening (state : State) : Prop where
  quiet : state.running = .empty
  noRecords : ∀ record ∈ state.committed.records, record.occurredIn ≠ state.month
  noDecision : ∀ budget, state.committed.budget = some budget → budget.updatedIn ≠ state.month
  noAlerts : ∀ alert ∈ state.committed.alerts, alert.periodStart ≠ state.month
  alertKeys : (state.committed.alerts.map fun alert =>
    (alert.periodStart, alert.thresholdPercent)).Nodup
  alertIds : (state.committed.alerts.map SpendAlert.id).Nodup
  outboxKeys : state.committed.outbox.Nodup
  outboxAlerts : ∀ id ∈ state.committed.outbox, id ∈ state.committed.alerts.map SpendAlert.id

/-- The transactions of one workspace in one month, in any order of their statements. -/
def machine : Machine State Statement := .ofFunction Opening run

end Nexora.Spend
