import Nexora.Spend.Ledger

/-!
# Threshold alerts are neither lost nor repeated

An evaluated transaction has alerted of every threshold its rows reach. Nothing can take
that away before it commits: two evaluated transactions would both hold the budget's row,
and a transaction that writes the budget excludes, through the workspace's row, every
other one that has come as far as its evaluation. So each commit leaves the committed
rows with every alert they owe.
-/

namespace Nexora.Spend

open Nexora.Std Nexora.Workspace

/-- What identifies an alert to the database. -/
def SpendAlert.key (alert : SpendAlert) : Month × Nat :=
  (alert.periodStart, alert.thresholdPercent)

/-- Every threshold the rows reach in a month has been alerted of. -/
def Complete (rows : Rows) (month : Month) : Prop :=
  ∀ budget, rows.budget = some budget → ∀ threshold ∈ budget.alertThresholds,
    reached budget.monthlyLimitMicros (rows.consumed month) threshold = true →
      rows.alerted month threshold = true

/-- Alerts are unique, each of the month's was due when it was raised, and each has its
one outbox row. -/
structure Sound (rows : Rows) (month : Month) : Prop where
  keys : (rows.alerts.map SpendAlert.key).Nodup
  ids : (rows.alerts.map SpendAlert.id).Nodup
  due : ∀ alert ∈ rows.alerts, alert.periodStart = month →
    reached alert.monthlyLimitMicros alert.consumedMicros alert.thresholdPercent = true
  queued : ∀ alert ∈ rows.alerts, alert.periodStart = month → alert.id ∈ rows.outbox
  outboxKeys : rows.outbox.Nodup
  outboxAlerts : ∀ id ∈ rows.outbox, id ∈ rows.alerts.map SpendAlert.id

/-- Something has happened this month that evaluates the budget: a call was recorded or a
decision made. -/
def Touched (rows : Rows) (month : Month) : Prop :=
  (∃ record ∈ rows.records, record.occurredIn = month) ∨
    ∃ budget, rows.budget = some budget ∧ budget.updatedIn = month

section Rows

variable {rows : Rows} {month : Month} {alertId : Nat → Uuid} {later : Rows}

theorem alerted_iff (threshold : Nat) :
    rows.alerted month threshold = true ↔
      ∃ alert ∈ rows.alerts, alert.key = (month, threshold) := by
  simp [Rows.alerted, SpendAlert.key]

/-- What is known of an alert the evaluation raises. -/
theorem mem_raised {alert : SpendAlert} (member : alert ∈ raised rows month alertId) :
    ∃ budget, rows.budget = some budget ∧ alert.thresholdPercent ∈ budget.alertThresholds ∧
      alert.periodStart = month ∧
      reached alert.monthlyLimitMicros alert.consumedMicros alert.thresholdPercent = true ∧
      rows.alerted month alert.thresholdPercent = false := by
  unfold raised at member
  cases stored : rows.budget with
  | none =>
    rw [stored] at member
    cases member
  | some budget =>
    rw [stored] at member
    obtain ⟨threshold, selected, rfl⟩ := List.mem_map.mp member
    simp only [List.mem_filter, Bool.and_eq_true, Bool.not_eq_true'] at selected
    exact ⟨budget, rfl, selected.1, rfl, selected.2.1, selected.2.2⟩

/-- The evaluation raises each threshold once. -/
theorem raised_thresholds_nodup :
    ((raised rows month alertId).map SpendAlert.thresholdPercent).Nodup := by
  unfold raised
  cases rows.budget with
  | none => exact List.nodup_nil
  | some budget =>
    simp only [List.map_map]
    refine List.Nodup.map_on (fun _ _ _ _ same => same) (List.Nodup.filter _ ?_)
    exact budget.ascending.imp fun less => Nat.ne_of_lt less

/-- After its evaluation a transaction has alerted of every threshold its rows reach. -/
theorem raised_complete (rows : Rows) (records : later.records = rows.records)
    (budget : later.budget = rows.budget)
    (alerts : later.alerts = rows.alerts ++ raised rows month alertId) : Complete later month := by
  intro decision stored threshold declared due
  rw [budget] at stored
  have consumed : later.consumed month = rows.consumed month := by
    unfold Rows.consumed
    rw [records]
  rw [consumed] at due
  rw [alerted_iff, alerts]
  by_cases earlier : rows.alerted month threshold = true
  · obtain ⟨alert, member, key⟩ := (alerted_iff threshold).mp earlier
    exact ⟨alert, List.mem_append_left _ member, key⟩
  · refine ⟨{ id := alertId threshold, periodStart := month, thresholdPercent := threshold,
              monthlyLimitMicros := decision.monthlyLimitMicros,
              consumedMicros := rows.consumed month, enforcement := decision.enforcement },
      List.mem_append_right _ ?_, rfl⟩
    unfold raised
    rw [stored]
    refine List.mem_map.mpr ⟨threshold, ?_, rfl⟩
    simp only [List.mem_filter, declared, due, Bool.true_and, true_and, Bool.not_eq_true']
    exact Bool.of_not_eq_true earlier

/-- The evaluation keeps alerts and outbox in order. -/
theorem raised_sound (sound : Sound rows month)
    (fresh : (rows.alerts ++ raised rows month alertId).Pairwise
      fun first second => first.id ≠ second.id)
    (alerts : later.alerts = rows.alerts ++ raised rows month alertId)
    (outbox : later.outbox = rows.outbox ++ (raised rows month alertId).map SpendAlert.id) :
    Sound later month := by
  have ids : (later.alerts.map SpendAlert.id).Nodup := by
    rw [alerts]
    exact List.pairwise_map.mpr fresh
  refine ⟨?_, ids, ?_, ?_, ?_, ?_⟩
  · rw [alerts, List.map_append, List.nodup_append]
    refine ⟨sound.keys, ?_, ?_⟩
    · refine List.Nodup.of_map Prod.snd ?_
      rw [List.map_map]
      exact raised_thresholds_nodup
    · -- An alert is raised only where no row has its month and threshold.
      rintro _ old _ new rfl
      obtain ⟨earlier, member, key⟩ := List.mem_map.mp old
      obtain ⟨alert, raisedNow, same⟩ := List.mem_map.mp new
      obtain ⟨_, _, _, period, _, unalerted⟩ := mem_raised raisedNow
      have alerted : rows.alerted month alert.thresholdPercent = true := by
        refine (alerted_iff _).mpr ⟨earlier, member, ?_⟩
        rw [key, ← same, SpendAlert.key, period]
      rw [alerted] at unalerted
      cases unalerted
  · intro alert member period
    rw [alerts, List.mem_append] at member
    obtain old | new := member
    · exact sound.due alert old period
    · obtain ⟨_, _, _, _, due, _⟩ := mem_raised new
      exact due
  · intro alert member period
    rw [alerts, List.mem_append] at member
    rw [outbox, List.mem_append]
    obtain old | new := member
    · exact .inl (sound.queued alert old period)
    · exact .inr (List.mem_map_of_mem new)
  · rw [alerts, List.map_append, List.nodup_append] at ids
    rw [outbox, List.nodup_append]
    refine ⟨sound.outboxKeys, ids.2.1, ?_⟩
    intro id queued other raisedNow
    exact ids.2.2 id (sound.outboxAlerts id queued) other raisedNow
  · intro id member
    rw [outbox, List.mem_append] at member
    rw [alerts, List.map_append, List.mem_append]
    exact member.imp (sound.outboxAlerts id) fun new => new

/-- Being in order depends on alerts and outbox alone. -/
theorem Sound.of_eq (sound : Sound rows month) (alerts : later.alerts = rows.alerts)
    (outbox : later.outbox = rows.outbox) :
    Sound later month := by
  refine ⟨?_, ?_, ?_, ?_, ?_, ?_⟩
  · rw [alerts]
    exact sound.keys
  · rw [alerts]
    exact sound.ids
  · rw [alerts]
    exact sound.due
  · rw [alerts, outbox]
    exact sound.queued
  · rw [outbox]
    exact sound.outboxKeys
  · rw [alerts, outbox]
    exact sound.outboxAlerts

end Rows

/-- What a transaction in progress holds and has written, by how far it has come. -/
structure TxInv (state : State) (tx : Tx) : Prop where
  sound : Sound (state.view tx) state.month
  idle : tx.phase ∈ [.begun, .replayed] → tx.written = .none
  exclusiveScope : tx.phase ∈ [.scopedTo, .budgeted] → .workspaceUpdate ∈ tx.locks
  referenced : tx.phase ∈ [.referenced, .budgeted, .locked, .evaluated] →
    .workspaceKeyShare ∈ tx.locks ∨ .workspaceUpdate ∈ tx.locks
  decided : tx.written.budget ≠ none → .workspaceUpdate ∈ tx.locks
  budgetLocked : tx.phase ∈ [.locked, .evaluated] → (state.view tx).budget ≠ none →
    .budgetRow ∈ tx.locks
  unraised : tx.phase ≠ .evaluated → tx.written.alerts = []
  raisedUnder : tx.written.alerts ≠ [] → .budgetRow ∈ tx.locks
  queued : tx.written.outbox = tx.written.alerts.map SpendAlert.id
  complete : tx.phase = .evaluated → Complete (state.view tx) state.month

/-- What holds of a workspace between any two statements. -/
structure Inv (state : State) : Prop where
  exclusive : Exclusive Tx.locks Lock.conflicts state.running
  txs : ∀ id tx, state.running.find? id = some tx → TxInv state tx
  sound : Sound state.committed state.month
  owed : Complete state.committed state.month ∨ ¬ Touched state.committed state.month

theorem Lock.conflicts_symmetric (first second : Lock) :
    first.conflicts second = second.conflicts first := by
  cases first <;> cases second <;> rfl

@[simp]
theorem running?_eq_ok (state : State) (id : Nat) (phases : List Phase) (tx : Tx) :
    state.running? id phases = .ok tx ↔ state.running.find? id = some tx ∧ tx.phase ∈ phases := by
  simp [State.running?, Option.filter_eq_some_iff]

section Steps

variable {state next : State} {id other : Nat} {tx changed : Tx} {otherTx : Tx}

/-- A transaction's own invariant does not depend on the others in progress. -/
theorem TxInv.progress (held : TxInv state otherTx) :
    TxInv (state.progress id changed) otherTx :=
  ⟨held.sound, held.idle, held.exclusiveScope, held.referenced, held.decided, held.budgetLocked,
    held.unraised, held.raisedUnder, held.queued, held.complete⟩

/-- A statement that writes only to its own transaction. -/
theorem Inv.progress (inv : Inv state) (changedInv : TxInv state changed)
    (exclusive : Exclusive Tx.locks Lock.conflicts (state.running.put id changed)) :
    Inv (state.progress id changed) where
  exclusive := exclusive
  txs other otherTx present := by
    unfold State.progress at present
    rw [Table.find?_put_eq] at present
    split at present
    · rw [Option.some.injEq] at present
      exact present ▸ changedInv.progress
    · exact (inv.txs other otherTx present).progress
  sound := inv.sound
  owed := inv.owed

/-- Rows a transaction has not added alerts to are in order when the committed ones are. -/
theorem Inv.view_sound (inv : Inv state) (alerts : tx.written.alerts = [])
    (queued : tx.written.outbox = tx.written.alerts.map SpendAlert.id) :
    Sound (state.view tx) state.month := by
  refine inv.sound.of_eq ?_ ?_
  · simp [State.view, Rows.merge, alerts]
  · simp [State.view, Rows.merge, queued, alerts]

theorem begin_inv {work : Work} (inv : Inv state) :
    Inv (state.progress id (.start work)) := by
  refine inv.progress ?_ (inv.exclusive.put_unlocked Lock.conflicts_symmetric rfl)
  refine ⟨inv.view_sound rfl rfl, fun _ => rfl, ?_, ?_, ?_, ?_, fun _ => rfl, ?_, rfl, ?_⟩ <;>
    simp [Tx.start, Rows.none]

theorem insertRecord_inv (inv : Inv state) (ok : insertRecord state id = .ok next) :
    Inv next := by
  simp only [insertRecord, bind_eq_ok, running?_eq_ok, raiseIf_eq_ok] at ok
  obtain ⟨tx, ⟨present, phase⟩, call, _, _, _, ok⟩ := ok
  simp only [List.mem_singleton] at phase
  have held := inv.txs id tx present
  have unwritten := held.idle (by simp [phase])
  have exclusive : ∀ changed : Tx, changed.locks = tx.locks →
      Exclusive Tx.locks Lock.conflicts (state.running.put id changed) := fun changed same =>
    inv.exclusive.put_subset Lock.conflicts_symmetric present (by rw [same]; exact List.Subset.refl _)
  split at ok
  · rw [pure_eq_ok] at ok
    subst ok
    refine inv.progress ?_ (exclusive _ rfl)
    refine ⟨held.sound, fun _ => unwritten, ?_, ?_, held.decided, ?_, ?_, held.raisedUnder,
      held.queued, ?_⟩ <;> simp [unwritten, Rows.none]
  · rw [pure_eq_ok] at ok
    subst ok
    refine inv.progress ?_ (exclusive _ rfl)
    refine ⟨inv.view_sound rfl rfl, ?_, ?_, ?_, ?_, ?_, ?_, ?_, rfl, ?_⟩ <;> simp [Rows.none]

theorem referenceWorkspace_inv (inv : Inv state)
    (ok : referenceWorkspace state id = .ok next) : Inv next := by
  simp only [referenceWorkspace, bind_eq_ok, running?_eq_ok, raiseIf_eq_ok, pure_eq_ok] at ok
  obtain ⟨tx, ⟨present, phase⟩, _, granted, rfl⟩ := ok
  simp only [List.mem_singleton] at phase
  have held := inv.txs id tx present
  refine inv.progress ?_
    (inv.exclusive.put_acquired Lock.conflicts_symmetric present rfl granted)
  refine ⟨held.sound, by simp, by simp, by simp, fun decided => ?_, by simp,
    fun _ => held.unraised (by simp [phase]), fun raised => ?_, held.queued, by simp⟩
  · exact List.mem_cons_of_mem _ (held.decided decided)
  · exact List.mem_cons_of_mem _ (held.raisedUnder raised)

theorem scope_inv (inv : Inv state) (ok : scope state id = .ok next) : Inv next := by
  simp only [scope, bind_eq_ok, running?_eq_ok, raiseIf_eq_ok, pure_eq_ok] at ok
  obtain ⟨tx, ⟨present, phase⟩, _, _, _, granted, _, _, rfl⟩ := ok
  simp only [List.mem_singleton] at phase
  have held := inv.txs id tx present
  refine inv.progress ?_
    (inv.exclusive.put_acquired Lock.conflicts_symmetric present rfl granted)
  refine ⟨held.sound, by simp, by simp, by simp, by simp, by simp,
    fun _ => held.unraised (by simp [phase]), fun raised => ?_, held.queued, by simp⟩
  exact List.mem_cons_of_mem _ (held.raisedUnder raised)

theorem writeBudget_inv (inv : Inv state) (ok : writeBudget state id = .ok next) : Inv next := by
  simp only [writeBudget, bind_eq_ok, running?_eq_ok, raiseIf_eq_ok, Bool.or_eq_true, not_or,
    pure_eq_ok] at ok
  obtain ⟨tx, ⟨present, phase⟩, decision, _, _, ⟨granted, _⟩, rfl⟩ := ok
  simp only [List.mem_singleton] at phase
  have held := inv.txs id tx present
  have unraised := held.unraised (by simp [phase])
  have scopeLock := held.exclusiveScope (by simp [phase])
  refine inv.progress ?_
    (inv.exclusive.put_acquired Lock.conflicts_symmetric present rfl granted)
  exact ⟨inv.view_sound unraised held.queued, by simp, fun _ => List.mem_cons_of_mem _ scopeLock,
    fun _ => .inr (List.mem_cons_of_mem _ scopeLock), fun _ => List.mem_cons_of_mem _ scopeLock,
    by simp, fun _ => unraised, fun _ => List.mem_cons_self, held.queued, by simp⟩

theorem lockBudget_inv (inv : Inv state) (ok : lockBudget state id = .ok next) : Inv next := by
  simp only [lockBudget, bind_eq_ok, running?_eq_ok] at ok
  obtain ⟨tx, ⟨present, phase⟩, ok⟩ := ok
  simp only [List.mem_cons, List.not_mem_nil, or_false] at phase
  have held := inv.txs id tx present
  have unraised := held.unraised (by obtain is | is := phase <;> simp [is])
  have referenced := held.referenced (by obtain is | is := phase <;> simp [is])
  split at ok
  · rename_i without
    rw [pure_eq_ok] at ok
    subst ok
    refine inv.progress ?_ (inv.exclusive.put_subset Lock.conflicts_symmetric present
      (List.Subset.refl _))
    exact ⟨held.sound, by simp, by simp, fun _ => referenced, held.decided,
      fun _ stored => absurd without stored, fun _ => unraised, held.raisedUnder, held.queued,
      by simp⟩
  · simp only [bind_eq_ok, raiseIf_eq_ok, pure_eq_ok] at ok
    obtain ⟨_, granted, rfl⟩ := ok
    refine inv.progress ?_
      (inv.exclusive.put_acquired Lock.conflicts_symmetric present rfl granted)
    exact ⟨held.sound, by simp, by simp, fun _ => referenced.imp (List.mem_cons_of_mem _)
      (List.mem_cons_of_mem _), fun decided => List.mem_cons_of_mem _ (held.decided decided),
      fun _ _ => List.mem_cons_self, fun _ => unraised, fun _ => List.mem_cons_self, held.queued,
      by simp⟩

theorem raiseThresholdAlerts_inv {alertId : Nat → Uuid} (inv : Inv state)
    (ok : raiseThresholdAlerts state id alertId = .ok next) : Inv next := by
  simp only [raiseThresholdAlerts, bind_eq_ok, running?_eq_ok, raiseIf_eq_ok, not_not,
    pure_eq_ok] at ok
  obtain ⟨tx, ⟨present, phase⟩, _, _, _, _, _, fresh, rfl⟩ := ok
  simp only [List.mem_singleton] at phase
  have held := inv.txs id tx present
  have unraised := held.unraised (by simp [phase])
  refine inv.progress ?_ (inv.exclusive.put_subset Lock.conflicts_symmetric present
    (List.Subset.refl _))
  refine ⟨?_, by simp, by simp, fun _ => held.referenced (by simp [phase]), held.decided,
    fun _ => held.budgetLocked (by simp [phase]), by simp, ?_, ?_, fun _ => ?_⟩
  · exact raised_sound held.sound fresh (List.append_assoc _ _ _).symm
      (List.append_assoc _ _ _).symm
  · -- Alerts are raised only against a budget, whose row is locked by now.
    intro nonempty
    rw [unraised, List.nil_append] at nonempty
    obtain ⟨alert, member⟩ := List.exists_mem_of_ne_nil _ nonempty
    obtain ⟨budget, stored, _⟩ := mem_raised member
    exact held.budgetLocked (by simp [phase]) (by rw [stored]; simp)
  · simp [held.queued]
  · exact raised_complete (state.view tx) rfl rfl (List.append_assoc _ _ _).symm

/-- Dropping a transaction drops what it wrote, and nothing else. -/
theorem erase_inv (inv : Inv state) (id : Nat) :
    Inv { state with running := state.running.erase id } where
  exclusive := inv.exclusive.erase id
  txs other otherTx present := by
    rw [Table.find?_erase] at present
    split at present
    · cases present
    · obtain ⟨_, _, _, _, _, _, _, _, _, _⟩ := inv.txs other otherTx present
      constructor <;> assumption
  sound := inv.sound
  owed := inv.owed

/-- Of two transactions that reference the workspace neither has decided a budget. -/
theorem Inv.undecided (inv : Inv state) (distinct : other ≠ id)
    (present : state.running.find? id = some tx)
    (otherPresent : state.running.find? other = some otherTx)
    (references : otherTx.phase ∈ [.locked, .evaluated]) : tx.written.budget = none := by
  by_contra decided
  have update := (inv.txs id tx present).decided decided
  have referenced := (inv.txs other otherTx otherPresent).referenced (by
    simp only [List.mem_cons, List.not_mem_nil, or_false] at references
    obtain is | is := references <;> simp [is])
  obtain keyShare | otherUpdate := referenced
  · cases inv.exclusive other id otherTx tx distinct otherPresent present _ keyShare _ update
  · cases inv.exclusive other id otherTx tx distinct otherPresent present _ otherUpdate _ update

/-- Two transactions do not both hold the budget's row. -/
theorem Inv.oneEvaluator (inv : Inv state) (distinct : other ≠ id)
    (present : state.running.find? id = some tx)
    (otherPresent : state.running.find? other = some otherTx) (held : .budgetRow ∈ tx.locks) :
    .budgetRow ∉ otherTx.locks := by
  intro otherHeld
  cases inv.exclusive other id otherTx tx distinct otherPresent present _ otherHeld _ held

/-- A commit leaves every other transaction in progress as it was. -/
theorem commit_other (inv : Inv state) (distinct : other ≠ id)
    (present : state.running.find? id = some tx) (evaluated : tx.phase = .evaluated)
    (otherPresent : state.running.find? other = some otherTx) :
    TxInv { state with committed := state.view tx, running := state.running.erase id }
      otherTx := by
  have held := inv.txs id tx present
  have otherHeld := inv.txs other otherTx otherPresent
  have exclusion := inv.oneEvaluator distinct present otherPresent
  have budgetKept : otherTx.phase ∈ [.locked, .evaluated] →
      ((state.view tx).merge otherTx.written).budget = (state.view otherTx).budget := by
    intro references
    simp [State.view, Rows.merge, inv.undecided distinct present otherPresent references]
  refine ⟨?_, otherHeld.idle, otherHeld.exclusiveScope, otherHeld.referenced, otherHeld.decided,
    ?_, otherHeld.unraised, otherHeld.raisedUnder, otherHeld.queued, ?_⟩
  · by_cases raisedNone : otherTx.written.alerts = []
    · -- The other has raised nothing: what it sees of alerts is what was just committed.
      refine held.sound.of_eq ?_ ?_
      · simp [State.view, Rows.merge, raisedNone]
      · simp [State.view, Rows.merge, otherHeld.queued, raisedNone]
    · -- The other holds the budget's row, so the committed one raised nothing.
      have none : tx.written.alerts = [] := by
        by_contra raisedSome
        exact exclusion (held.raisedUnder raisedSome) (otherHeld.raisedUnder raisedNone)
      refine otherHeld.sound.of_eq ?_ ?_
      · simp [State.view, Rows.merge, none]
      · simp [State.view, Rows.merge, held.queued, none]
  · intro references stored
    refine otherHeld.budgetLocked references ?_
    rw [← budgetKept references]
    exact stored
  · intro otherEvaluated budget stored
    -- Both are evaluated, so with a budget they would both hold its row.
    have references : otherTx.phase ∈ [Phase.locked, .evaluated] := by simp [otherEvaluated]
    have otherStored : (state.view otherTx).budget = some budget :=
      (budgetKept references).symm.trans stored
    have undecided := inv.undecided distinct.symm otherPresent present (by simp [evaluated])
    have seen : (state.view tx).budget = some budget := by
      simpa [State.view, Rows.merge, undecided] using stored
    refine absurd (otherHeld.budgetLocked references (by rw [otherStored]; simp)) ?_
    exact exclusion (held.budgetLocked (by simp [evaluated]) (by rw [seen]; simp))

theorem commit_inv (inv : Inv state) (ok : commit state id = .ok next) : Inv next := by
  simp only [commit, bind_eq_ok, running?_eq_ok, pure_eq_ok] at ok
  obtain ⟨tx, ⟨present, phase⟩, rfl⟩ := ok
  have held := inv.txs id tx present
  simp only [List.mem_cons, List.not_mem_nil, or_false] at phase
  obtain replayed | evaluated := phase
  · have same : state.view tx = state.committed := by
      simp [State.view, Rows.merge, held.idle (by simp [replayed]), Rows.none]
    rw [same]
    exact erase_inv inv id
  · refine ⟨inv.exclusive.erase id, ?_, held.sound, .inl (held.complete evaluated)⟩
    intro other otherTx otherPresent
    rw [Table.find?_erase] at otherPresent
    split at otherPresent
    · cases otherPresent
    · rename_i distinct
      exact commit_other inv distinct present evaluated otherPresent

theorem run_inv (statement : Statement) (inv : Inv state) (ok : run state statement = .ok next) :
    Inv next := by
  cases statement with
  | «begin» id work =>
    simp only [run, bind_eq_ok, pure_eq_ok] at ok
    obtain ⟨_, _, rfl⟩ := ok
    exact begin_inv inv
  | insertRecord id => exact insertRecord_inv inv ok
  | referenceWorkspace id => exact referenceWorkspace_inv inv ok
  | scope id => exact scope_inv inv ok
  | writeBudget id => exact writeBudget_inv inv ok
  | lockBudget id => exact lockBudget_inv inv ok
  | raiseThresholdAlerts id alertId => exact raiseThresholdAlerts_inv inv ok
  | commit id => exact commit_inv inv ok
  | abort id =>
    simp only [run, pure_eq_ok] at ok
    subst ok
    exact erase_inv inv id

end Steps

theorem opening_inv {state : State} (opening : Opening state) : Inv state where
  exclusive := by
    rw [opening.quiet]
    exact Exclusive.empty
  txs id tx present := by
    rw [opening.quiet] at present
    simp at present
  sound :=
    { keys := opening.alertKeys
      ids := opening.alertIds
      due := fun alert member period => absurd period (opening.noAlerts alert member)
      queued := fun alert member period => absurd period (opening.noAlerts alert member)
      outboxKeys := opening.outboxKeys
      outboxAlerts := opening.outboxAlerts }
  owed := by
    refine .inr ?_
    rintro (⟨record, member, month⟩ | ⟨budget, stored, month⟩)
    · exact opening.noRecords record member month
    · exact opening.noDecision budget stored month

theorem runs_inv {history : List (Transition State Statement)} {state : State}
    (runs : machine.Runs history state) : Inv state :=
  runs.invariant Inv (fun _ => opening_inv) fun _ statement _ inv step => run_inv statement inv step

/-- Before anything is recorded this month, nothing is consumed. -/
theorem consumed_untouched {rows : Rows} {month : Month} (untouched : ¬ Touched rows month) :
    rows.consumed month = 0 := by
  have none : rows.records.filter (fun record => record.occurredIn = month) = [] := by
    rw [List.filter_eq_nil_iff]
    intro record member same
    exact untouched (.inl ⟨record, member, of_decide_eq_true same⟩)
  rw [Rows.consumed, none]
  rfl

/-- In every state any interleaving reaches, each threshold of the committed budget that
the committed spend has reached has exactly one alert and that alert exactly one outbox
row, once the month's first call is recorded or decision made, and from the start under a
limit other than zero. Every alert of the month was due by the amounts it records. -/
theorem threshold_alerts_exact (history : List (Transition State Statement)) (state : State)
    (runs : machine.Runs history state) :
    (∀ budget, state.committed.budget = some budget → ∀ threshold ∈ budget.alertThresholds,
      threshold * budget.monthlyLimitMicros ≤ state.committed.consumed state.month * 100 →
      0 < budget.monthlyLimitMicros ∨ Touched state.committed state.month →
        state.committed.alerts.countP (fun alert => alert.key = (state.month, threshold)) = 1 ∧
          ∀ alert ∈ state.committed.alerts, alert.key = (state.month, threshold) →
            state.committed.outbox.count alert.id = 1) ∧
      ∀ alert ∈ state.committed.alerts, alert.periodStart = state.month →
        alert.thresholdPercent * alert.monthlyLimitMicros ≤ alert.consumedMicros * 100 := by
  have inv := runs_inv runs
  refine ⟨?_, fun alert member period => of_decide_eq_true (inv.sound.due alert member period)⟩
  intro budget stored threshold declared due live
  have reachedNow : reached budget.monthlyLimitMicros (state.committed.consumed state.month)
      threshold = true := decide_eq_true due
  have alerted : state.committed.alerted state.month threshold = true := by
    obtain complete | untouched := inv.owed
    · exact complete budget stored threshold declared reachedNow
    · rw [consumed_untouched untouched,
        reached_zero (budget.percentages threshold declared).1] at reachedNow
      obtain positive | touched := live
      · omega
      · exact absurd touched untouched
  constructor
  · obtain ⟨alert, member, key⟩ := (alerted_iff threshold).mp alerted
    have listed : (state.month, threshold) ∈ state.committed.alerts.map SpendAlert.key :=
      List.mem_map.mpr ⟨alert, member, key⟩
    have once := List.count_eq_one_of_mem inv.sound.keys listed
    rw [List.count, List.countP_map] at once
    rw [← once]
    exact List.countP_congr fun other _ => by simp
  · intro alert member key
    exact List.count_eq_one_of_mem inv.sound.outboxKeys
      (inv.sound.queued alert member (congrArg Prod.fst key))

/-- A priced agent step. -/
def exampleCall (sourceKey : String) (costMicros : Nat) : PricedCall where
  sourceKey := sourceKey
  category := .agentRun
  provider := "openai"
  model := "gpt"
  inputTokens := 10
  outputTokens := 10
  costMicros := costMicros

/-- A workspace at the start of month 1, with a call and a budget of month 0 that alerts
at 80 percent. -/
def openingWorkspace (limit : Nat) (bounded : limit ≤ maxLimitMicros) : State where
  workspaceId := 7
  memberships := Table.empty
  month := 1
  committed :=
    { records := [{ exampleCall "old" 5 with occurredIn := 0 }]
      budget := some
        { monthlyLimitMicros := limit, enforcement := .enforce, alertThresholds := [80],
          limitBounded := bounded, ascending := by simp, atMostFive := by decide,
          percentages := by simp, updatedIn := 0 }
      alerts := []
      outbox := [] }
  running := Table.empty

/-- That workspace is as a month opens. -/
theorem openingWorkspace_opening (limit : Nat) (bounded : limit ≤ maxLimitMicros) :
    Opening (openingWorkspace limit bounded) := by
  constructor <;> simp [openingWorkspace]

/-- Two calls of 50 and 40 micros, recorded side by side: neither reaches 80 alone. -/
def twoCalls : List Statement :=
  [.begin 1 (.recordSpend (exampleCall "one" 50)), .begin 2 (.recordSpend (exampleCall "two" 40)),
    .insertRecord 1, .insertRecord 2, .referenceWorkspace 2, .referenceWorkspace 1,
    .lockBudget 1, .raiseThresholdAlerts 1 fun threshold => threshold, .commit 1,
    .lockBudget 2, .raiseThresholdAlerts 2 fun threshold => threshold, .commit 2]

/-- `threshold_alerts_exact` applies to two calls that reach a threshold together. -/
theorem threshold_alerts_exact_together :
    ∃ history state, machine.Runs history state ∧ history.map Transition.label = twoCalls ∧
      state.committed.alerts.countP (fun alert => alert.key = (1, 80)) = 1 := by
  obtain ⟨history, state, runs, labels, reachedState⟩ := Machine.exists_run_of_replay Opening run
    twoCalls (openingWorkspace 100 (by decide))
    (fun state => state.month = 1 ∧
      state.committed.budget = (openingWorkspace 100 (by decide)).committed.budget ∧
      state.committed.consumed 1 = 90)
    (openingWorkspace_opening _ _) (by decide +kernel)
  obtain ⟨month, budget, consumed⟩ := of_decide_eq_true reachedState
  refine ⟨history, state, runs, labels, ?_⟩
  rw [← month] at consumed
  have once := ((threshold_alerts_exact history state runs).1 _ budget 80 (by simp)
    (by rw [consumed]; decide) (.inl (by decide))).1
  rwa [month] at once

/-- A unit of work recorded last month is replayed, under a limit of zero. -/
def replayedCall : List Statement :=
  [.begin 1 (.recordSpend (exampleCall "old" 5)), .insertRecord 1, .commit 1]

/-- A limit of zero carried over from an earlier month is reached by no spend at all, and a
replayed call does not evaluate it. -/
theorem carried_zero_limit_unalerted :
    ¬ ∀ (history : List (Transition State Statement)) (state : State),
      machine.Runs history state → state.running = .empty →
        ∀ budget, state.committed.budget = some budget →
          ∀ threshold ∈ budget.alertThresholds,
            threshold * budget.monthlyLimitMicros ≤
                state.committed.consumed state.month * 100 →
              state.committed.alerts.countP (fun alert => alert.key = (state.month, threshold)) =
                1 := by
  intro exact
  obtain ⟨history, state, runs, _, reachedState⟩ := Machine.exists_run_of_replay Opening run
    replayedCall (openingWorkspace 0 (by decide))
    (fun state => state.running.entries = [] ∧
      state.committed.budget = (openingWorkspace 0 (by decide)).committed.budget ∧
      state.committed.alerts = [])
    (openingWorkspace_opening _ _) (by decide +kernel)
  obtain ⟨settled, budget, unalerted⟩ := of_decide_eq_true reachedState
  have once := exact history state runs (Table.eq_empty_of_entries settled) _ budget 80 (by simp) (Nat.zero_le _)
  rw [unalerted] at once
  cases once

end Nexora.Spend
