import Nexora.Tenant.Secrets

/-!
# The switch of a connection

An administrator disables a connection with an update. A test never overrides that: it has
seen the connection enabled and holds the workspace's row until it is done. Whoever writes a
credential does, because the statement that stores the reference also connects the row. So
the connection stays disabled until it is enabled exactly where no credential is committed
meanwhile.
-/

namespace Nexora.Tenant.Vault

open Nexora.Std Nexora.Integration Nexora.Workspace

variable {deployment : Deployment} {state next : State} {statement : Statement} {id : Nat}
  {tx changed : Tx}

/-- The setting an update makes. -/
def Work.switches : Work → Option Bool
  | .update _ body => body.enabled
  | _ => none

/-- An update that enables or disables the connection commits. -/
def switchesTo (enabled : Bool) (transition : Transition State Statement) : Bool :=
  match transition.label with
  | .commit id =>
    (transition.before.running.find? id).any fun tx => tx.work.switches = some enabled
  | _ => false

/-- The connection is disabled, or gone. -/
def Rows.isOff (rows : Rows) : Bool :=
  rows.integration.all fun row => row.status = .disabled

/-- No credential is committed while the connection is disabled. -/
def sparesDisabled (transition : Transition State Statement) : Bool :=
  match transition.label with
  | .commit id =>
    !transition.before.committed.isOff ||
      (transition.before.running.find? id).all fun tx => tx.secret = .unwritten
  | _ => true

@[simp]
theorem Rows.isOff_eq_true (rows : Rows) :
    rows.isOff = true ↔ ∀ row, rows.integration = some row → row.status = .disabled := by
  cases found : rows.integration <;> simp [Rows.isOff, found]

/-- A transaction that wrote no credential, and changed the row, is an update or a test. -/
theorem recordsRow_of_changed (holds : Holds tx) (done : tx.isDone = true)
    (unwritten : tx.secret = .unwritten) (has : tx.row ≠ none) :
    tx.stage = .recorded ∧ tx.work.recordsRow = true := by
  have isOf := holds.isOf
  rcases holds.untouched has with ⟨document, expiresAt, writing⟩ | recorded
  · cases work : tx.work <;> simp [Tx.isDone, writing, unwritten, work] at done
  · rw [recorded] at isOf
    exact ⟨recorded, isOf⟩

namespace Sound

/-- A commit leaves a disabled connection disabled unless it enables it or writes a
credential. -/
theorem isOff_leaves (sound : Sound state) (present : state.running.find? id = some tx)
    (done : tx.isDone = true) (off : state.committed.isOff = true)
    (unwritten : tx.secret = .unwritten) (enables : tx.work.switches ≠ some true) :
    (state.leaves tx).isOff = true := by
  have holds := sound.holds id tx present
  have coherent := sound.coherent id tx present
  by_cases changes : tx.changes
  case neg => simpa only [Rows.isOff, state.leaves_integration tx changes] using off
  by_cases removed : tx.stage = .removed
  · simp [State.leaves, removed, Rows.isOff]
  have has : tx.row ≠ none := changes.resolve_right removed
  obtain ⟨recorded, records⟩ := recordsRow_of_changed holds done unwritten has
  rw [Rows.isOff_eq_true] at off ⊢
  intro row left
  cases work : tx.work with
  | update principal body =>
    obtain ⟨earlier, now, committed, own⟩ := coherent.updated principal body work recorded
    have was := off earlier committed
    simp only [State.leaves, removed, if_false, State.row, own, Option.some_or,
      Option.some.injEq] at left
    rw [← left]
    simp only [Work.switches, work, ne_eq] at enables
    cases setting : body.enabled with
    | none => simpa [updated, setting] using was
    | some enabled =>
      cases enabled
      · simp [updated, setting]
      · exact absurd setting enables
  | test principal definition exchange probe =>
    -- A test has seen the connection enabled and keeps others from changing it.
    obtain ⟨mine, own⟩ := Option.ne_none_iff_exists'.mp has
    obtain ⟨earlier, committed, _⟩ := coherent.kept mine own
    exact absurd (off earlier committed) (coherent.usable (by simp [work, Work.isTest])
      (by simp [recorded]) (by simp [recorded]) earlier committed)
  | _ => simp [work, Work.recordsRow] at records

/-- The commit that disables the connection leaves it disabled. -/
theorem isOff_disabled (sound : Sound state) (present : state.running.find? id = some tx)
    (done : tx.isDone = true) (disables : tx.work.switches = some false) :
    (state.leaves tx).isOff = true := by
  cases work : tx.work with
  | update principal body =>
    have recorded : tx.stage = .recorded := by
      cases stage : tx.stage <;> simp_all [Tx.isDone]
    obtain ⟨earlier, now, _, own⟩ :=
      (sound.coherent id tx present).updated principal body work recorded
    simp only [work, Work.switches] at disables
    simp [Rows.isOff, State.leaves, recorded, State.row, own, updated, disables]
  | _ => simp [work, Work.switches] at disables

/-- A step that is spared leaves a disabled connection disabled. -/
theorem isOff_step (sound : Sound state) (ok : run deployment state statement = .ok next)
    (off : state.committed.isOff = true)
    (enables : switchesTo true ⟨state, statement, next⟩ = false)
    (spares : sparesDisabled ⟨state, statement, next⟩ = true) : next.committed.isOff = true := by
  cases effect ok with
  | committed present done =>
    simp only [switchesTo, present, Option.any_some, decide_eq_false_iff_not] at enables
    simp only [sparesDisabled, off, present, Bool.not_true, Bool.false_or, Option.all_some,
      decide_eq_true_eq] at spares
    exact sound.isOff_leaves present done off spares enables
  | _ => exact off

end Sound

/-- After an update that disables a connection has committed, and until one that enables it
does, the connection stays disabled where no credential is committed while it is. -/
theorem disabled_stays (deployment : Deployment)
    (history earlier later : List (Transition State Statement))
    (disabling : Transition State Statement) (state : State)
    (runs : (machine deployment).Runs history state)
    (splits : history = earlier ++ disabling :: later)
    (disables : switchesTo false disabling = true)
    (enables : ∀ transition ∈ later, switchesTo true transition = false)
    (spares : ∀ transition ∈ later, sparesDisabled transition = true) :
    ∀ row, state.committed.integration = some row → row.status = .disabled := by
  rw [← Rows.isOff_eq_true]
  obtain ⟨before, step, steps⟩ := runs.split splits
  have sound := Sound.ofRuns before
  have off : disabling.after.committed.isOff = true := by
    obtain ⟨previous, statement, after⟩ := disabling
    change run deployment previous statement = .ok after at step
    cases effect step with
    | committed present done =>
      simp only [switchesTo, present, Option.any_some, decide_eq_true_eq] at disables
      exact sound.isOff_disabled present done disables
    | begun | aborted => cases disables
    | advanced present advance => cases advance <;> cases disables
  refine (steps.invariantWhile (fun state => Sound state ∧ state.committed.isOff = true)
    (fun transition => switchesTo true transition = false ∧ sparesDisabled transition = true)
    ?_ ⟨sound.step step, off⟩ fun transition member =>
      ⟨enables transition member, spares transition member⟩).2
  rintro previous statement after ⟨sound, off⟩ step ⟨enables, spares⟩
  exact ⟨sound.step step, sound.isOff_step step off enables spares⟩

/-- The statements of an update that sets the switch. -/
def setSwitch (id : Nat) (enabled : Bool) : List Statement :=
  [.begin id (.update manager { displayName := none, enabled := some enabled }), .scope id,
    .lockRow id, .setStatus id 13, .commit id]

/-- `disabled_stays` applies to a rename of the disabled connection. -/
theorem disabled_stays_renamed :
    ∃ history state, (machine registeredDeployment).Runs history state ∧
      (∃ row, state.committed.integration = some row ∧ row.displayName = "Renamed") ∧
      ∀ row, state.committed.integration = some row → row.status = .disabled := by
  obtain ⟨history, state, runs, checked⟩ := Machine.exists_run_of_trace Opening
    (run registeredDeployment)
    (setSwitch 1 false ++ [.begin 2 (.update manager
      { displayName := some "Renamed", enabled := none }), .scope 2, .lockRow 2, .setStatus 2 14,
      .commit 2]) authorized
    (fun history state => Machine.splitsAt history 4 (fun _ disabling later =>
        switchesTo false disabling &&
          later.all fun transition => !switchesTo true transition && sparesDisabled transition) &&
      state.committed.integration.any fun row => row.displayName = "Renamed")
    opening_authorized (by decide +kernel)
  rw [Bool.and_eq_true] at checked
  obtain ⟨earlier, disabling, later, splits, checks⟩ := Machine.exists_split checked.1
  simp only [Bool.and_eq_true, List.all_eq_true, Bool.not_eq_true'] at checks
  obtain ⟨row, found, renamed⟩ := (Option.any_eq_true _ _).mp checked.2
  exact ⟨history, state, runs, ⟨row, found, of_decide_eq_true renamed⟩,
    disabled_stays registeredDeployment history earlier later disabling state runs splits checks.1
      (fun transition member => (checks.2 transition member).1)
      (fun transition member => (checks.2 transition member).2)⟩

/-- A call that began before a connection was disabled connects it again when it commits the
token it renewed. -/
theorem renewal_enables :
    ¬ ∀ (deployment : Deployment) (history earlier later : List (Transition State Statement))
        (disabling : Transition State Statement) (state : State),
      (machine deployment).Runs history state → history = earlier ++ disabling :: later →
        switchesTo false disabling = true →
          (∀ transition ∈ later, switchesTo true transition = false) →
            ∀ row, state.committed.integration = some row → row.status = .disabled := by
  intro stays
  obtain ⟨history, state, runs, checked⟩ := Machine.exists_run_of_trace Opening
    (run registeredDeployment)
    ((callUpToRead 2 32).take 4 ++ setSwitch 1 false ++ (callUpToRead 2 32).drop 4 ++
      callFromUpdate 2) authorized
    (fun history state => Machine.splitsAt history 8 (fun _ disabling later =>
        switchesTo false disabling && later.all fun transition => !switchesTo true transition) &&
      state.committed.integration.any fun row => row.status = .connected)
    opening_authorized (by decide +kernel)
  rw [Bool.and_eq_true] at checked
  obtain ⟨earlier, disabling, later, splits, checks⟩ := Machine.exists_split checked.1
  simp only [Bool.and_eq_true, List.all_eq_true, Bool.not_eq_true'] at checks
  obtain ⟨row, found, connected⟩ := (Option.any_eq_true _ _).mp checked.2
  have disabled := stays registeredDeployment history earlier later disabling state runs splits
    checks.1 checks.2 row found
  rw [of_decide_eq_true connected] at disabled
  cases disabled

end Nexora.Tenant.Vault
