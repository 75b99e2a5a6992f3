import Nexora.Tenant.Vault

/-!
# What a writer of a connection holds

One case analysis of the statements: each advances its own transaction, or ends it. From it,
what a transaction holds when it has come so far, and what another one's commit can then no
longer change.
-/

namespace Nexora.Tenant.Vault

open Nexora.Std Nexora.Integration Nexora.Workspace

variable {deployment : Deployment} {state next : State} {statement : Statement} {id : Nat}
  {tx changed : Tx}

namespace Work

/-- The request is a connection test. -/
def isTest : Work → Bool
  | .test _ _ _ _ => true
  | _ => false

/-- The transaction writes a credential. -/
def storesSecret : Work → Bool
  | .update _ _ | .disconnect _ _ => false
  | _ => true

/-- The request changes the row without a credential. -/
def recordsRow : Work → Bool
  | .update _ _ | .test _ _ _ _ => true
  | _ => false

/-- The request removes the connection. -/
def removesRow : Work → Bool
  | .disconnect _ _ => true
  | _ => false

end Work

/-- What a statement may make of its transaction, with what it has checked. -/
inductive Advance (state : State) (id : Nat) (tx : Tx) : Statement → Tx → Prop where
  | entered (begun : tx.stage = .begun) (request : tx.work.caller ≠ none)
      (granted : ¬ state.isBlocked id .workspaceUpdate = true) :
      Advance state id tx (.scope id) { tx with
        stage := .scopedTo, locks := .workspaceUpdate :: tx.locks }
  | locked {row : IntegrationRow} (inScope : tx.stage = .scopedTo)
      (writes : tx.work.locksRow = true)
      (granted : ¬ state.isBlocked id .rowUpdate = true)
      (found : state.committed.integration = some row) :
      Advance state id tx (.lockRow id) { tx with
        stage := .locked row, locks := .rowUpdate :: tx.locks }
  | configured {row : IntegrationRow} {principal definition submission}
      (fields : Dict String × Dict String)
      (work : tx.work = .rotate principal definition submission)
      (locked : tx.stage = .locked row) :
      Advance state id tx (.configure id) { tx with
        stage := .writing fields.1 none, row := some { row with config := fields.2 } }
  | granted {principal definition requestedScopes exchange} (answer : TokenAnswer)
      (work : tx.work = .completeOAuth principal definition requestedScopes exchange)
      (inScope : tx.stage = .scopedTo) (granted : ¬ state.isBlocked id .rowNoKeyUpdate = true) :
      Advance state id tx (.grant id) { tx with
        stage := .writing answer.document answer.expiresAt
        locks := .rowNoKeyUpdate :: tx.locks
        row := state.committed.integration.map fun row =>
          { row with grantedScopes := answer.grantedScopes.getD requestedScopes } }
  | resolved {row : IntegrationRow}
      (may : tx.work.isTest = true ∧ tx.stage = .scopedTo ∨
        tx.work.caller = none ∧ tx.stage = .begun)
      (found : state.committed.integration = some row) (enabled : row.status ≠ .disabled) :
      Advance state id tx (.readRow id) { tx with stage := .resolved row }
  | opened {row : IntegrationRow} (document : Dict String) (resolved : tx.stage = .resolved row) :
      Advance state id tx (.openCredential id) { tx with stage := .opened document }
  | unchanged {document : Dict String} (clock : Instant) (opened : tx.stage = .opened document) :
      Advance state id tx (.refresh id clock) { tx with stage := .unchanged }
  | refreshed {document : Dict String} (clock : Instant) (later : Dict String)
      (expiresAt : Option Instant) (opened : tx.stage = .opened document) :
      Advance state id tx (.refresh id clock) { tx with stage := .writing later expiresAt }
  | inserted {document : Dict String} {expiresAt : Option Instant} (credentialId : Uuid)
      (credential : CredentialRow) (now : Instant)
      (writing : tx.stage = .writing document expiresAt) (unwritten : tx.secret = .unwritten)
      (granted : ¬ state.isBlocked id .workspaceKeyShare = true ∧
        ¬ state.isBlocked id .rowKeyShare = true)
      (new : (state.committed.credentials.find? credentialId).isSome = false)
      (unused : ∀ other otherTx, state.running.find? other = some otherTx →
        otherTx.secret.credentialId ≠ some credentialId) :
      Advance state id tx (.insertCredential id credentialId now) { tx with
        secret := .inserted credentialId credential
        locks := .workspaceKeyShare :: .rowKeyShare :: tx.locks }
  | read {credentialId : Uuid} {credential : CredentialRow} {row : IntegrationRow}
      (inserted : tx.secret = .inserted credentialId credential)
      (found : state.row tx = some row) :
      Advance state id tx (.readPrevious id) { tx with
        secret := .read credentialId credential row.credentialReference }
  | referenced {credentialId : Uuid} {credential : CredentialRow} {previous : Option Uuid}
      {row : IntegrationRow} (now : Instant)
      (read : tx.secret = .read credentialId credential previous)
      (granted : ¬ state.isBlocked id .rowNoKeyUpdate = true)
      (found : state.row tx = some row) :
      Advance state id tx (.updateRow id now) { tx with
        secret := .referenced credentialId credential previous
        locks := .rowNoKeyUpdate :: tx.locks
        row := some { row with
          credentialReference := some credentialId, status := .connected, lastError := none
          updatedAt := now } }
  | replaced {credentialId : Uuid} {credential : CredentialRow} {previous : Option Uuid}
      (referenced : tx.secret = .referenced credentialId credential previous) :
      Advance state id tx (.deletePrevious id) { tx with
        secret := .replaced credentialId credential previous }
  | switched {principal body} {row : IntegrationRow} (now : Instant)
      (work : tx.work = .update principal body) (locked : tx.stage = .locked row) :
      Advance state id tx (.setStatus id now) { tx with
        stage := .recorded, row := some (updated body row now) }
  | tested {principal definition exchange probe} (now : Instant)
      (work : tx.work = .test principal definition exchange probe)
      (may : tx.stage = .unchanged ∧ tx.secret = .unwritten ∨
        (∃ document expiresAt, tx.stage = .writing document expiresAt) ∧
          ∃ credentialId credential previous,
            tx.secret = .replaced credentialId credential previous)
      (granted : ¬ state.isBlocked id .rowNoKeyUpdate = true) :
      Advance state id tx (.recordTest id now) { tx with
        stage := .recorded
        locks := .rowNoKeyUpdate :: tx.locks
        row := (state.row tx).map fun row =>
          { row with
            lastTestedAt := some now
            lastSuccessAt := if (outcome definition probe).1 = none then some now
              else row.lastSuccessAt
            lastError := (outcome definition probe).1
            status := (outcome definition probe).2.getD row.status, updatedAt := now } }
  | removed {row : IntegrationRow} {principal bound} (work : tx.work = .disconnect principal bound)
      (locked : tx.stage = .locked row) :
      Advance state id tx (.remove id) { tx with stage := .removed }

/-- A statement begins a transaction, advances one, commits one or ends one. -/
inductive Effect (state : State) : Statement → State → Prop where
  | begun (id : Nat) (work : Work) (unused : state.running.find? id = none) :
      Effect state (.begin id work) (state.progress id (.start work))
  | advanced {statement : Statement} {id : Nat} {tx changed : Tx}
      (present : state.running.find? id = some tx)
      (advance : Advance state id tx statement changed) :
      Effect state statement (state.progress id changed)
  | committed {id : Nat} {tx : Tx} (present : state.running.find? id = some tx)
      (done : tx.isDone = true) :
      Effect state (.commit id)
        { state with committed := state.leaves tx, running := state.running.erase id }
  | aborted (id : Nat) :
      Effect state (.abort id) { state with running := state.running.erase id }

@[simp]
theorem tx?_eq_ok (state : State) (id : Nat) (tx : Tx) :
    state.tx? id = .ok tx ↔ state.running.find? id = some tx := by
  simp [State.tx?]

theorem mayResolve_cases (may : tx.mayResolve = true) :
    tx.work.isTest = true ∧ tx.stage = .scopedTo ∨
      tx.work.caller = none ∧ tx.stage = .begun := by
  unfold Tx.mayResolve at may
  split at may
  case h_1 work stage => exact .inl ⟨by simp [work, Work.isTest], stage⟩
  case h_2 work stage => exact .inr ⟨by simp [work, Work.caller], stage⟩
  case h_3 => cases may

theorem mayRecord_cases (may : tx.mayRecord = true) :
    tx.stage = .unchanged ∧ tx.secret = .unwritten ∨
      (∃ document expiresAt, tx.stage = .writing document expiresAt) ∧
        ∃ credentialId credential previous,
          tx.secret = .replaced credentialId credential previous := by
  unfold Tx.mayRecord at may
  split at may
  case h_1 stage secret => exact .inl ⟨stage, secret⟩
  case h_2 stage secret => exact .inr ⟨⟨_, _, stage⟩, _, _, _, secret⟩
  case h_3 => cases may

theorem configure_effect (ok : configure deployment state id = .ok next) :
    Effect state (.configure id) next := by
  simp only [configure, bind_eq_ok, tx?_eq_ok] at ok
  obtain ⟨tx, present, ok⟩ := ok
  split at ok
  case h_2 => cases ok
  case h_1 principal definition submission row work locked =>
    simp only [bind_eq_ok, raiseIf_eq_ok, mapError_eq_ok, pure_eq_ok] at ok
    obtain ⟨_, _, fields, _, _, _, rfl⟩ := ok
    exact .advanced present (.configured fields work locked)

theorem grant_effect (ok : grant deployment state id = .ok next) :
    Effect state (.grant id) next := by
  simp only [grant, bind_eq_ok, tx?_eq_ok] at ok
  obtain ⟨tx, present, ok⟩ := ok
  split at ok
  case h_2 => cases ok
  case h_1 principal definition requestedScopes exchange work inScope =>
    simp only [bind_eq_ok, raiseIf_eq_ok, mapError_eq_ok, pure_eq_ok] at ok
    obtain ⟨_, _, answer, _, _, granted, rfl⟩ := ok
    exact .advanced present (.granted answer work inScope granted)

theorem openCredential_effect (ok : openCredential deployment state id = .ok next) :
    Effect state (.openCredential id) next := by
  simp only [openCredential, bind_eq_ok, tx?_eq_ok] at ok
  obtain ⟨tx, present, ok⟩ := ok
  split at ok
  case h_2 => cases ok
  case h_1 row resolved =>
    simp only [bind_eq_ok, orRaise_eq_ok, raiseIf_eq_ok, pure_eq_ok] at ok
    obtain ⟨credential, _, _, _, rfl⟩ := ok
    exact .advanced present (.opened credential.document resolved)

theorem refresh_effect {clock : Instant} (ok : refresh deployment state id clock = .ok next) :
    Effect state (.refresh id clock) next := by
  simp only [refresh, bind_eq_ok, tx?_eq_ok] at ok
  obtain ⟨tx, present, ok⟩ := ok
  split at ok
  case h_2 => cases ok
  case h_1 definition exchange document opens opened =>
    split at ok
    case h_1 =>
      rw [pure_eq_ok] at ok
      subst ok
      exact .advanced present (.unchanged clock opened)
    case h_2 token due =>
      simp only [bind_eq_ok, mapError_eq_ok, pure_eq_ok] at ok
      obtain ⟨_, _, answer, _, rfl⟩ := ok
      exact .advanced present (.refreshed clock _ _ opened)

theorem insertCredential_effect {credentialId : Uuid} {now : Instant}
    (ok : insertCredential deployment state id credentialId now = .ok next) :
    Effect state (.insertCredential id credentialId now) next := by
  simp only [insertCredential, bind_eq_ok, tx?_eq_ok] at ok
  obtain ⟨tx, present, ok⟩ := ok
  split at ok
  case h_2 => cases ok
  case h_1 document expiresAt writing unwritten =>
    simp only [bind_eq_ok, raiseIf_eq_ok, pure_eq_ok, not_or] at ok
    obtain ⟨_, _, _, granted, _, _, _, ⟨new, unused⟩, rfl⟩ := ok
    refine .advanced present (.inserted credentialId _ now writing unwritten granted
      (Bool.eq_false_of_not_eq_true new) ?_)
    intro other otherTx otherPresent same
    exact unused ((Table.any_eq_true _ _).mpr ⟨other, otherTx, otherPresent, by simp [same]⟩)

theorem recordOutcome_effect {now : Instant} (ok : recordOutcome state id now = .ok next) :
    Effect state (.recordTest id now) next := by
  simp only [recordOutcome, bind_eq_ok, tx?_eq_ok] at ok
  obtain ⟨tx, present, ok⟩ := ok
  split at ok
  case h_2 => cases ok
  case h_1 principal definition exchange probe work =>
    simp only [bind_eq_ok, raiseIf_eq_ok, pure_eq_ok] at ok
    obtain ⟨_, may, _, granted, rfl⟩ := ok
    exact .advanced present (.tested now work (mayRecord_cases (by simpa using may)) granted)

/-- What a statement does. -/
theorem effect (ok : run deployment state statement = .ok next) : Effect state statement next := by
  cases statement with
  | begin id work =>
    simp only [run, bind_eq_ok, raiseIf_eq_ok, pure_eq_ok] at ok
    obtain ⟨_, unused, rfl⟩ := ok
    exact .begun id work (by simpa using unused)
  | scope id =>
    simp only [run, scope, bind_eq_ok, tx?_eq_ok, raiseIf_eq_ok, orRaise_eq_ok, mapError_eq_ok,
      pure_eq_ok] at ok
    obtain ⟨tx, present, _, begun, caller, request, _, granted, _, _, rfl⟩ := ok
    exact .advanced present (.entered (by simpa using begun) (by simp [request]) granted)
  | lockRow id =>
    simp only [run, lockRow, bind_eq_ok, tx?_eq_ok, raiseIf_eq_ok, orRaise_eq_ok, pure_eq_ok,
      not_or, not_not] at ok
    obtain ⟨tx, present, _, ⟨inScope, writes⟩, _, granted, row, found, rfl⟩ := ok
    exact .advanced present (.locked inScope (by simpa using writes) granted found)
  | configure id => exact configure_effect ok
  | grant id => exact grant_effect ok
  | readRow id =>
    simp only [run, readRow, bind_eq_ok, tx?_eq_ok, raiseIf_eq_ok, orRaise_eq_ok, pure_eq_ok,
      not_or] at ok
    obtain ⟨tx, present, _, may, row, found, _, ⟨enabled, _⟩, _, _, rfl⟩ := ok
    exact .advanced present (.resolved (mayResolve_cases (by simpa using may)) found enabled)
  | openCredential id => exact openCredential_effect ok
  | refresh id clock => exact refresh_effect ok
  | insertCredential id credentialId now => exact insertCredential_effect ok
  | readPrevious id =>
    simp only [run, readPrevious, bind_eq_ok, tx?_eq_ok] at ok
    obtain ⟨tx, present, ok⟩ := ok
    split at ok
    case h_2 => cases ok
    case h_1 credentialId credential inserted =>
      simp only [bind_eq_ok, orRaise_eq_ok, pure_eq_ok] at ok
      obtain ⟨row, found, rfl⟩ := ok
      exact .advanced present (.read inserted found)
  | updateRow id now =>
    simp only [run, updateRow, bind_eq_ok, tx?_eq_ok] at ok
    obtain ⟨tx, present, ok⟩ := ok
    split at ok
    case h_2 => cases ok
    case h_1 credentialId credential previous read =>
      simp only [bind_eq_ok, raiseIf_eq_ok, orRaise_eq_ok, pure_eq_ok] at ok
      obtain ⟨_, granted, row, found, rfl⟩ := ok
      exact .advanced present (.referenced now read granted found)
  | deletePrevious id =>
    simp only [run, deletePrevious, bind_eq_ok, tx?_eq_ok] at ok
    obtain ⟨tx, present, ok⟩ := ok
    split at ok
    case h_2 => cases ok
    case h_1 credentialId credential previous referenced =>
      rw [pure_eq_ok] at ok
      subst ok
      exact .advanced present (.replaced referenced)
  | setStatus id now =>
    simp only [run, setStatus, bind_eq_ok, tx?_eq_ok] at ok
    obtain ⟨tx, present, ok⟩ := ok
    split at ok
    case h_2 => cases ok
    case h_1 principal body row work locked =>
      rw [pure_eq_ok] at ok
      subst ok
      exact .advanced present (.switched now work locked)
  | recordTest id now => exact recordOutcome_effect ok
  | remove id =>
    simp only [run, remove, bind_eq_ok, tx?_eq_ok] at ok
    obtain ⟨tx, present, ok⟩ := ok
    split at ok
    case h_2 => cases ok
    case h_1 principal bound row work locked =>
      simp only [bind_eq_ok, raiseIf_eq_ok, pure_eq_ok] at ok
      obtain ⟨_, _, rfl⟩ := ok
      exact .advanced present (.removed work locked)
  | commit id =>
    simp only [run, commit, bind_eq_ok, tx?_eq_ok, raiseIf_eq_ok, pure_eq_ok] at ok
    obtain ⟨tx, present, _, done, rfl⟩ := ok
    exact .committed present (by simpa using done)
  | abort id =>
    simp only [run, pure_eq_ok] at ok
    subst ok
    exact .aborted id

/-- A stage that a transaction for some work passes through. -/
def Stage.isOf (stage : Stage) (work : Work) : Bool :=
  match stage with
  | .begun => true
  | .scopedTo => work.caller.isSome
  | .locked _ => work.locksRow
  | .resolved _ | .opened _ | .unchanged => work.opens.isSome
  | .writing _ _ => work.storesSecret
  | .recorded => work.recordsRow
  | .removed => work.removesRow

/-- The reference a transaction has written. -/
def Secret.reference : Secret → Option Uuid
  | .referenced credentialId _ _ | .replaced credentialId _ _ => some credentialId
  | _ => none

/-- The transaction leaves another row, or none. -/
def Tx.changes (tx : Tx) : Prop :=
  tx.row ≠ none ∨ tx.stage = .removed

/-- What a transaction holds, by how far it has come. -/
structure Holds (tx : Tx) : Prop where
  isOf : tx.stage.isOf tx.work = true
  inScope : tx.stage ≠ .begun → tx.work.caller.isSome = true → .workspaceUpdate ∈ tx.locks
  locked : ∀ row, tx.stage = .locked row → .rowUpdate ∈ tx.locks
  changed : tx.changes →
    (.workspaceUpdate ∈ tx.locks ∨ .workspaceKeyShare ∈ tx.locks) ∧
      (.rowUpdate ∈ tx.locks ∨ .rowNoKeyUpdate ∈ tx.locks)
  keyed : tx.secret ≠ .unwritten → .workspaceKeyShare ∈ tx.locks
  storing : tx.secret ≠ .unwritten →
    (∃ document expiresAt, tx.stage = .writing document expiresAt) ∨
      tx.stage = .recorded ∧ ∃ credentialId credential previous,
        tx.secret = .replaced credentialId credential previous
  referenced : ∀ credentialId, tx.secret.reference = some credentialId →
    ∃ row, tx.row = some row ∧ row.credentialReference = some credentialId
  untouched : tx.row ≠ none →
    (∃ document expiresAt, tx.stage = .writing document expiresAt) ∨ tx.stage = .recorded

theorem Holds.start (work : Work) : Holds (.start work) := by
  constructor <;> simp [Tx.start, Tx.changes, Stage.isOf, Secret.reference]

namespace Advance

theorem holds_isOf (advance : Advance state id tx statement changed) (holds : Holds tx) :
    changed.stage.isOf changed.work = true := by
  have isOf := holds.isOf
  cases advance with
  | resolved may found enabled =>
    cases named : tx.work <;> simp_all [Stage.isOf, Work.isTest, Work.caller, Work.opens]
  | refreshed clock later expiresAt opened =>
    cases named : tx.work <;> simp_all [Stage.isOf, Work.opens, Work.storesSecret]
  | _ => simp_all [Stage.isOf, Work.storesSecret, Work.recordsRow, Work.removesRow,
      Option.isSome_iff_ne_none]

theorem holds_inScope (advance : Advance state id tx statement changed) (holds : Holds tx)
    (begun : changed.stage ≠ .begun) (asked : changed.work.caller.isSome = true) :
    .workspaceUpdate ∈ changed.locks := by
  have held := holds.inScope
  cases advance with
  | resolved may =>
    rcases may with ⟨_, inScope⟩ | ⟨unasked, _⟩
    · exact held (by simp [inScope]) asked
    · simp [unasked] at asked
  | tested now work may =>
    refine List.mem_cons_of_mem _ (held ?_ asked)
    rcases may with ⟨stage, _⟩ | ⟨⟨_, _, stage⟩, _⟩ <;> simp [stage]
  | _ => simp_all [Work.caller]

theorem holds_locked (advance : Advance state id tx statement changed) (holds : Holds tx)
    (row : IntegrationRow) (isLocked : changed.stage = .locked row) : .rowUpdate ∈ changed.locks := by
  have held := holds.locked row
  cases advance <;> simp_all

theorem holds_untouched (advance : Advance state id tx statement changed) (holds : Holds tx)
    (has : changed.row ≠ none) :
    (∃ document expiresAt, changed.stage = .writing document expiresAt) ∨
      changed.stage = .recorded := by
  have earlier := holds.untouched
  have storing := holds.storing
  cases advance with
  | resolved may => rcases may with ⟨_, stage⟩ | ⟨_, stage⟩ <;> simp_all
  | _ => simp_all

theorem holds_changed (advance : Advance state id tx statement changed) (holds : Holds tx)
    (changes : changed.changes) :
    (.workspaceUpdate ∈ changed.locks ∨ .workspaceKeyShare ∈ changed.locks) ∧
      (.rowUpdate ∈ changed.locks ∨ .rowNoKeyUpdate ∈ changed.locks) := by
  have held := holds.changed
  have keyed := holds.keyed
  have inScope := holds.inScope
  have locked := holds.locked
  have isOf := holds.isOf
  cases advance with
  | tested now work may =>
    have begun : tx.stage ≠ .begun := by
      rcases may with ⟨stage, _⟩ | ⟨⟨_, _, stage⟩, _⟩ <;> simp [stage]
    exact ⟨.inl (List.mem_cons_of_mem _ (inScope begun (by simp [work, Work.caller]))),
      .inr (by simp)⟩
  | _ => simp_all [Tx.changes, Work.caller, Stage.isOf]

theorem holds_keyed (advance : Advance state id tx statement changed) (holds : Holds tx)
    (written : changed.secret ≠ .unwritten) : .workspaceKeyShare ∈ changed.locks := by
  have held := holds.keyed
  cases advance <;> simp_all

theorem holds_storing (advance : Advance state id tx statement changed) (holds : Holds tx)
    (written : changed.secret ≠ .unwritten) :
    (∃ document expiresAt, changed.stage = .writing document expiresAt) ∨
      changed.stage = .recorded ∧ ∃ credentialId credential previous,
        changed.secret = .replaced credentialId credential previous := by
  have earlier := holds.storing
  cases advance with
  | resolved may => rcases may with ⟨_, stage⟩ | ⟨_, stage⟩ <;> simp_all
  | _ => simp_all

theorem holds_referenced (advance : Advance state id tx statement changed) (holds : Holds tx)
    (credentialId : Uuid) (refers : changed.secret.reference = some credentialId) :
    ∃ row, changed.row = some row ∧ row.credentialReference = some credentialId := by
  have earlier := holds.referenced credentialId
  have storing := holds.storing
  cases advance with
  | tested =>
    obtain ⟨row, own, refersTo⟩ := earlier refers
    simpa [State.row, own] using refersTo
  | _ => simp_all [Secret.reference]

/-- A statement gives up nothing its transaction holds. -/
theorem holds (advance : Advance state id tx statement changed) (holds : Holds tx) :
    Holds changed where
  isOf := advance.holds_isOf holds
  inScope := advance.holds_inScope holds
  locked := advance.holds_locked holds
  changed := advance.holds_changed holds
  keyed := advance.holds_keyed holds
  storing := advance.holds_storing holds
  referenced := advance.holds_referenced holds
  untouched := advance.holds_untouched holds

/-- A lock a statement takes is one no other transaction blocks. -/
theorem locks (advance : Advance state id tx statement changed) {lock : Lock}
    (own : lock ∈ changed.locks) : lock ∈ tx.locks ∨ ¬ state.isBlocked id lock = true := by
  cases advance <;> simp_all <;> grind

end Advance

/-- What a transaction knows of the committed row. -/
structure Coherent (current : Option IntegrationRow) (tx : Tx) : Prop where
  locked : ∀ row, tx.stage = .locked row → current = some row
  kept : ∀ row, tx.row = some row → ∃ earlier, current = some earlier ∧
    (tx.secret.reference = none → row.credentialReference = earlier.credentialReference)
  updated : ∀ principal body, tx.work = .update principal body → tx.stage = .recorded →
    ∃ earlier now, current = some earlier ∧ tx.row = some (updated body earlier now)
  usable : tx.work.isTest = true → tx.stage ≠ .begun → tx.stage ≠ .scopedTo →
    ∀ row, current = some row → row.status ≠ .disabled

theorem Coherent.start (current : Option IntegrationRow) (work : Work) :
    Coherent current (.start work) := by
  constructor <;> simp [Tx.start]

/-- A transaction that has not read the row yet knows nothing of it. -/
theorem Coherent.blank {current : Option IntegrationRow} (unlocked : ∀ row, tx.stage ≠ .locked row) (unread : tx.row = none)
    (unscoped : tx.work.recordsRow = true → tx.stage = .begun ∨ tx.stage = .scopedTo) :
    Coherent current tx where
  locked row isLocked := absurd isLocked (unlocked row)
  kept row own := by simp [unread] at own
  updated principal body work recorded := by
    have early := unscoped (by simp [work, Work.recordsRow])
    simp [recorded] at early
  usable isTest begun scopedTo := by
    have early := unscoped (by cases work : tx.work <;> simp_all [Work.isTest, Work.recordsRow])
    rcases early with early | early
    · exact absurd early begun
    · exact absurd early scopedTo

/-- The row a transaction sees has the committed reference until it writes its own. -/
theorem Coherent.sees (coherent : Coherent state.committed.integration tx) {row : IntegrationRow}
    (found : state.row tx = some row) : ∃ earlier, state.committed.integration = some earlier ∧
      (tx.secret.reference = none → row.credentialReference = earlier.credentialReference) := by
  cases own : tx.row with
  | none =>
    rw [State.row, own, Option.none_or] at found
    exact ⟨row, found, fun _ => rfl⟩
  | some mine =>
    rw [State.row, own, Option.some_or, Option.some.injEq] at found
    subst found
    exact coherent.kept mine own

namespace Advance

theorem coherent_locked (advance : Advance state id tx statement changed)
    (coherent : Coherent state.committed.integration tx) (row : IntegrationRow)
    (isLocked : changed.stage = .locked row) : state.committed.integration = some row := by
  have earlier := coherent.locked row
  cases advance with
  | locked inScope writes granted found => rw [found, Stage.locked.inj isLocked]
  | inserted | read | referenced | replaced => exact earlier isLocked
  | _ => cases isLocked

theorem coherent_kept (advance : Advance state id tx statement changed)
    (coherent : Coherent state.committed.integration tx) (row : IntegrationRow)
    (own : changed.row = some row) : ∃ earlier, state.committed.integration = some earlier ∧
      (changed.secret.reference = none →
        row.credentialReference = earlier.credentialReference) := by
  have kept := coherent.kept row
  cases advance with
  | configured fields work locked =>
    cases own
    exact ⟨_, coherent.locked _ locked, fun _ => rfl⟩
  | granted answer work inScope =>
    obtain ⟨current, found, rfl⟩ := Option.map_eq_some_iff.mp own
    exact ⟨current, found, fun _ => rfl⟩
  | inserted credentialId credential now writing unwritten =>
    simpa [Secret.reference, unwritten] using kept own
  | read inserted => simpa [Secret.reference, inserted] using kept own
  | referenced now read granted found =>
    obtain ⟨current, committed, _⟩ := coherent.sees found
    exact ⟨current, committed, by simp [Secret.reference]⟩
  | replaced referenced => simpa [Secret.reference, referenced] using kept own
  | switched now work locked =>
    cases own
    exact ⟨_, coherent.locked _ locked, fun _ => rfl⟩
  | tested now work may =>
    obtain ⟨seen, found, rfl⟩ := Option.map_eq_some_iff.mp own
    have ⟨current, committed, same⟩ := coherent.sees found
    exact ⟨current, committed, same⟩
  | _ => exact kept own

theorem coherent_updated (advance : Advance state id tx statement changed)
    (coherent : Coherent state.committed.integration tx) (holds : Holds tx) (principal : Principal)
    (body : IntegrationUpdate) (work : changed.work = .update principal body)
    (recorded : changed.stage = .recorded) :
    ∃ earlier now, state.committed.integration = some earlier ∧
      changed.row = some (updated body earlier now) := by
  have earlier := coherent.updated principal body
  have storing := holds.storing
  cases advance with
  | inserted credentialId credential now writing => simp [writing] at recorded
  | read inserted => exact earlier work recorded
  | referenced now read =>
    change tx.stage = .recorded at recorded
    simp [read, recorded] at storing
  | replaced => exact earlier work recorded
  | switched now isUpdate locked =>
    rw [isUpdate] at work
    cases work
    exact ⟨_, now, coherent.locked _ locked, rfl⟩
  | tested now isTest => simp [isTest] at work
  | _ => cases recorded

theorem coherent_usable (advance : Advance state id tx statement changed)
    (coherent : Coherent state.committed.integration tx) (isTest : changed.work.isTest = true)
    (begun : changed.stage ≠ .begun) (scopedTo : changed.stage ≠ .scopedTo) (row : IntegrationRow)
    (found : state.committed.integration = some row) : row.status ≠ .disabled := by
  have earlier := coherent.usable
  cases advance with
  | entered => exact absurd rfl scopedTo
  | locked inScope writes => cases named : tx.work <;> simp_all [Work.isTest, Work.locksRow]
  | granted answer work => simp [work, Work.isTest] at isTest
  | resolved may present enabled => rwa [Option.some.inj (present.symm.trans found)] at enabled
  | tested now work may =>
    rcases may with ⟨stage, _⟩ | ⟨⟨_, _, stage⟩, _⟩ <;>
      exact earlier isTest (by simp [stage]) (by simp [stage]) row found
  | _ => simp_all

/-- A statement learns of the row only what is committed. -/
theorem coherent (advance : Advance state id tx statement changed) (holds : Holds tx)
    (coherent : Coherent state.committed.integration tx) :
    Coherent state.committed.integration changed where
  locked := advance.coherent_locked coherent
  kept := advance.coherent_kept coherent
  updated := advance.coherent_updated coherent holds
  usable := advance.coherent_usable coherent

end Advance

end Nexora.Tenant.Vault
