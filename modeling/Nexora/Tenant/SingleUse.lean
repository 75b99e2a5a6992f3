import Nexora.Tenant.Sealed
import Nexora.Tenant.Secrets

/-!
# Whether a state is single use

`complete_oauth` deletes the state it was called with and then sends the code to the provider, in
one transaction that holds the lock of the state's row. Another call with the same state waits
for that lock. The deletion is undone with everything else when an exception leaves the
transaction: after a failed exchange the state is there again, and the next call sends another
code. Calls in progress are kept beside the store they will write to.
-/

namespace Nexora.Tenant.SingleUse

open Nexora.Std Nexora.Integration Nexora.Workspace

/-- A call of `complete_oauth`. -/
structure CompleteCall where
  cached : Option ConnectorManifest
  principal : Principal
  workspaceId : Uuid
  stateDigest : Nat
  clock : Instant
  deriving DecidableEq

/-- What a call is refused with when its state is not there or has expired. -/
def noLongerValid : Failure := .http 409 (some "This authorization request is no longer valid")

/-- The part of a call before the code is sent: the state it was called with, with its verifier
opened. -/
def beginOAuth (deployment : Deployment) (store : Store) (call : CompleteCall) :
    Except Failure OAuthStateRow := do
  scopedMember store.memberships call.principal call.workspaceId .manageIntegrations
  let state ← orRaise ((store.oauthStates.find? call.stateDigest).filter fun state =>
      state.workspaceId = call.workspaceId) noLongerValid
  raiseIf (state.expiresAt ≤ call.clock) noLongerValid
  let definition ← definitionFor store call.cached state.integrationDefinitionId
  -- `VaultUnavailable` leaves the handler as it is.
  raiseIf (deployment.vaultAvailable = false) (.valueError "Secret storage is not configured")
  client deployment definition
  pure state

/-- The part of a call after the provider has answered. -/
def endOAuth (deployment : Deployment) (store : Store) (call : CompleteCall)
    (state : OAuthStateRow) (exchange : Except Failure TokenAnswer) (credentialId : Uuid)
    (now : Instant) : Except Failure Store := do
  let answer ← exchange
  let granted := answer.grantedScopes.getD state.requestedScopes
  let consumed := { store with
    oauthStates := store.oauthStates.erase call.stateDigest
    integrations := store.integrations.modify state.tenantIntegrationId fun row =>
      if row.workspaceId = call.workspaceId then { row with grantedScopes := granted } else row }
  writeCredential deployment consumed call.workspaceId state.tenantIntegrationId answer.document
    answer.expiresAt credentialId now

/-- The store, the states drawn so far, and the calls that have sent their code. -/
structure Authorizations where
  store : Store
  issued : List Nat
  calls : Table Nat (CompleteCall × OAuthStateRow)

/-- What happens to the store: an operation of another kind, a call up to its code or its
refusal, a call that has waited too long for a lock, and the provider's answer to a call. -/
inductive Step where
  | operate (operation : Operation)
  | complete (id : Nat) (call : CompleteCall)
  | lockTimeout (call : CompleteCall)
  | finish (id : Nat) (exchange : Except Failure TokenAnswer) (credentialId : Uuid)
      (now : Instant)

/-- Why a step does not happen. -/
inductive Disabled where
  | waits
  | fails
  deriving DecidableEq

namespace Authorizations

variable (system : Authorizations)

/-- The row of a state is locked by a call that has sent its code. -/
def locked (digest : Nat) : Bool := system.calls.any fun _ held => held.1.stateDigest = digest

/-- The caller may manage the workspace's integrations. -/
def admits (call : CompleteCall) : Bool :=
  (scopedMember system.store.memberships call.principal call.workspaceId
    .manageIntegrations).toBool

end Authorizations

/-- The state an operation draws; `complete_oauth` has steps of its own. -/
def drawnState : Operation → Option Nat
  | .startOAuth _ _ _ _ _ stateDigest _ _ => some stateDigest
  | _ => none

/-- An operation that is a call of `complete_oauth`. -/
def isComplete : Operation → Bool
  | .completeOAuth .. => true
  | _ => false

/-- One step. A random state is new, and an operation leaves the rows that are locked. -/
def run (deployment : Deployment) (system : Authorizations) :
    Step → Except Disabled Authorizations
  | .operate operation => do
      raiseIf (isComplete operation = true) .fails
      raiseIf (∃ digest ∈ drawnState operation, digest ∈ system.issued) .fails
      let next ← (Tenant.run deployment system.store operation).mapError fun _ => .fails
      raiseIf (system.calls.any (fun _ held =>
        next.oauthStates.find? held.1.stateDigest ≠
          system.store.oauthStates.find? held.1.stateDigest) = true) .waits
      pure { system with
        store := next, issued := (drawnState operation).toList ++ system.issued }
  | .complete id call => do
      raiseIf (system.admits call = true ∧ system.locked call.stateDigest = true) .waits
      raiseIf (system.calls.find? id ≠ none) .fails
      match beginOAuth deployment system.store call with
      | .ok state => pure { system with calls := system.calls.put id (call, state) }
      | .error _ => pure system
  | .lockTimeout call => do
      raiseIf (¬ (system.admits call = true ∧ system.locked call.stateDigest = true)) .fails
      pure system
  | .finish id exchange credentialId now => do
      let held ← orRaise (system.calls.find? id) .fails
      match endOAuth deployment system.store held.1 held.2 exchange credentialId now with
      | .ok next => pure { system with store := next, calls := system.calls.erase id }
      | .error _ => pure { system with calls := system.calls.erase id }

/-- No call is in progress, and every pending state has been drawn. -/
structure Opening (system : Authorizations) : Prop where
  quiet : system.calls = .empty
  drawn : ∀ digest state, system.store.oauthStates.find? digest = some state →
    digest ∈ system.issued

/-- The runs of a store under operations and calls of `complete_oauth` in any order. -/
def machine (deployment : Deployment) : Machine Authorizations Step :=
  .ofFunction Opening (run deployment)

/-- A call with a state sends its code. -/
def Sends (deployment : Deployment) (digest : Nat) (transition : Transition Authorizations Step) :
    Prop :=
  ∃ id call state, transition.label = .complete id call ∧ call.stateDigest = digest ∧
    beginOAuth deployment transition.before.store call = .ok state

/-- A call with a state by someone who may make it. -/
structure Calls (digest : Nat) (transition : Transition Authorizations Step)
    (call : CompleteCall) : Prop where
  isCall : (∃ id, transition.label = .complete id call) ∨ transition.label = .lockTimeout call
  withState : call.stateDigest = digest
  admitted : transition.before.admits call = true

/-- A call is refused with 409. -/
def Refused (deployment : Deployment) (transition : Transition Authorizations Step)
    (call : CompleteCall) : Prop :=
  (∃ id, transition.label = .complete id call) ∧
    beginOAuth deployment transition.before.store call = .error noLongerValid

/-- One call with a state sends a code, and every later one is refused with 409. -/
structure IsSingleUse (deployment : Deployment)
    (history : List (Transition Authorizations Step)) (digest : Nat) : Prop where
  once : ∀ earlier first later, history = earlier ++ first :: later →
    Sends deployment digest first → ∀ second ∈ later, ¬ Sends deployment digest second
  refused : ∀ earlier first later, history = earlier ++ first :: later →
    Sends deployment digest first → ∀ second ∈ later, ∀ call, Calls digest second call →
      Refused deployment second call

/-- A call that has sent its code commits, and none waits too long for the lock. -/
def Settles (deployment : Deployment) (transition : Transition Authorizations Step) : Prop :=
  match transition.label with
  | .finish id exchange credentialId now =>
    ∀ held ∈ transition.before.calls.find? id,
      ∃ next, endOAuth deployment transition.before.store held.1 held.2 exchange credentialId
        now = .ok next
  | .lockTimeout _ => False
  | .operate _ | .complete _ _ => True

/-! ## What becomes of a state -/

/-- Every pending state was pending before. -/
def NoNewStates (before after : Store) : Prop :=
  ∀ digest state, after.oauthStates.find? digest = some state →
    before.oauthStates.find? digest = some state

theorem NoNewStates.of_eq {before after : Store} (same : after.oauthStates = before.oauthStates) :
    NoNewStates before after := by
  intro digest state found
  rwa [same] at found

variable {exchange : Except Failure TokenAnswer} {state : OAuthStateRow}

section Operations

variable {deployment : Deployment} {store next : Store} {workspaceId integrationId : Uuid}
  {credentialId : Uuid} {now : Instant} {definition : ConnectorManifest} {document : Dict String}

theorem writeCredential_states {expiresAt : Option Instant}
    (ok : writeCredential deployment store workspaceId integrationId document expiresAt
      credentialId now = .ok next) : next.oauthStates = store.oauthStates :=
  (writeCredential_inverts ok).choose_spec.oauthStates

theorem insertIntegration_states {displayName accountIdentifier : String} {scopes : List String}
    {config : Dict String}
    (ok : insertIntegration store workspaceId integrationId definition displayName
      accountIdentifier scopes config now = .ok next) : next.oauthStates = store.oauthStates := by
  simp only [insertIntegration, bind_eq_ok, pure_eq_ok] at ok
  obtain ⟨_, _, _, _, rfl⟩ := ok
  rfl

theorem refreshIfNeeded_states {used : Dict String} {clock : Instant}
    (ok : refreshIfNeeded deployment store workspaceId integrationId definition document exchange
      credentialId clock now = .ok (used, next)) : next.oauthStates = store.oauthStates := by
  unfold refreshIfNeeded at ok
  split at ok
  · rw [pure_eq_ok, Prod.mk.injEq] at ok
    rw [← ok.2]
  · simp only [bind_eq_ok, pure_eq_ok, Prod.mk.injEq] at ok
    obtain ⟨_, _, answer, _, written, write, -, rfl⟩ := ok
    exact writeCredential_states write

/-- Only a start draws a state, and only its own. -/
theorem run_states {operation : Operation} (other : isComplete operation = false)
    (ok : Tenant.run deployment store operation = .ok next) :
    ∀ digest state, next.oauthStates.find? digest = some state →
      store.oauthStates.find? digest = some state ∨ drawnState operation = some digest := by
  have fewer (none_ : NoNewStates store next) : ∀ digest state,
      next.oauthStates.find? digest = some state →
        store.oauthStates.find? digest = some state ∨ drawnState operation = some digest :=
    fun digest state found => .inl (none_ digest state found)
  by_cases spares : operation.sparesVault = true
  · exact fewer (.of_eq (run_untouched spares ok).oauthStates)
  cases operation with
  | setMember | catalog | publishDefinition | install | setBinding | clearBinding
  | updateAgentInstance | uninstall | moveVersion | rollbackVersion | setPolicy
  | applyAutomaticUpdates => exact absurd rfl spares
  | completeOAuth => cases other
  | connect cached principal workspaceId body integrationId credentialId now =>
    simp only [Tenant.run, connect, bind_eq_ok] at ok
    obtain ⟨_, _, _, _, _, _, _, _, _, _, _, _, pending, insertion, write⟩ := ok
    exact fewer (.of_eq ((writeCredential_states write).trans
      (insertIntegration_states insertion)))
  | updateIntegration principal workspaceId integrationId body now =>
    simp only [Tenant.run, updateIntegration, bind_eq_ok, pure_eq_ok] at ok
    obtain ⟨_, _, _, _, rfl⟩ := ok
    exact fewer (.of_eq rfl)
  | rotate cached principal workspaceId integrationId credentials credentialId now =>
    simp only [Tenant.run, rotate, bind_eq_ok] at ok
    obtain ⟨_, _, _, _, _, _, _, _, fields, _, _, _, write⟩ := ok
    have written := writeCredential_states write
    exact fewer (.of_eq written)
  | disconnect principal workspaceId integrationId =>
    simp only [Tenant.run, disconnect, bind_eq_ok, pure_eq_ok] at ok
    obtain ⟨_, _, _, _, _, _, _, _, rfl⟩ := ok
    apply fewer
    intro digest state left
    rw [Table.find?_foldl_erase] at left
    split at left
    · cases left
    · exact left
  | testIntegration cached principal workspaceId integrationId exchange probe credentialId clock
      now =>
      simp only [Tenant.run, testIntegration, bind_eq_ok, pure_eq_ok] at ok
      obtain ⟨⟨report, after⟩, ⟨_, _, _, _, ⟨_, refreshed⟩, refresh, tested⟩, rfl⟩ := ok
      have early := refreshIfNeeded_states refresh
      have late : after.oauthStates = refreshed.oauthStates := by
        split at tested
        · rw [pure_eq_ok, Prod.mk.injEq] at tested
          rw [← tested.2]
          rfl
        · split at tested
          · rw [pure_eq_ok, Prod.mk.injEq] at tested
            rw [← tested.2]
            rfl
          · rw [pure_eq_ok, Prod.mk.injEq] at tested
            rw [← tested.2]
            rfl
      exact fewer (.of_eq (late.trans early))
  | refreshForCall cached workspaceId integrationId exchange credentialId clock now =>
    simp only [Tenant.run, refreshForCall, bind_eq_ok, pure_eq_ok] at ok
    obtain ⟨_, _, ⟨_, _⟩, refresh, rfl⟩ := ok
    exact fewer (.of_eq (refreshIfNeeded_states refresh))
  | startOAuth cached principal workspaceId body integrationId stateDigest clock now =>
    simp only [Tenant.run, startOAuth, bind_eq_ok, pure_eq_ok, inserted_eq_ok,
      Table.insert?_eq_some] at ok
    obtain ⟨_, _, _, _, _, _, _, _, _, _, _, _, pending, insertion, _, _, states, ⟨_, rfl⟩,
      rfl⟩ := ok
    intro digest state found
    obtain ⟨rfl, rfl⟩ | ⟨_, earlier⟩ := (Table.Written.put _ _ _).found found
    · exact .inr rfl
    · rw [insertIntegration_states insertion] at earlier
      exact .inl earlier

end Operations

theorem endOAuth_states {deployment : Deployment} {store next : Store} {call : CompleteCall}
    {credentialId : Uuid} {now : Instant}
    (ok : endOAuth deployment store call state exchange credentialId now = .ok next) :
    next.oauthStates = store.oauthStates.erase call.stateDigest := by
  simp only [endOAuth, bind_eq_ok] at ok
  obtain ⟨answer, _, write⟩ := ok
  exact writeCredential_states write

theorem beginOAuth_found {deployment : Deployment} {store : Store} {call : CompleteCall}
    (ok : beginOAuth deployment store call = .ok state) :
    store.oauthStates.find? call.stateDigest = some state := by
  simp only [beginOAuth, bind_eq_ok, orRaise_eq_ok, Option.filter_eq_some_iff, pure_eq_ok] at ok
  obtain ⟨_, _, _, ⟨found, _⟩, _, _, _, _, _, _, _, _, rfl⟩ := ok
  exact found

/-- Every pending state has been drawn, and so has every state a call holds. -/
structure Drawn (system : Authorizations) : Prop where
  pending : ∀ digest state, system.store.oauthStates.find? digest = some state →
    digest ∈ system.issued
  held : ∀ id held, system.calls.find? id = some held → held.1.stateDigest ∈ system.issued

/-- A state that has been sent: a call holds it, or it is gone for good. -/
def Taken (digest : Nat) (system : Authorizations) : Prop :=
  system.locked digest = true ∨
    (system.store.oauthStates.find? digest = none ∧ digest ∈ system.issued)

/-- What each step does, read off `run`. -/
inductive Stepped (deployment : Deployment) (system : Authorizations) :
    Step → Authorizations → Prop where
  | operate {operation next} (other : isComplete operation = false)
      (fresh : ∀ digest ∈ drawnState operation, digest ∉ system.issued)
      (ran : Tenant.run deployment system.store operation = .ok next) :
      Stepped deployment system (.operate operation)
        { system with store := next, issued := (drawnState operation).toList ++ system.issued }
  | sends {id call state} (free : system.admits call = true → system.locked call.stateDigest = false)
      (unused : system.calls.find? id = none)
      (begun : beginOAuth deployment system.store call = .ok state) :
      Stepped deployment system (.complete id call)
        { system with calls := system.calls.put id (call, state) }
  | refused {id call failure}
      (free : system.admits call = true → system.locked call.stateDigest = false)
      (begun : beginOAuth deployment system.store call = .error failure) :
      Stepped deployment system (.complete id call) system
  | lockTimeout {call} : Stepped deployment system (.lockTimeout call) system
  | commits {id exchange credentialId now held next}
      (holds : system.calls.find? id = some held)
      (ended : endOAuth deployment system.store held.1 held.2 exchange credentialId now =
        .ok next) :
      Stepped deployment system (.finish id exchange credentialId now)
        { system with store := next, calls := system.calls.erase id }
  | rollsBack {id exchange credentialId now held failure}
      (holds : system.calls.find? id = some held)
      (ended : endOAuth deployment system.store held.1 held.2 exchange credentialId now =
        .error failure) :
      Stepped deployment system (.finish id exchange credentialId now)
        { system with calls := system.calls.erase id }

theorem stepped_of_run {deployment : Deployment} {system next : Authorizations} {step : Step}
    (ok : run deployment system step = .ok next) : Stepped deployment system step next := by
  cases step with
  | operate operation =>
    simp only [run, bind_eq_ok, raiseIf_eq_ok, mapError_eq_ok, pure_eq_ok] at ok
    obtain ⟨_, other, _, fresh, after, ran, _, _, rfl⟩ := ok
    exact .operate (by simpa using other) (fun digest drawn old => fresh ⟨digest, drawn, old⟩) ran
  | complete id call =>
    simp only [run, bind_eq_ok, raiseIf_eq_ok] at ok
    obtain ⟨_, free, _, unused, ok⟩ := ok
    have unlocked : system.admits call = true → system.locked call.stateDigest = false := by
      intro admitted
      simpa [admitted] using free
    split at ok
    · rename_i state begun
      rw [pure_eq_ok] at ok
      exact ok ▸ .sends unlocked (not_not.mp unused) begun
    · rename_i failure begun
      rw [pure_eq_ok] at ok
      exact ok ▸ .refused unlocked begun
  | lockTimeout call =>
    simp only [run, bind_eq_ok, pure_eq_ok] at ok
    obtain ⟨_, _, rfl⟩ := ok
    exact .lockTimeout
  | finish id exchange credentialId now =>
    simp only [run, bind_eq_ok, orRaise_eq_ok] at ok
    obtain ⟨held, holds, ok⟩ := ok
    split at ok
    · rename_i after ended
      rw [pure_eq_ok] at ok
      exact ok ▸ .commits holds ended
    · rename_i failure ended
      rw [pure_eq_ok] at ok
      exact ok ▸ .rollsBack holds ended

variable {digest : Nat}

section Steps

variable {deployment : Deployment} {system next : Authorizations} {label : Step}

theorem Drawn.of_opening (opening : Opening system) : Drawn system where
  pending := opening.drawn
  held id held found := by
    rw [opening.quiet] at found
    simp at found

/-- Every step draws the states that come to be. -/
theorem Drawn.step (drawn : Drawn system) (stepped : Stepped deployment system label next) :
    Drawn next := by
  cases stepped with
  | operate other fresh ran =>
    constructor
    · intro digest state found
      rcases run_states other ran digest state found with earlier | isDrawn
      · exact List.mem_append_right _ (drawn.pending digest state earlier)
      · exact List.mem_append_left _ (by simp [isDrawn])
    · intro id held found
      exact List.mem_append_right _ (drawn.held id held found)
  | @sends id call state free unused begun =>
    refine ⟨drawn.pending, fun other held found => ?_⟩
    obtain ⟨rfl, rfl⟩ | ⟨_, earlier⟩ := (Table.Written.put _ _ _).found found
    · exact drawn.pending _ _ (beginOAuth_found begun)
    · exact drawn.held other held earlier
  | refused | lockTimeout => exact drawn
  | commits holds ended =>
    constructor
    · intro digest state found
      rw [endOAuth_states ended] at found
      exact drawn.pending digest state (Table.of_find?_erase found).2
    · intro other held found
      exact drawn.held other held (Table.of_find?_erase found).2
  | rollsBack holds ended =>
    refine ⟨drawn.pending, fun other held found => ?_⟩
    exact drawn.held other held (Table.of_find?_erase found).2

theorem locked_iff (digest : Nat) :
    system.locked digest = true ↔
      ∃ id held, system.calls.find? id = some held ∧ held.1.stateDigest = digest := by
  simp only [Authorizations.locked, Table.any_eq_true, decide_eq_true_eq]

/-- A taken state stays taken while every call that has sent a code commits. -/
theorem Taken.step (drawn : Drawn system) (taken : Taken digest system)
    (stepped : Stepped deployment system label next)
    (settles : Settles deployment ⟨system, label, next⟩) : Taken digest next := by
  cases stepped with
  | @operate operation next other fresh ran =>
    rcases taken with locked | ⟨gone, issued⟩
    · exact .inl locked
    · refine .inr ⟨?_, List.mem_append_right _ issued⟩
      cases found : next.oauthStates.find? digest with
      | none => rfl
      | some state =>
        rcases run_states other ran digest state found with earlier | isDrawn
        · rw [gone] at earlier
          cases earlier
        · exact absurd issued (fresh digest isDrawn)
  | @sends id call state free unused begun =>
    rcases taken with locked | gone
    · obtain ⟨other, held, found, isDigest⟩ := (locked_iff digest).mp locked
      have distinct : other ≠ id := by
        rintro rfl
        rw [unused] at found
        cases found
      refine .inl ((locked_iff digest).mpr ⟨other, held, ?_, isDigest⟩)
      rw [Table.find?_put_ne _ _ distinct]
      exact found
    · exact .inr gone
  | refused | lockTimeout => exact taken
  | @commits id exchange credentialId now held after holds ended =>
    have states := endOAuth_states ended
    by_cases isIt : held.1.stateDigest = digest
    · refine .inr ⟨?_, isIt ▸ drawn.held id held holds⟩
      rw [states, isIt, Table.find?_erase, if_pos rfl]
    · rcases taken with locked | ⟨gone, issued⟩
      · obtain ⟨other, otherHeld, found, isDigest⟩ := (locked_iff digest).mp locked
        have distinct : other ≠ id := by
          rintro rfl
          obtain rfl := Option.some.inj (found.symm.trans holds)
          exact isIt isDigest
        refine .inl ((locked_iff digest).mpr ⟨other, otherHeld, ?_, isDigest⟩)
        rw [Table.find?_erase, if_neg distinct]
        exact found
      · refine .inr ⟨?_, issued⟩
        rw [states, Table.find?_erase, gone]
        split <;> rfl
  | @rollsBack id exchange credentialId now held failure holds ended =>
    obtain ⟨after, commits⟩ := settles held holds
    rw [commits] at ended
    cases ended

/-- A call that sends its code takes the state. -/
theorem taken_of_sends (sends : Sends deployment digest ⟨system, label, next⟩)
    (stepped : Stepped deployment system label next) : Taken digest next := by
  obtain ⟨id, call, state, isLabel, isDigest, begun⟩ := sends
  cases stepped with
  | operate | lockTimeout | commits | rollsBack => cases isLabel
  | @sends other held row free unused took =>
    cases isLabel
    refine .inl ((locked_iff digest).mpr ⟨id, (call, row), ?_, isDigest⟩)
    simp
  | refused free failed =>
    cases isLabel
    rw [failed] at begun
    cases begun

/-- A manager's call with a taken state is refused, or waits too long. -/
theorem refused_of_taken {call : CompleteCall} (taken : Taken digest system)
    (stepped : Stepped deployment system label next)
    (settles : Settles deployment ⟨system, label, next⟩)
    (calls : Calls digest ⟨system, label, next⟩ call) :
    Refused deployment ⟨system, label, next⟩ call := by
  obtain ⟨isCall, withState, admitted⟩ := calls
  rcases isCall with ⟨id, isLabel⟩ | isLabel
  · refine ⟨⟨id, isLabel⟩, ?_⟩
    change label = _ at isLabel
    change system.admits call = true at admitted
    have free : system.locked digest = false := by
      subst isLabel
      cases stepped with
      | sends free unused begun => exact withState ▸ free admitted
      | refused free begun => exact withState ▸ free admitted
    have gone : system.store.oauthStates.find? call.stateDigest = none := by
      rcases taken with locked | ⟨gone, -⟩
      · rw [free] at locked
        cases locked
      · rw [withState]
        exact gone
    have member : scopedMember system.store.memberships call.principal call.workspaceId
        .manageIntegrations = .ok () := by
      unfold Authorizations.admits at admitted
      cases passed : scopedMember system.store.memberships call.principal call.workspaceId
          .manageIntegrations with
      | ok => rfl
      | error failure =>
        rw [passed] at admitted
        cases admitted
    change beginOAuth deployment system.store call = _
    rw [beginOAuth, member, gone]
    rfl
  · change label = _ at isLabel
    subst isLabel
    cases settles

end Steps

/-- While every call that has sent a code commits and none waits too long, a state is single
use. -/
theorem oauth_state_single_use (deployment : Deployment)
    (history : List (Transition Authorizations Step)) (system : Authorizations) (digest : Nat)
    (runs : (machine deployment).Runs history system)
    (settled : ∀ transition ∈ history, Settles deployment transition) :
    IsSingleUse deployment history digest := by
  have refused : ∀ earlier first later, history = earlier ++ first :: later →
      Sends deployment digest first → ∀ second ∈ later, ∀ call, Calls digest second call →
        Refused deployment second call := by
    intro earlier first later splits sends second member call calls
    obtain ⟨between, beyond, rfl⟩ := List.append_of_mem member
    have splitsSecond : history = (earlier ++ first :: between) ++ second :: beyond := by
      simpa using splits
    obtain ⟨untilSecond, second_, -⟩ := runs.split splitsSecond
    obtain ⟨untilFirst, first_, since⟩ := untilSecond.split rfl
    have drawnFirst : Drawn first.before :=
      untilFirst.invariant Drawn (fun _ opening => .of_opening opening)
        fun _ _ _ drawn step => drawn.step (stepped_of_run step)
    have held : Drawn second.before ∧ Taken digest second.before := by
      refine since.invariantWhile (fun system => Drawn system ∧ Taken digest system)
        (Settles deployment) ?_
        ⟨drawnFirst.step (stepped_of_run first_), taken_of_sends sends (stepped_of_run first_)⟩ ?_
      · rintro before label after ⟨drawn, taken⟩ step settles
        exact ⟨drawn.step (stepped_of_run step), taken.step drawn (stepped_of_run step) settles⟩
      · intro transition between_
        exact settled transition (by simp [splits, between_])
    exact refused_of_taken held.2 (stepped_of_run second_)
      (settled second (by simp [splits])) calls
  refine ⟨?_, refused⟩
  intro earlier first later splits sends second member again
  obtain ⟨id, call, state, isLabel, isDigest, begun⟩ := again
  have admitted : second.before.admits call = true := by
    simp only [beginOAuth, bind_eq_ok] at begun
    obtain ⟨_, passed, -⟩ := begun
    simp only [Authorizations.admits, passed]
    rfl
  have refusal := refused earlier first later splits sends second member call
    ⟨.inl ⟨id, isLabel⟩, isDigest, admitted⟩
  rw [refusal.2] at begun
  cases begun

/-- A workspace with a manager and a registered provider, before anything is connected. -/
def registered : Authorizations where
  store :=
    { memberships := Table.ofList [((7, Vault.manager), .admin)]
      catalog :=
        { tables :=
            { workspaces := [7], agents := .empty, versions := .empty, entitlements := .empty,
              rollouts := .empty }
          consistent := by decide }
      definitions := Table.ofList [("google-search-console", Vault.searchConsole)]
      integrations := .empty
      credentials := .empty
      oauthStates := .empty
      updatePolicies := .empty
      tenantAgents := .empty
      bindings := .empty
      versionEvents := .empty }
  issued := []
  calls := .empty

theorem opening_registered : Opening registered where
  quiet := rfl
  drawn digest state found := by simp [registered] at found

/-- The manager starts an authorization with state 5. -/
def startSite : Step :=
  .operate (.startOAuth none Vault.manager 7
    { integrationDefinitionId := "google-search-console", displayName := "Site"
      accountIdentifier := "site", scopes := [] } 20 5 1 1)

/-- The manager's call with that state. -/
def callSite : CompleteCall where
  cached := none
  principal := Vault.manager
  workspaceId := 7
  stateDigest := 5
  clock := 2

/-- Whether a transition settles, decided. -/
def settlesB (deployment : Deployment) (transition : Transition Authorizations Step) : Bool :=
  match transition.label with
  | .finish id exchange credentialId now =>
    (transition.before.calls.find? id).all fun held =>
      (endOAuth deployment transition.before.store held.1 held.2 exchange credentialId
        now).toBool
  | .lockTimeout _ => false
  | .operate _ | .complete _ _ => true

variable {transition : Transition Authorizations Step}

theorem settles_of_settlesB {deployment : Deployment}
    (settles : settlesB deployment transition = true) : Settles deployment transition := by
  unfold Settles
  unfold settlesB at settles
  split
  · rename_i id exchange credentialId now isFinish
    simp only [isFinish, Option.all_eq_true] at settles
    intro held found
    have ended := settles held found
    cases outcome : endOAuth deployment transition.before.store held.1 held.2 exchange credentialId
        now with
    | ok next => exact ⟨next, rfl⟩
    | error failure =>
      rw [outcome] at ended
      cases ended
  · rename_i call isTimeout
    simp [isTimeout] at settles
  · trivial
  · trivial

/-- The calls of a history that send a code of a state. -/
def sendsB (deployment : Deployment) (digest : Nat) (transition : Transition Authorizations Step) :
    Bool :=
  match transition.label with
  | .complete _ call =>
    call.stateDigest = digest && (beginOAuth deployment transition.before.store call).toBool
  | _ => false

theorem sends_of_sendsB {deployment : Deployment}
    (sends : sendsB deployment digest transition = true) : Sends deployment digest transition := by
  unfold sendsB at sends
  split at sends
  · rename_i id call isCall
    rw [Bool.and_eq_true, decide_eq_true_eq] at sends
    cases begun : beginOAuth deployment transition.before.store call with
    | ok state => exact ⟨id, call, state, isCall, sends.1, begun⟩
    | error failure =>
      rw [begun] at sends
      cases sends.2
  · cases sends

/-- `oauth_state_single_use` applies to two calls of which the first commits. -/
theorem oauth_state_single_use_committed :
    ∃ history system, (machine Vault.registeredDeployment).Runs history system ∧
      history.length = 4 ∧ IsSingleUse Vault.registeredDeployment history 5 := by
  obtain ⟨history, system, runs, checked⟩ := Machine.exists_run_of_trace Opening
    (run Vault.registeredDeployment)
    [startSite, .complete 1 callSite, .finish 1 (.ok Vault.firstTokens) 21 3, .complete 2 callSite]
    registered
    (fun history _ => history.length = 4 && history.all (settlesB Vault.registeredDeployment))
    opening_registered (by decide +kernel)
  rw [Bool.and_eq_true, decide_eq_true_eq, List.all_eq_true] at checked
  exact ⟨history, system, runs, checked.1, oauth_state_single_use Vault.registeredDeployment
    history system 5 runs fun transition member =>
      settles_of_settlesB (checked.2 transition member)⟩

/-- The provider rejects the first code, the state is there again, and a second code is sent. -/
theorem rejected_exchange_restores_state :
    ¬ ∀ (deployment : Deployment) (history : List (Transition Authorizations Step))
        (system : Authorizations) (digest : Nat), (machine deployment).Runs history system →
        IsSingleUse deployment history digest := by
  intro always
  obtain ⟨history, system, runs, checked⟩ := Machine.exists_run_of_trace Opening
    (run Vault.registeredDeployment)
    [startSite, .complete 1 callSite,
      .finish 1 (.error (.http 502 (some "The provider rejected the authorization"))) 21 3,
      .complete 2 callSite]
    registered
    (fun history _ => Machine.splitsAt history 1 fun _ first later =>
      sendsB Vault.registeredDeployment 5 first &&
        later.any (sendsB Vault.registeredDeployment 5)) opening_registered (by decide +kernel)
  obtain ⟨earlier, first, later, splits, both⟩ := Machine.exists_split checked
  rw [Bool.and_eq_true, List.any_eq_true] at both
  obtain ⟨firstSends, second, member, secondSends⟩ := both
  exact (always Vault.registeredDeployment history system 5 runs).once earlier first later splits
    (sends_of_sendsB firstSends) second member (sends_of_sendsB secondSends)

end Nexora.Tenant.SingleUse
