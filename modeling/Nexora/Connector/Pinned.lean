import Nexora.Connector.Snapshots

/-!
# Calls are pinned to their snapshot

A call compares what it reads with what its run's snapshot froze and holds the binding it has
found, so a request on the wire is the one the snapshot describes, whatever else commits
between the call's statements.
-/

namespace Nexora.Connector

open Nexora.Std Nexora.Workspace Nexora.Integration Nexora.Tenant Json

variable {host : Host} {history : List (Transition Fleet FleetRequest)} {fleet next : Fleet}
  {request : FleetRequest} {integrationId : Uuid} {spec : ConnectorSpec} {capability : String}
  {context : CallContext} {store : Tenant.Store}

/-- The connection's row, once a call has read it. -/
def CallStage.row? : CallStage → Option IntegrationRow
  | .read row | .defined row _ | .opened row _ _ | .refreshed row _ _ => some row
  | _ => none

/-- The document a call would use, once it has opened the credential. -/
def CallStage.document? : CallStage → Option (Dict String)
  | .opened _ _ document | .refreshed _ _ document => some document
  | _ => none

/-- The call has not looked at its binding yet. -/
def CallStage.isBegun : CallStage → Bool
  | .begun => true
  | _ => false

/-- What holds of a call in progress. -/
structure CallHolds (host : Host) (history : List (Transition Fleet FleetRequest)) (fleet : Fleet)
    (call : Call) : Prop where
  ofRun : ∃ run, fleet.runs.find? call.runId = some run ∧ call.context = run.context ∧
    standardSpec call.context.kind call.integrationId call.capability = .ok call.spec
  bound : call.stage.isBegun = false →
    checkBinding fleet.tenant.bindings call.context call.integrationId call.spec = .ok ()
  row : ∀ row, call.stage.row? = some row → ∃ store, Seen history fleet store ∧
    store.integrations.find? call.integrationId = some row ∧
      row.workspaceId = call.context.workspaceId
  document : ∀ row document, call.stage.row? = some row → call.stage.document? = some document →
    ∃ store reference credential, Seen history fleet store ∧
      row.credentialReference = some reference ∧
        store.credentials.find? reference = some credential ∧
          (row.authType ≠ .oauth2 → document = credential.document)
  target : ∀ row document, call.stage.row? = some row → call.stage.document? = some document →
    validateStandardTarget host.platform.runtime row call.spec = .ok ()
  renewal : call.renewal ≠ none → ∃ row,
    fleet.tenant.integrations.find? call.integrationId = some row ∧
      row.workspaceId = call.context.workspaceId ∧ row.authType = .oauth2

/-- A check of a binding depends on the row under the snapshot's key only. -/
theorem checkBinding_congr {first second : Table (Uuid × String) BindingRow}
    {spec : Option ConnectorSpec}
    (same : ∀ found ∈ spec, ∀ key ∈ found.bindingKey,
      second.find? (context.agentId, key) = first.find? (context.agentId, key)) :
    checkBinding second context integrationId spec =
      checkBinding first context integrationId spec := by
  cases spec with
  | none => rfl
  | some found =>
    cases isKey : found.bindingKey with
    | none => simp [checkBinding, isKey, orRaise, bind, Except.bind]
    | some key =>
      have sameRow := same found rfl key isKey
      simp only [checkBinding, isKey, orRaise, bind, Except.bind, sameRow]

/-- A call goes on holding what it knows while the others leave it what it holds. -/
theorem CallHolds.mono {call : Call} (holds : CallHolds host history fleet call)
    (respects : call.respects fleet.tenant next.tenant = true)
    (runs : ∀ runId run, fleet.runs.find? runId = some run → next.runs.find? runId = some run) :
    CallHolds host (history ++ [⟨fleet, request, next⟩]) next call := by
  have later : ∀ {store}, Seen history fleet store →
      Seen (history ++ [⟨fleet, request, next⟩]) next store := fun seen => Seen.append.mpr (.inr seen)
  unfold Call.respects at respects
  rw [Bool.and_eq_true] at respects
  obtain ⟨bindings, connection⟩ := respects
  constructor
  case ofRun =>
    obtain ⟨run, found, rest⟩ := holds.ofRun
    exact ⟨run, runs _ _ found, rest⟩
  case bound =>
    intro begun
    rw [checkBinding_congr, holds.bound begun]
    cases stage : call.stage <;> simp_all [CallStage.isBegun]
  case row =>
    intro row isRow
    obtain ⟨store, seen, rest⟩ := holds.row row isRow
    exact ⟨store, later seen, rest⟩
  case document =>
    intro row document isRow isDocument
    obtain ⟨store, reference, credential, seen, rest⟩ := holds.document row document isRow isDocument
    exact ⟨store, reference, credential, later seen, rest⟩
  case target => exact holds.target
  case renewal =>
    intro renewed
    obtain ⟨row, found, rest⟩ := holds.renewal renewed
    have sameRow : next.tenant.integrations.find? call.integrationId =
        fleet.tenant.integrations.find? call.integrationId := by
      cases isRenewal : call.renewal with
      | none => exact absurd isRenewal renewed
      | some renewal => simpa [isRenewal] using connection
    exact ⟨row, sameRow.trans found, rest⟩

theorem Call.respects_refl (call : Call) (tenant : Tenant.Store) :
    call.respects tenant tenant = true := by
  unfold Call.respects
  cases call.stage <;> simp

/-- What holds after any run: of the stores it went through, of the runs it created and of
the calls in progress. -/
structure Pins (host : Host) (history : List (Transition Fleet FleetRequest)) (fleet : Fleet) :
    Prop where
  kept : Kept history fleet
  runs : ∀ runId run, fleet.runs.find? runId = some run →
    ∃ creation ∈ history, Creates host.platform.runtime creation runId run
  calls : ∀ callId call, fleet.calls.find? callId = some call → CallHolds host history fleet call

theorem Pins.initial (unused : Unused fleet) : Pins host [] fleet where
  kept := .initial unused
  runs runId run found := by
    rw [unused.runs] at found
    simp at found
  calls callId call found := by
    rw [unused.calls] at found
    simp at found

/-- A step that does to the tenancy store, the runs and the calls what a step may do. -/
theorem Pins.step (pins : Pins host history fleet) {draws : List Uuid}
    (tenant : TenantStep fleet next draws)
    (runs : RunsStep host.platform.runtime ⟨fleet, request, next⟩)
    (calls : ∀ callId call, next.calls.find? callId = some call →
      CallHolds host (history ++ [⟨fleet, request, next⟩]) next call) :
    Pins host (history ++ [⟨fleet, request, next⟩]) next where
  kept := pins.kept.step tenant
  runs runId run found := by
    rcases runs.created runId run found with earlier | creates
    · obtain ⟨creation, member, creates⟩ := pins.runs runId run earlier
      exact ⟨creation, List.mem_append_left _ member, creates⟩
    · exact ⟨_, List.mem_append_right _ (List.mem_singleton_self _), creates⟩
  calls := calls

/-- A step that leaves the tenancy store and the calls alone. -/
theorem Pins.idle (pins : Pins host history fleet) (tenant : next.tenant = fleet.tenant)
    (drawn : next.drawn = fleet.drawn) (calls : next.calls = fleet.calls)
    (runs : RunsStep host.platform.runtime ⟨fleet, request, next⟩) :
    Pins host (history ++ [⟨fleet, request, next⟩]) next := by
  refine pins.step (.idle (pins.kept.isSealed _ (.now _ _)) tenant drawn) runs ?_
  intro callId call found
  rw [calls] at found
  refine (pins.calls callId call found).mono ?_ runs.kept
  rw [tenant]
  exact call.respects_refl _

/-- A statement of a call that leaves the tenancy store alone. -/
theorem Pins.progressed (pins : Pins host history fleet) {callId : Nat} {call changed : Call}
    (found : fleet.calls.find? callId = some call)
    (holds : CallHolds host (history ++ [⟨fleet, request, fleet.progress callId changed⟩])
        (fleet.progress callId changed) call →
      CallHolds host (history ++ [⟨fleet, request, fleet.progress callId changed⟩])
        (fleet.progress callId changed) changed) :
    Pins host (history ++ [⟨fleet, request, fleet.progress callId changed⟩])
      (fleet.progress callId changed) := by
  refine pins.step (.idle (pins.kept.isSealed _ (.now _ _)) rfl rfl) (.idle rfl) ?_
  intro other otherCall later
  obtain ⟨rfl, rfl⟩ | ⟨_, earlier⟩ := (Table.Written.put _ _ _).found later
  · exact holds ((pins.calls _ call found).mono (call.respects_refl _) fun _ _ => id)
  · exact (pins.calls other otherCall earlier).mono (otherCall.respects_refl _) fun _ _ => id

section Statements

variable {callId : Nat}

theorem beginCall_pins (pins : Pins host history fleet) {runId : Uuid}
    {arguments : List (PyStr × Json)}
    (ok : fleet.beginCall callId runId integrationId capability arguments = .ok next) :
    Pins host (history ++ [⟨fleet, request, next⟩]) next := by
  simp only [Fleet.beginCall, bind_eq_ok, orRaise_eq_ok, mapError_eq_ok, pure_eq_ok] at ok
  obtain ⟨_, _, run, found, spec, isSpec, rfl⟩ := ok
  refine pins.step (.idle (pins.kept.isSealed _ (.now _ _)) rfl rfl) (.idle rfl) ?_
  intro other otherCall later
  obtain ⟨rfl, rfl⟩ | ⟨_, earlier⟩ := (Table.Written.put _ _ _).found later
  · constructor
    case ofRun => exact ⟨run, found, rfl, isSpec⟩
    case bound => simp [CallStage.isBegun]
    case row => simp [CallStage.row?]
    case document => simp [CallStage.row?]
    case target => simp [CallStage.row?]
    case renewal => simp
  · exact (pins.calls other otherCall earlier).mono (otherCall.respects_refl _) fun _ _ => id

theorem shareBinding_pins (pins : Pins host history fleet)
    (ok : fleet.shareBinding callId = .ok next) :
    Pins host (history ++ [⟨fleet, request, next⟩]) next := by
  simp only [Fleet.shareBinding, Fleet.call?, bind_eq_ok, orRaise_eq_ok] at ok
  obtain ⟨call, found, ok⟩ := ok
  split at ok
  case h_1 =>
    simp only [bind_eq_ok, mapError_eq_ok, pure_eq_ok] at ok
    obtain ⟨_, bound, rfl⟩ := ok
    refine pins.progressed found fun holds => ?_
    exact ⟨holds.ofRun, fun _ => bound, by simp [CallStage.row?], by simp [CallStage.row?],
      by simp [CallStage.row?], holds.renewal⟩
  case h_2 => cases ok

theorem readRow_pins (pins : Pins host history fleet) (ok : fleet.readRow callId = .ok next) :
    Pins host (history ++ [⟨fleet, request, next⟩]) next := by
  simp only [Fleet.readRow, Fleet.call?, bind_eq_ok, orRaise_eq_ok] at ok
  obtain ⟨call, found, ok⟩ := ok
  split at ok
  case h_1 stage =>
    simp only [bind_eq_ok, mapError_eq_ok, integrationRow_eq_ok, pure_eq_ok] at ok
    obtain ⟨row, ⟨present, own⟩, _, _, _, _, rfl⟩ := ok
    refine pins.progressed found fun holds => ?_
    refine ⟨holds.ofRun, fun _ => holds.bound (by rw [stage]; rfl), ?_, by simp [CallStage.document?],
      by simp [CallStage.document?], holds.renewal⟩
    intro isRow same
    obtain rfl := Option.some.inj same
    exact ⟨fleet.tenant, Seen.append.mpr (.inr (.now _ _)), present, own⟩
  case h_2 => cases ok

theorem readDefinition_pins (pins : Pins host history fleet) {cached : Option ConnectorManifest}
    (ok : fleet.readDefinition callId cached = .ok next) :
    Pins host (history ++ [⟨fleet, request, next⟩]) next := by
  simp only [Fleet.readDefinition, Fleet.call?, bind_eq_ok, orRaise_eq_ok] at ok
  obtain ⟨call, found, ok⟩ := ok
  split at ok
  case h_1 row stage =>
    simp only [bind_eq_ok, mapError_eq_ok, pure_eq_ok] at ok
    obtain ⟨current, _, rfl⟩ := ok
    refine pins.progressed found fun holds => ?_
    refine ⟨holds.ofRun, fun _ => holds.bound (by rw [stage]; rfl), ?_, by simp [CallStage.document?],
      by simp [CallStage.document?], holds.renewal⟩
    intro isRow same
    exact holds.row isRow (by rw [stage]; exact same)
  case h_2 => cases ok

theorem openCredential_pins (pins : Pins host history fleet)
    (ok : fleet.openCredential host callId = .ok next) :
    Pins host (history ++ [⟨fleet, request, next⟩]) next := by
  simp only [Fleet.openCredential, Fleet.call?, bind_eq_ok, orRaise_eq_ok] at ok
  obtain ⟨call, found, ok⟩ := ok
  split at ok
  case h_1 row current stage =>
    simp only [bind_eq_ok, orRaise_eq_ok, mapError_eq_ok, pure_eq_ok, Option.filter_eq_some_iff,
      Option.bind_eq_some_iff] at ok
    obtain ⟨credential, ⟨⟨reference, isReference, stored⟩, _⟩, _, _, _, _, _, target, rfl⟩ := ok
    refine pins.progressed found fun holds => ?_
    refine ⟨holds.ofRun, fun _ => holds.bound (by rw [stage]; rfl), ?_, ?_, ?_, holds.renewal⟩
    · intro isRow same
      exact holds.row isRow (by rw [stage]; exact same)
    · intro isRow document same isDocument
      obtain rfl := Option.some.inj same
      obtain rfl := Option.some.inj isDocument
      exact ⟨fleet.tenant, reference, credential, Seen.append.mpr (.inr (.now _ _)), isReference,
        stored, fun _ => rfl⟩
    · intro isRow document same _
      obtain rfl := Option.some.inj same
      exact target
  case h_2 => cases ok

theorem refresh_pins (pins : Pins host history fleet) {exchange : Except Failure TokenAnswer}
    {clock : Instant} (ok : fleet.refresh host callId exchange clock = .ok next) :
    Pins host (history ++ [⟨fleet, request, next⟩]) next := by
  simp only [Fleet.refresh, Fleet.call?, bind_eq_ok, orRaise_eq_ok] at ok
  obtain ⟨call, found, ok⟩ := ok
  split at ok
  case h_1 row current document stage =>
    split at ok
    case h_1 =>
      obtain rfl := Except.ok.inj ok
      refine pins.progressed found fun holds => ?_
      refine ⟨holds.ofRun, fun _ => holds.bound (by rw [stage]; rfl), ?_, ?_, ?_, holds.renewal⟩
      · intro isRow same
        exact holds.row isRow (by rw [stage]; exact same)
      · intro isRow isDocument same opened
        exact holds.document isRow isDocument (by rw [stage]; exact same) (by rw [stage]; exact opened)
      · intro isRow isDocument same opened
        exact holds.target isRow isDocument (by rw [stage]; exact same) (by rw [stage]; exact opened)
    case h_2 refreshToken due =>
      simp only [bind_eq_ok, mapError_eq_ok, raiseIf_eq_ok, pure_eq_ok] at ok
      obtain ⟨_, _, answer, _, _, exists_, rfl⟩ := ok
      obtain ⟨rowNow, present⟩ := Option.ne_none_iff_exists'.mp exists_
      have isOAuth := isOAuth_of_refreshDue (pins.kept.isSealed _ (.now _ _)) due present
      refine pins.progressed found fun holds => ?_
      -- The row that was read is of the same kind as the one that is there now.
      have sameRow : ∀ isRow, call.stage.row? = some isRow →
          isRow.workspaceId = call.context.workspaceId ∧ SameMaking isRow rowNow := by
        intro isRow same
        obtain ⟨store, seen, wasThere, own⟩ := (pins.calls _ call found).row isRow same
        exact ⟨own, (pins.kept.agree _ _ seen (.now _ _)).rows _ _ _ wasThere present⟩
      refine ⟨holds.ofRun, fun _ => holds.bound (by rw [stage]; rfl), ?_, ?_, ?_, ?_⟩
      · intro isRow same
        exact holds.row isRow (by rw [stage]; exact same)
      · intro isRow isDocument same _
        obtain rfl := Option.some.inj same
        obtain ⟨store, reference, credential, seen, isReference, stored, _⟩ :=
          holds.document row document (by rw [stage]; rfl) (by rw [stage]; rfl)
        refine ⟨store, reference, credential, seen, isReference, stored, fun other => ?_⟩
        exact absurd ((sameRow row (by rw [stage]; rfl)).2.authType.trans isOAuth) other
      · intro isRow isDocument same _
        obtain rfl := Option.some.inj same
        exact holds.target row document (by rw [stage]; rfl) (by rw [stage]; rfl)
      · intro _
        obtain ⟨own, same⟩ := sameRow row (by rw [stage]; rfl)
        exact ⟨rowNow, present, same.workspaceId.symm.trans own, isOAuth⟩
  case h_2 => cases ok

theorem send_pins (pins : Pins host history fleet) {network : Network}
    (ok : fleet.send host callId network = .ok next) :
    Pins host (history ++ [⟨fleet, request, next⟩]) next := by
  simp only [Fleet.send, Fleet.call?, bind_eq_ok, orRaise_eq_ok] at ok
  obtain ⟨call, found, ok⟩ := ok
  split at ok
  case h_1 row current document stage =>
    simp only [bind_eq_ok, mapError_eq_ok, pure_eq_ok] at ok
    obtain ⟨_, _, sent, _, rfl⟩ := ok
    refine pins.progressed found fun holds => ?_
    exact ⟨holds.ofRun, fun _ => holds.bound (by rw [stage]; rfl), by simp [CallStage.row?],
      by simp [CallStage.row?], by simp [CallStage.row?], holds.renewal⟩
  case h_2 => cases ok

/-- A change that waits for no call leaves each what it holds. -/
theorem respects_of_free {self : Option Nat} {tenant : Tenant.Store} {call : Call}
    (free : fleet.isBlocked self tenant = false) (found : fleet.calls.find? callId = some call)
    (other : some callId ≠ self) : call.respects fleet.tenant tenant = true := by
  by_contra disturbs
  have blocked : fleet.isBlocked self tenant = true := by
    rw [Fleet.isBlocked, Table.any_eq_true]
    exact ⟨callId, call, found, by simp [other, disturbs]⟩
  rw [free] at blocked
  cases blocked

/-- What is drawn is new. -/
theorem draw_eq_ok {ids : List Uuid} :
    fleet.draw ids = .ok () ↔ ∀ id ∈ ids, id ∉ fleet.drawn ∧ id < 2 ^ 128 := by
  simp only [Fleet.draw, raiseIf_eq_ok]
  push Not
  exact Iff.rfl

theorem finish_pins (pins : Pins host history fleet) {commits : Bool} {credentialId : Uuid}
    {now : Instant} (ok : fleet.finish host callId commits credentialId now = .ok next) :
    Pins host (history ++ [⟨fleet, request, next⟩]) next := by
  simp only [Fleet.finish, Fleet.call?, bind_eq_ok, orRaise_eq_ok] at ok
  obtain ⟨call, found, ok⟩ := ok
  have isSealed := pins.kept.isSealed _ (.now _ _)
  -- A call that wrote nothing leaves the others as they are.
  have ends : Pins host
      (history ++ [⟨fleet, request, { fleet with calls := fleet.calls.erase callId }⟩])
      { fleet with calls := fleet.calls.erase callId } := by
    refine pins.step (.idle isSealed rfl rfl) (.idle rfl) ?_
    intro other otherCall later
    obtain ⟨_, earlier⟩ := Table.of_find?_erase later
    exact (pins.calls other otherCall earlier).mono (otherCall.respects_refl _) fun _ _ => id
  split at ok
  case h_1 =>
    obtain rfl := Except.ok.inj ok
    exact ends
  case h_2 =>
    obtain rfl := Except.ok.inj ok
    exact ends
  case h_3 document expiresAt _ isRenewal =>
    simp only [bind_eq_ok, mapError_eq_ok, raiseIf_eq_ok, pure_eq_ok, Bool.not_eq_true] at ok
    obtain ⟨_, draws, tenant, writes, _, free, rfl⟩ := ok
    obtain ⟨row, written⟩ := writeCredential_inverts writes
    obtain ⟨renewedRow, present, own, isOAuth⟩ :=
      (pins.calls callId call found).renewal (by rw [isRenewal]; simp)
    obtain rfl := Option.some.inj (present.symm.trans written.present)
    have later := written.sealed_after isSealed own fun other => absurd isOAuth other
    have step : TenantStep fleet { fleet with
        calls := fleet.calls.erase callId, tenant := tenant
        drawn := credentialId :: fleet.drawn } [credentialId] :=
      ⟨draw_eq_ok.mp draws, rfl, later, written.keeps isSealed⟩
    refine pins.step step (.idle rfl) ?_
    intro other otherCall later
    obtain ⟨distinct, earlier⟩ := Table.of_find?_erase later
    refine (pins.calls other otherCall earlier).mono ?_ fun _ _ => id
    exact respects_of_free free earlier (by simpa using distinct)
  case h_4 => cases ok

theorem operate_pins (pins : Pins host history fleet) {operation : Tenant.Operation}
    (ok : fleet.operate host operation = .ok next) :
    Pins host (history ++ [⟨fleet, request, next⟩]) next := by
  simp only [Fleet.operate, bind_eq_ok, mapError_eq_ok, raiseIf_eq_ok, pure_eq_ok,
    Bool.not_eq_true] at ok
  obtain ⟨_, draws, tenant, runs, _, free, rfl⟩ := ok
  obtain ⟨isSealed, keeps⟩ := run_sealed (pins.kept.isSealed _ (.now _ _)) runs
  have step : TenantStep fleet { fleet with
      tenant := tenant, drawn := operation.draws ++ fleet.drawn } operation.draws :=
    ⟨draw_eq_ok.mp draws, rfl, isSealed, keeps⟩
  refine pins.step step (.idle rfl) ?_
  intro callId call found
  refine (pins.calls callId call found).mono ?_ fun _ _ => id
  exact respects_of_free free found (by simp)

end Statements

/-- Every request, task and statement keeps what is held. -/
theorem run_pins (pins : Pins host history fleet) (ok : fleet.run host request = .ok next) :
    Pins host (history ++ [⟨fleet, request, next⟩]) next := by
  cases request with
  | tenant operation => exact operate_pins pins ok
  | upsertTool | sync =>
    simp only [Fleet.run, bind_eq_ok, mapError_eq_ok, pure_eq_ok] at ok
    obtain ⟨tools, _, rfl⟩ := ok
    exact pins.idle rfl rfl rfl (.idle rfl)
  | disable workspaceId integrationId =>
    simp only [Fleet.run, pure_eq_ok] at ok
    obtain rfl := ok
    exact pins.idle rfl rfl rfl (.idle rfl)
  | createCustomRun principal workspaceId agentId input idempotencyKey runId =>
    simp only [Fleet.run, bind_eq_ok, mapError_eq_ok, pure_eq_ok] at ok
    obtain ⟨runs, creates, rfl⟩ := ok
    refine pins.idle rfl rfl rfl ?_
    rcases createCustomRun_inserts creates with rfl | ⟨row, inserts, isCustom⟩
    · exact .idle rfl
    · refine .inserted inserts fun _ _ isStandard => ?_
      rw [isCustom] at isStandard
      cases isStandard
  | createStandardRun principal workspaceId agentId input idempotencyKey runId toolIds =>
    simp only [Fleet.run, bind_eq_ok, mapError_eq_ok, pure_eq_ok] at ok
    obtain ⟨created, creates, rfl⟩ := ok
    obtain ⟨manifest, settings, contracts, freezes, same | ⟨row, inserts, inWorkspace, target⟩⟩ :=
      createStandardRun_inserts creates
    · exact pins.idle rfl rfl rfl (.idle same)
    · refine pins.idle rfl rfl rfl (.inserted inserts fun standardId frozen isStandard => ?_)
      rw [target] at isStandard
      cases isStandard
      rw [inWorkspace]
      exact connectorRunContracts_frozen freezes
  | beginCall callId runId integrationId capability arguments => exact beginCall_pins pins ok
  | shareBinding callId => exact shareBinding_pins pins ok
  | readRow callId => exact readRow_pins pins ok
  | readDefinition callId cached => exact readDefinition_pins pins ok
  | openCredential callId => exact openCredential_pins pins ok
  | refresh callId exchange clock => exact refresh_pins pins ok
  | send callId network => exact send_pins pins ok
  | finish callId commits credentialId now => exact finish_pins pins ok

/-- Every run keeps its calls pinned. -/
theorem pins_of_runs (runs : (fleetMachine host).Runs history fleet) : Pins host history fleet :=
  runs.invariantWithHistory (Pins host) (fun _ => .initial)
    (fun _ _ _ _ pins step => run_pins pins step)

/-- A store binds a key of an agent to a connection. -/
def Binds (store : Tenant.Store) (workspaceId agentId : Uuid) (key : String)
    (integrationId : Uuid) : Prop :=
  ∃ binding, store.bindings.find? (agentId, key) = some binding ∧
    binding.workspaceId = workspaceId ∧ binding.tenantIntegrationId = integrationId

theorem binds_of_checkBinding {key : String}
    (ok : checkBinding store.bindings context integrationId (some spec) = .ok ())
    (isKey : spec.bindingKey = some key) :
    Binds store context.workspaceId context.agentId key integrationId := by
  simp only [checkBinding, isKey, bind_eq_ok, orRaise_eq_ok, raiseIf_eq_ok,
    Option.filter_eq_some_iff, decide_eq_true_eq, Option.some.injEq, exists_eq_left',
    ne_eq, Decidable.not_not] at ok
  obtain ⟨binding, ⟨found, inWorkspace⟩, isBound⟩ := ok
  exact ⟨binding, found, inWorkspace, isBound⟩

/-- A connection that passes has the snapshot's configuration, and its credential if the
snapshot names one. -/
theorem target_of_validate {runtime : Tools.Runtime} {row : IntegrationRow}
    (ok : validateStandardTarget runtime row (some spec) = .ok ()) :
    spec.configFingerprint = some (configFingerprint runtime row.config) ∧
      ∀ expected, spec.credentialReference = some (some expected) →
        row.credentialReference.map Uuid.text = some expected := by
  simp only [validateStandardTarget, bind_eq_ok, orRaise_eq_ok, raiseIf_eq_ok, ne_eq,
    Decidable.not_not] at ok
  obtain ⟨_, sameConfig, frozen, isFrozen, ok⟩ := ok
  refine ⟨sameConfig, fun expected named => ?_⟩
  obtain rfl := Option.some.inj (isFrozen.symm.trans named)
  simpa only [raiseIf_eq_ok, Decidable.not_not] using ok

/-- The definition a standard run's call uses is the snapshot's. -/
theorem usedDefinition_frozen {current used frozen : ConnectorManifest} {row : IntegrationRow}
    (isFrozen : spec.definition = some (.ok frozen))
    (ok : usedDefinition current row capability (some spec) = .ok used) : used = frozen := by
  simp only [usedDefinition, bind_eq_ok, orRaise_eq_ok, mapError_eq_ok, pure_eq_ok] at ok
  obtain ⟨_, _, document, isDocument, _, _, definition, parsed, _, _, rfl⟩ := ok
  obtain rfl := Option.some.inj (isDocument.symm.trans isFrozen)
  exact (Except.ok.inj parsed).symm

/-- A request is the one a run's snapshot describes: the connection was bound under the key
when the run was created and is bound under it now, the request is made by the definition as
it was then, the configuration has the fingerprint of the one the connection had, and unless
its tokens are renewed the credential is the one the connection referred to. -/
structure PinnedTo (host : Host) (creation now : Tenant.Store) (workspaceId agentId : Uuid)
    (contracts : RunContracts) (integrationId : Uuid) (capability : String)
    (request : HttpRequest) (key : String) (row : IntegrationRow)
    (definition : ConnectorManifest) : Prop where
  frozen : ∃ entry ∈ contracts.connectorTools, entry.2 =
    frozenSpec host.platform.runtime key capability integrationId row definition
  wasBound : Binds creation workspaceId agentId key integrationId
  isBound : Binds now workspaceId agentId key integrationId
  connection : creation.integrations.find? integrationId = some row
  published : creation.definitions.find? row.integrationDefinitionId = some definition
  made : ∃ config document,
    MadeBy host.deployment.library definition capability document config request ∧
      configFingerprint host.platform.runtime config =
        configFingerprint host.platform.runtime row.config ∧
      (row.authType ≠ .oauth2 → ∃ reference credential,
        row.credentialReference = some reference ∧
          creation.credentials.find? reference = some credential ∧
            document = credential.document)

/-- The snapshot's tool a standard run's call is made under. -/
theorem standardSpec_listed {connectorTools : List (String × ConnectorSpec)}
    {spec : Option ConnectorSpec}
    (ok : standardSpec (.standard (some (connectorTools.map Prod.snd))) integrationId capability =
      .ok spec) :
    ∃ entry ∈ connectorTools, spec = some entry.2 ∧
      entry.2.tenantIntegrationId = some integrationId.text ∧
        entry.2.capability = some capability := by
  simp only [standardSpec, bind_eq_ok, orRaise_eq_ok, pure_eq_ok, Option.some.injEq,
    exists_eq_left'] at ok
  obtain ⟨found, listed, rfl⟩ := ok
  have meets := List.find?_some listed
  obtain ⟨entry, member, rfl⟩ := List.mem_map.mp (List.mem_of_find?_eq_some listed)
  exact ⟨entry, member, rfl, of_decide_eq_true meets⟩

section Sending

variable {callId : Nat} {call : Call} {run : RunRow} {agentId : Uuid} {contracts : RunContracts}
  {row : IntegrationRow} {document : Dict String}

/-- A connection that was frozen, and the one a call has read, refer to the same credential
when the snapshot names it. -/
theorem sameCredential (kept : Kept history fleet) {creation : Tenant.Store}
    (seen : Seen history fleet creation) {rowThen : IntegrationRow}
    (wasThere : creation.integrations.find? integrationId = some rowThen)
    (connected : rowThen.status = .connected) {reference : Uuid} {credential : CredentialRow}
    (opened : Seen history fleet store) (isReference : row.credentialReference = some reference)
    (stored : store.credentials.find? reference = some credential)
    (named : ∀ expected, rowThen.credentialReference.map Uuid.text = some expected →
      row.credentialReference.map Uuid.text = some expected) :
    rowThen.credentialReference = some reference ∧
      creation.credentials.find? reference = some credential := by
  have isSealed := kept.isSealed creation seen
  obtain ⟨referenceThen, refers⟩ :=
    Option.ne_none_iff_exists'.mp (isSealed.connected _ _ wasThere connected)
  obtain ⟨credentialThen, storedThen, _⟩ := isSealed.referenced _ _ _ wasThere refers
  have texts := named referenceThen.text (by rw [refers]; rfl)
  rw [isReference, Option.map_some, Option.some.injEq] at texts
  obtain rfl := Uuid.text_injective (kept.credentialDrawn _ opened _ _ stored).2
    (kept.credentialDrawn _ seen _ _ storedThen).2 texts
  obtain rfl := (kept.agree _ _ opened seen).credentials _ _ _ stored storedThen
  exact ⟨refers, storedThen⟩

/-- What a standard run's call holds once it is about to send its request. -/
theorem pinned_of_holds (pins : Pins host history fleet)
    (found : fleet.calls.find? callId = some call)
    (ofRun : fleet.runs.find? call.runId = some run) (standard : run.target = .standard agentId contracts)
    {current definition : ConnectorManifest} {request : HttpRequest}
    (stage : call.stage = .refreshed row current document)
    (uses : usedDefinition current row call.capability call.spec = .ok definition)
    (made : MadeBy host.deployment.library definition call.capability document row.config request) :
    ∃ creation ∈ history, Creates host.platform.runtime creation call.runId run ∧
      ∃ key rowThen frozen, PinnedTo host creation.before.tenant fleet.tenant run.workspaceId
        agentId contracts call.integrationId call.capability request key rowThen frozen := by
  have holds := pins.calls callId call found
  obtain ⟨creation, member, creates⟩ := pins.runs _ _ ofRun
  obtain ⟨_, foundAgain, context, isSpec⟩ := holds.ofRun
  obtain rfl := Option.some.inj (ofRun.symm.trans foundAgain)
  have kind : call.context.kind = .standard (some (contracts.connectorTools.map Prod.snd)) := by
    rw [context, RunRow.context, standard]
  have isAgent : call.context.agentId = agentId := by rw [context, RunRow.context, standard]
  have inWorkspace : call.context.workspaceId = run.workspaceId := by rw [context, RunRow.context]
  rw [kind] at isSpec
  obtain ⟨entry, listed, spec, isTarget, isCapability⟩ := standardSpec_listed isSpec
  obtain ⟨key, capability, binding, rowThen, frozen, frozenAt⟩ :=
    creates.frozen _ _ standard entry listed
  have seen : Seen history fleet creation.before.tenant := .inr ⟨creation, member, rfl⟩
  obtain ⟨store, readSeen, present, _⟩ := holds.row row (by rw [stage]; rfl)
  -- The snapshot's texts name the connection and the capability of the call.
  have sameId : binding.tenantIntegrationId = call.integrationId := by
    have texts : some binding.tenantIntegrationId.text = some call.integrationId.text := by
      rw [← isTarget, frozenAt.spec, frozenSpec]
    exact Uuid.text_injective (pins.kept.rowDrawn _ seen _ _ frozenAt.present).2
      (pins.kept.rowDrawn _ readSeen _ _ present).2 (Option.some.inj texts)
  have sameCapability : capability = call.capability := by
    have texts : some capability = some call.capability := by
      rw [← isCapability, frozenAt.spec, frozenSpec]
    exact Option.some.inj texts
  subst sameCapability
  have wasThere := frozenAt.present
  rw [sameId] at wasThere
  have isFrozen := frozenAt.spec
  rw [sameId] at isFrozen
  -- What the checks on the way to the request have found.
  have bound := holds.bound (by rw [stage]; rfl)
  rw [spec] at bound
  have isBound := binds_of_checkBinding bound (by rw [isFrozen]; rfl)
  rw [inWorkspace, isAgent] at isBound
  have target := holds.target row document (by rw [stage]; rfl) (by rw [stage]; rfl)
  rw [spec] at target
  obtain ⟨sameConfig, sameReference⟩ := target_of_validate target
  rw [spec] at uses
  obtain rfl := usedDefinition_frozen (by rw [isFrozen]; rfl) uses
  refine ⟨creation, member, creates, key, rowThen, definition, ?_⟩
  constructor
  case frozen => exact ⟨entry, listed, isFrozen⟩
  case wasBound => exact ⟨binding, frozenAt.bound, frozenAt.inWorkspace, sameId⟩
  case isBound => exact isBound
  case connection => exact wasThere
  case published => exact frozenAt.published
  case made =>
    rw [isFrozen] at sameConfig
    refine ⟨row.config, document, made, (Option.some.inj sameConfig).symm, fun other => ?_⟩
    obtain ⟨opened, reference, credential, openedSeen, isReference, stored, same⟩ :=
      holds.document row document (by rw [stage]; rfl) (by rw [stage]; rfl)
    have sameMaking := (pins.kept.agree _ _ readSeen seen).rows _ _ _ present wasThere
    have named : ∀ expected, rowThen.credentialReference.map Uuid.text = some expected →
        row.credentialReference.map Uuid.text = some expected := by
      intro expected refers
      exact sameReference expected (by rw [isFrozen, frozenSpec, if_neg other, refers])
    obtain ⟨refers, storedThen⟩ := sameCredential pins.kept seen wasThere frozenAt.connected
      openedSeen isReference stored named
    exact ⟨reference, credential, refers, storedThen, same (sameMaking.authType.trans_ne other)⟩

end Sending

/-- Every request a standard run sends is pinned to the snapshot its creation froze, whatever
was rebound, rotated, reconfigured, published or moved since. -/
theorem egress_pinned (host : Host) (history earlier later : List (Transition Fleet FleetRequest))
    (fleet : Fleet) (transition : Transition Fleet FleetRequest) (callId : Nat) (network : Network)
    (call : Call) (run : RunRow) (agentId : Uuid) (contracts : RunContracts)
    (runs : (fleetMachine host).Runs history fleet)
    (splits : history = earlier ++ transition :: later)
    (sends : transition.label = .send callId network)
    (called : transition.before.calls.find? callId = some call)
    (ofRun : transition.before.runs.find? call.runId = some run)
    (standard : run.target = .standard agentId contracts) :
    ∃ creation ∈ earlier, Creates host.platform.runtime creation call.runId run ∧
      ∃ request, transition.after.calls.find? callId = some { call with stage := .sent request } ∧
        ∃ key row definition, PinnedTo host creation.before.tenant transition.before.tenant
          run.workspaceId agentId contracts call.integrationId call.capability request key row
          definition := by
  obtain ⟨before, step, _⟩ := runs.split splits
  have ok : transition.before.send host callId network = .ok transition.after := by
    rw [sends] at step
    exact step
  simp only [Fleet.send, Fleet.call?, bind_eq_ok, orRaise_eq_ok] at ok
  obtain ⟨_, foundAgain, ok⟩ := ok
  obtain rfl := Option.some.inj (called.symm.trans foundAgain)
  split at ok
  case h_1 row current document stage =>
    simp only [prepare, bind_eq_ok, mapError_eq_ok, pure_eq_ok] at ok
    obtain ⟨definition, uses, request, ⟨_, built, _, _, _, _, same⟩, after⟩ := ok
    rw [same] at built
    obtain ⟨creation, member, creates, pinned⟩ := pinned_of_holds (pins_of_runs before) called
      ofRun standard stage uses (buildRequest_madeBy built)
    refine ⟨creation, member, creates, request, ?_, pinned⟩
    rw [← after]
    exact Table.find?_put _ _ _
  case h_2 => cases ok

/-- The published GitHub connector, down to one of its read endpoints. -/
def github : ConnectorManifest where
  id := "github"
  name := "GitHub"
  description := "GitHub REST API with a fine-grained token."
  category := "engineering"
  icon := "code"
  version := ⟨1, 1, 0⟩
  status := .available
  auth := .bearerToken
  capabilities := ["issues.read", "issues.write", "pulls.read", "repos.read", "actions.read"]
  scopes := []
  credentialFields :=
    [{ key := "access_token", label := "Fine-grained access token", secret := true,
       required := true, pattern := none
       help := "Grant only the repositories and permissions this workspace needs." },
     { key := "organization", label := "Organisation or owner", secret := false,
       required := false, help := "", pattern := none }]
  oauth := none
  testCapability := some "repos.read"
  baseUrl := some "https://api.github.com"
  baseUrlField := none
  credentialPlacement := some
    { kind := .bearerHeader, valueField := "access_token", usernameField := none,
      header := none, queryParameter := none }
  endpoints :=
    [{ capability := "repos.read", method := .get, path := "/user/repos",
       description := "Connector capability", sideEffect := .read, retry := .safe,
       inputSchema := defaultInputSchema, outputSchema := none }]

/-- A manifest that requires GitHub and reads its repositories. -/
def reviewerManifest : Catalog.AgentManifest where
  slug := "content"
  version := ⟨1, 0, 0⟩
  minRuntimeVersion := ⟨1, 0, 0⟩
  status := .stable
  channel := .stable
  changelog := ""
  requiredIntegrations := ["github"]
  optionalIntegrations := []
  requiredDistinct := List.nodup_singleton _
  optionalDistinct := List.nodup_nil
  neverBoth _ _ := List.not_mem_nil
  requiredTools := ["github.repos.read"]
  toolsDistinct := List.nodup_singleton _

/-- A catalog with one stable release of that manifest. -/
def reviewerCatalog : Nexora.Catalog where
  tables :=
    { contentCatalog.tables with
      versions := contentCatalog.tables.versions.modify 2 fun row =>
        { row with manifest := reviewerManifest } }
  consistent := by decide

/-- Workspace 7 with its owner, before anything is connected. -/
def freshFleet : Fleet where
  tenant := { freshStore with
    catalog := reviewerCatalog, definitions := Table.ofList [("github", github)] }
  tools := .empty
  runs := .empty
  drawn := []
  calls := .empty

theorem freshFleet_unused : Unused freshFleet where
  integrations := rfl
  credentials := rfl
  oauthStates := rfl
  bindings := rfl
  runs := rfl
  calls := rfl
  namesUnique first second firstTool secondTool present := by
    simp [freshFleet, Run.Store.empty] at present

/-- A deployment for checks. -/
def exampleHost : Host := ⟨Run.examplePlatform, exampleDeployment, false⟩

/-- Connect a GitHub account as connection 20. -/
def connectGithub : Tenant.Operation :=
  .connect none owner 7
    { integrationDefinitionId := "github", displayName := "Code", accountIdentifier := "code",
      credentials := ⟨[("access_token", "secret")], List.nodup_singleton _⟩ } 20 21 1

/-- Install the agent as instance 30, bound to connection 20. -/
def installReviewer : Tenant.Operation :=
  .install owner 7
    { slug := "content", displayName := none, updateChannel := none, updateMode := none,
      bindings := ⟨[("github", 20)], List.nodup_singleton _⟩, bounded := by decide } 30 31 2

/-- Run 40 of the agent reads the repositories of account 20. -/
def readRepositories : List FleetRequest :=
  [.tenant connectGithub, .tenant installReviewer,
    .createStandardRun owner 7 30 (py "question") "key" 40 fun index => 70 + index,
    .beginCall 1 40 20 "repos.read" [], .shareBinding 1, .readRow 1, .readDefinition 1 none,
    .openCredential 1, .refresh 1 (.error .constraint) 10, .send 1 reachable]

/-- A transition sends a request of a standard agent's run. -/
def sendsFor (agentId : Uuid) (transition : Transition Fleet FleetRequest) : Bool :=
  match transition.label with
  | .send callId _ => (transition.before.calls.find? callId).any fun call =>
    (transition.before.runs.find? call.runId).any fun run =>
      match run.target with
      | .standard agent _ => agent = agentId
      | .custom _ => false
  | _ => false

theorem of_sendsFor {agentId : Uuid} {transition : Transition Fleet FleetRequest}
    (sends : sendsFor agentId transition = true) :
    ∃ callId network call run contracts, transition.label = .send callId network ∧
      transition.before.calls.find? callId = some call ∧
        transition.before.runs.find? call.runId = some run ∧
          run.target = .standard agentId contracts := by
  unfold sendsFor at sends
  split at sends
  case h_1 callId network label =>
    simp only [Option.any_eq_true] at sends
    obtain ⟨call, called, run, found, target⟩ := sends
    split at target
    case h_1 agent contracts standard =>
      obtain rfl := of_decide_eq_true target
      exact ⟨callId, network, call, run, contracts, label, called, found, standard⟩
    case h_2 => cases target
  case h_2 => cases sends

/-- `egress_pinned` applies to a run that reads its account's repositories. -/
theorem egress_pinned_readRepositories :
    ∃ history fleet, (fleetMachine exampleHost).Runs history fleet ∧
      ∃ earlier transition later, history = earlier ++ transition :: later ∧
        sendsFor 30 transition = true ∧
        ∃ creation ∈ earlier, ∃ (call : Call) (run : RunRow), ∃ contracts request key row definition,
          Creates exampleHost.platform.runtime creation call.runId run ∧
            PinnedTo exampleHost creation.before.tenant transition.before.tenant run.workspaceId
              30 contracts call.integrationId call.capability request key row definition := by
  obtain ⟨history, fleet, runs, checked⟩ := Machine.exists_run_of_trace Unused
    (fun fleet => fleet.run exampleHost) readRepositories freshFleet
    (fun history _ => Machine.splitsAt history 9 fun _ transition _ => sendsFor 30 transition)
    freshFleet_unused (by decide +kernel)
  obtain ⟨earlier, transition, later, splits, sends⟩ := Machine.exists_split checked
  obtain ⟨callId, network, call, run, contracts, label, called, found, standard⟩ :=
    of_sendsFor sends
  obtain ⟨creation, member, creates, request, _, key, row, definition, pinned⟩ :=
    egress_pinned exampleHost history earlier later fleet transition callId network call run 30
      contracts runs splits label called found standard
  exact ⟨history, fleet, runs, earlier, transition, later, splits, sends, creation, member, call,
    run, contracts, request, key, row, definition, creates, pinned⟩

end Nexora.Connector
