import Nexora.Connector.Fleet

/-!
# What a snapshot's texts stand for

Over a whole history a stored credential never changes and a connection stays what it was
made for, because identifiers are drawn once. A run's snapshot freezes a tool from the
tenancy store its creation reads, and the run is never written again.
-/

namespace Nexora.Connector

open Nexora.Std Nexora.Workspace Nexora.Integration Nexora.Tenant Json

variable {host : Host} {history : List (Transition Fleet FleetRequest)} {fleet next : Fleet}
  {request : FleetRequest} {runtime : Tools.Runtime} {transition : Transition Fleet FleetRequest}
  {workspaceId agentId runId : Uuid} {store : Tenant.Store} {draws : List Uuid}
  {idempotencyKey : String} {tools : Run.Store} {toolIds : Nat → Uuid} {runs : Table Uuid RunRow}
  {principal : Principal} {input : PyStr}

/-- A tenancy store that a run has gone through. -/
def Seen (history : List (Transition Fleet FleetRequest)) (fleet : Fleet)
    (store : Tenant.Store) : Prop :=
  store = fleet.tenant ∨ ∃ transition ∈ history, transition.before.tenant = store

theorem Seen.now (history : List (Transition Fleet FleetRequest)) (fleet : Fleet) :
    Seen history fleet fleet.tenant := .inl rfl

theorem Seen.append :
    Seen (history ++ [⟨fleet, request, next⟩]) next store ↔
      store = next.tenant ∨ Seen history fleet store := by
  simp only [Seen, List.mem_append, List.mem_singleton]
  constructor
  · rintro (now | ⟨transition, earlier | rfl, same⟩)
    · exact .inl now
    · exact .inr (.inr ⟨transition, earlier, same⟩)
    · exact .inr (.inl same.symm)
  · rintro (now | rfl | ⟨transition, earlier, same⟩)
    · exact .inl now
    · exact .inr ⟨_, .inr rfl, rfl⟩
    · exact .inr ⟨transition, .inl earlier, same⟩

/-- Two stores have the same credential under an identifier, and the same kind of
connection. -/
structure Agree (first second : Tenant.Store) : Prop where
  rows : ∀ id one other, first.integrations.find? id = some one →
    second.integrations.find? id = some other → SameMaking one other
  credentials : ∀ id one other, first.credentials.find? id = some one →
    second.credentials.find? id = some other → one = other

theorem Agree.refl (store : Tenant.Store) : Agree store store where
  rows id one other found again := by
    obtain rfl := Option.some.inj (found.symm.trans again)
    exact .refl one
  credentials id one other found again := Option.some.inj (found.symm.trans again)

theorem Agree.symm {first second : Tenant.Store} (agree : Agree first second) :
    Agree second first where
  rows id one other found again := (agree.rows id other one again found).symm
  credentials id one other found again := (agree.credentials id other one again found).symm

/-- What holds of all stores a run has gone through. -/
structure Kept (history : List (Transition Fleet FleetRequest)) (fleet : Fleet) : Prop where
  isSealed : ∀ store, Seen history fleet store → Sealed store
  rowDrawn : ∀ store, Seen history fleet store → ∀ id row,
    store.integrations.find? id = some row → id ∈ fleet.drawn ∧ id < 2 ^ 128
  credentialDrawn : ∀ store, Seen history fleet store → ∀ id credential,
    store.credentials.find? id = some credential → id ∈ fleet.drawn ∧ id < 2 ^ 128
  agree : ∀ first second, Seen history fleet first → Seen history fleet second →
    Agree first second

theorem Kept.initial (unused : Unused fleet) : Kept [] fleet := by
  have only : ∀ store, Seen [] fleet store → store = fleet.tenant := by
    rintro store (same | ⟨_, impossible, _⟩)
    · exact same
    · cases impossible
  constructor
  case isSealed =>
    intro store seen
    rw [only store seen]
    constructor <;> simp [unused.integrations, unused.credentials, unused.oauthStates]
  case rowDrawn =>
    intro store seen id row found
    rw [only store seen, unused.integrations] at found
    simp at found
  case credentialDrawn =>
    intro store seen id credential found
    rw [only store seen, unused.credentials] at found
    simp at found
  case agree =>
    intro first second seenFirst seenSecond
    rw [only first seenFirst, only second seenSecond]
    exact .refl _

/-- What a request may do to the tenancy store. -/
structure TenantStep (fleet next : Fleet) (draws : List Uuid) : Prop where
  fresh : ∀ id ∈ draws, id ∉ fleet.drawn ∧ id < 2 ^ 128
  drawn : next.drawn = draws ++ fleet.drawn
  isSealed : Sealed next.tenant
  keeps : Keeps draws fleet.tenant next.tenant

theorem TenantStep.idle (isSealed : Sealed fleet.tenant) (tenant : next.tenant = fleet.tenant)
    (drawn : next.drawn = fleet.drawn) : TenantStep fleet next [] where
  fresh := by simp
  drawn := drawn
  isSealed := tenant ▸ isSealed
  keeps := by
    rw [tenant]
    exact (Untouched.refl _).keeps []

/-- The next store agrees with every store before it. -/
theorem Kept.agree_next (kept : Kept history fleet) (step : TenantStep fleet next draws)
    (seen : Seen history fleet store) :
    Agree store next.tenant where
  rows id one other found later := by
    rcases step.keeps.integrations id other later with ⟨was, present, same⟩ | isDrawn
    · exact ((kept.agree _ _ seen (.now _ _)).rows id one was found present).trans same.symm
    · exact absurd (kept.rowDrawn store seen id one found).1 (step.fresh id isDrawn).1
  credentials id one other found later := by
    rcases step.keeps.credentials id other later with present | isDrawn
    · exact (kept.agree _ _ seen (.now _ _)).credentials id one other found present
    · exact absurd (kept.credentialDrawn store seen id one found).1 (step.fresh id isDrawn).1

theorem Kept.step (kept : Kept history fleet) (step : TenantStep fleet next draws) :
    Kept (history ++ [⟨fleet, request, next⟩]) next := by
  have now := Seen.now history fleet
  constructor
  case isSealed =>
    intro store seen
    rcases Seen.append.mp seen with rfl | earlier
    · exact step.isSealed
    · exact kept.isSealed store earlier
  case rowDrawn =>
    intro store seen id row found
    rw [step.drawn]
    rcases Seen.append.mp seen with rfl | earlier
    · rcases step.keeps.integrations id row found with ⟨was, present, _⟩ | isDrawn
      · have known := kept.rowDrawn _ now id was present
        exact ⟨List.mem_append_right _ known.1, known.2⟩
      · exact ⟨List.mem_append_left _ isDrawn, (step.fresh id isDrawn).2⟩
    · have known := kept.rowDrawn store earlier id row found
      exact ⟨List.mem_append_right _ known.1, known.2⟩
  case credentialDrawn =>
    intro store seen id credential found
    rw [step.drawn]
    rcases Seen.append.mp seen with rfl | earlier
    · rcases step.keeps.credentials id credential found with present | isDrawn
      · have known := kept.credentialDrawn _ now id credential present
        exact ⟨List.mem_append_right _ known.1, known.2⟩
      · exact ⟨List.mem_append_left _ isDrawn, (step.fresh id isDrawn).2⟩
    · have known := kept.credentialDrawn store earlier id credential found
      exact ⟨List.mem_append_right _ known.1, known.2⟩
  case agree =>
    intro first second seenFirst seenSecond
    rcases Seen.append.mp seenFirst with rfl | earlierFirst
    · rcases Seen.append.mp seenSecond with rfl | earlierSecond
      · exact .refl _
      · exact (kept.agree_next step earlierSecond).symm
    · rcases Seen.append.mp seenSecond with rfl | earlierSecond
      · exact kept.agree_next step earlierFirst
      · exact kept.agree first second earlierFirst earlierSecond

/-- What a snapshot keeps of a tool, as the connection and its definition stood. -/
structure FrozenAt (runtime : Tools.Runtime) (tenant : Tenant.Store) (workspaceId agentId : Uuid)
    (spec : ConnectorSpec) (key capability : String) (binding : BindingRow)
    (row : IntegrationRow) (definition : ConnectorManifest) : Prop where
  bound : tenant.bindings.find? (agentId, key) = some binding
  inWorkspace : binding.workspaceId = workspaceId
  present : tenant.integrations.find? binding.tenantIntegrationId = some row
  connected : row.status = .connected
  published : tenant.definitions.find? row.integrationDefinitionId = some definition
  spec : spec = frozenSpec runtime key capability binding.tenantIntegrationId row definition

/-- Every connector tool of a snapshot was frozen from the store. -/
def AllFrozen (runtime : Tools.Runtime) (tenant : Tenant.Store) (workspaceId agentId : Uuid)
    (contracts : RunContracts) : Prop :=
  ∀ entry ∈ contracts.connectorTools, ∃ key capability binding row definition,
    FrozenAt runtime tenant workspaceId agentId entry.2 key capability binding row definition

section Freezing

variable {drafting : Drafting} {drafted after : Run.Store × RunContracts}
  {publicName detail : String} {toolId : Uuid}

theorem unavailable_ok (ok : drafting.unavailable publicName detail drafted = .ok after) :
    after = drafted := by
  unfold Drafting.unavailable at ok
  split at ok
  · cases ok
  · exact (Except.ok.inj ok).symm

/-- A frozen tool is registered and changes the contracts as it says, or not at all. -/
theorem freeze_ok {frozen : FrozenTool} {change : RunContracts → RunContracts}
    (ok : drafting.freeze host publicName frozen toolId drafted change = .ok after) :
    (∃ offered, register host.platform drafted.1 drafting.workspaceId frozen toolId =
        .ok (offered, after.1)) ∧
      (after.2 = drafted.2 ∨ after.2 = change { drafted.2 with
        allowedTools := drafted.2.allowedTools ++ [publicName]
        aliases := drafted.2.aliases ++ [(publicName, frozen.name)] }) := by
  simp only [Drafting.freeze, bind_eq_ok] at ok
  obtain ⟨⟨offered, tools⟩, registers, ok⟩ := ok
  split at ok
  · obtain rfl := Except.ok.inj ok
    exact ⟨⟨offered, registers⟩, .inr rfl⟩
  · obtain rfl := unavailable_ok ok
    exact ⟨⟨offered, registers⟩, .inl rfl⟩

/-- What freezing one tool comes to: nothing is registered, or a contract that is no
connector's, or a connector's as it stands. -/
inductive Freezes (host : Host) (drafting : Drafting) (publicName : String) (toolId : Uuid)
    (drafted after : Run.Store × RunContracts) : Prop where
  | plain (tools : after.1 = drafted.1)
      (connectorTools : after.2.connectorTools = drafted.2.connectorTools)
  | contract (frozen : FrozenTool) (change : RunContracts → RunContracts)
      (freezes : drafting.freeze host publicName frozen toolId drafted change = .ok after)
      (connectorTools : ∀ contracts, (change contracts).connectorTools = contracts.connectorTools)
  | connector (key capability : String) (spec : ConnectorSpec) (frozen : FrozenTool)
      (change : RunContracts → RunContracts)
      (stands : drafting.connectorContract host.platform.runtime publicName key capability =
        .ok (spec, frozen))
      (freezes : drafting.freeze host publicName frozen toolId drafted change = .ok after)
      (connectorTools : ∀ contracts, (change contracts).connectorTools =
        contracts.connectorTools ++ [(publicName, spec)])

theorem Freezes.of_unavailable (ok : drafting.unavailable publicName detail drafted = .ok after) :
    Freezes host drafting publicName toolId drafted after := by
  obtain rfl := unavailable_ok ok
  exact .plain rfl rfl

theorem freezeBrowser_freezes
    (ok : drafting.freezeBrowser host publicName toolId drafted = .ok after) :
    Freezes host drafting publicName toolId drafted after := by
  unfold Drafting.freezeBrowser at ok
  split at ok
  · exact .of_unavailable ok
  · simp only [bind_eq_ok] at ok
    obtain ⟨_, _, ok⟩ := ok
    split at ok
    · exact .of_unavailable ok
    · exact .contract _ _ ok fun _ => rfl

theorem freezeTool_freezes
    (ok : drafting.freezeTool host publicName toolId drafted = .ok after) :
    Freezes host drafting publicName toolId drafted after := by
  unfold Drafting.freezeTool at ok
  split at ok
  case isTrue => exact .contract _ _ ok fun _ => rfl
  case isFalse =>
    split at ok
    case isTrue => exact freezeBrowser_freezes ok
    case isFalse =>
      split at ok
      case h_1 =>
        obtain rfl := Except.ok.inj ok
        exact .plain rfl rfl
      case h_2 key capability _ =>
        split at ok
        case isTrue =>
          obtain rfl := Except.ok.inj ok
          exact .plain rfl rfl
        case isFalse =>
          split at ok
          case h_1 => exact .of_unavailable ok
          case h_2 spec tool stands => exact .connector _ _ _ _ _ stands ok fun _ => rfl

/-- The contract of a connector tool is frozen from the store. -/
theorem connectorContract_frozen {key capability : String} {spec : ConnectorSpec}
    {tool : FrozenTool}
    (ok : drafting.connectorContract runtime publicName key capability = .ok (spec, tool)) :
    ∃ binding row definition, FrozenAt runtime drafting.tenant drafting.workspaceId
      drafting.agentId spec key capability binding row definition := by
  simp only [Drafting.connectorContract, bind_eq_ok, orRaise_eq_ok, Option.filter_eq_some_iff,
    decide_eq_true_eq, pure_eq_ok, Prod.mk.injEq] at ok
  obtain ⟨⟨integrationId, status⟩, ⟨isBound, _⟩, row, ⟨present, _, _, connected⟩, definition,
    published, _, _, rfl, _⟩ := ok
  simp only [Drafting.bindingOf, Option.bind_eq_bind, Option.bind_eq_some_iff, pure,
    Option.some.injEq, Prod.mk.injEq] at isBound
  obtain ⟨binding, bound, _, guarded, _, _, rfl, _⟩ := isBound
  have inWorkspace : binding.workspaceId = drafting.workspaceId := by
    by_contra other
    simp [guard, other] at guarded
  exact ⟨binding, row, definition, bound, inWorkspace, present, connected, published, rfl⟩

theorem freezeTool_frozen
    (ok : drafting.freezeTool host publicName toolId drafted = .ok after)
    (frozen : AllFrozen host.platform.runtime drafting.tenant drafting.workspaceId
      drafting.agentId drafted.2) :
    AllFrozen host.platform.runtime drafting.tenant drafting.workspaceId drafting.agentId
      after.2 := by
  cases freezeTool_freezes ok with
  | plain _ same =>
    unfold AllFrozen
    rw [same]
    exact frozen
  | contract tool change freezes same =>
    unfold AllFrozen
    rcases (freeze_ok freezes).2 with contracts | contracts
    · rw [contracts]
      exact frozen
    · rw [contracts, same]
      exact frozen
  | connector key capability spec tool change stands freezes adds =>
    intro entry member
    rcases (freeze_ok freezes).2 with contracts | contracts
    · rw [contracts] at member
      exact frozen entry member
    · rw [contracts, adds] at member
      rcases List.mem_append.mp member with earlier | isNew
      · exact frozen entry earlier
      · obtain rfl := List.mem_singleton.mp isNew
        exact ⟨key, capability, connectorContract_frozen stands⟩

theorem connectorRunContracts_frozen
    (ok : drafting.connectorRunContracts host tools toolIds = .ok after) :
    AllFrozen host.platform.runtime drafting.tenant drafting.workspaceId drafting.agentId
      after.2 := by
  refine foldlM_invariant (fun drafted : Run.Store × RunContracts =>
    AllFrozen host.platform.runtime drafting.tenant drafting.workspaceId drafting.agentId
      drafted.2) ?_ ?_ ok
  · intro drafted entry _ later frozen step
    exact freezeTool_frozen step frozen
  · intro entry member
    cases member

end Freezing

/-- A transition that creates a run, with what it freezes. -/
structure Creates (runtime : Tools.Runtime) (creation : Transition Fleet FleetRequest)
    (runId : Uuid) (run : RunRow) : Prop where
  fresh : creation.before.runs.find? runId = none
  created : creation.after.runs.find? runId = some run
  frozen : ∀ agentId contracts, run.target = .standard agentId contracts →
    AllFrozen runtime creation.before.tenant run.workspaceId agentId contracts

/-- A request leaves the runs there are, and creates at most one. -/
structure RunsStep (runtime : Tools.Runtime) (transition : Transition Fleet FleetRequest) :
    Prop where
  kept : ∀ runId run, transition.before.runs.find? runId = some run →
    transition.after.runs.find? runId = some run
  created : ∀ runId run, transition.after.runs.find? runId = some run →
    transition.before.runs.find? runId = some run ∨ Creates runtime transition runId run

theorem RunsStep.idle (same : transition.after.runs = transition.before.runs) :
    RunsStep runtime transition where
  kept runId run found := by rw [same, found]
  created runId run found := by
    rw [same] at found
    exact .inl found

/-- A run that is inserted under a new identifier. -/
theorem RunsStep.inserted {newId : Uuid} {row : RunRow}
    (inserted : transition.before.runs.insert? newId row = some transition.after.runs)
    (frozen : ∀ agentId contracts, row.target = .standard agentId contracts →
      AllFrozen runtime transition.before.tenant row.workspaceId agentId contracts) :
    RunsStep runtime transition := by
  obtain ⟨absent, same⟩ := (Table.insert?_eq_some _ _ _ _).mp inserted
  constructor
  case kept =>
    intro runId run found
    rw [same, Table.find?_put_ne _ _ ?_, found]
    rintro rfl
    rw [absent] at found
    cases found
  case created =>
    intro runId run found
    rw [same] at found
    obtain ⟨rfl, rfl⟩ | ⟨_, earlier⟩ := (Table.Written.put _ _ _).found found
    · exact .inr ⟨absent, by rw [same, Table.find?_put], frozen⟩
    · exact .inl earlier

theorem createCustomRun_inserts {memberships : Memberships} {later : Table Uuid RunRow}
    (ok : createCustomRun runtime memberships runs principal workspaceId agentId input
      idempotencyKey runId = .ok later) :
    later = runs ∨ ∃ row, runs.insert? runId row = some later ∧ row.target = .custom agentId := by
  simp only [createCustomRun, bind_eq_ok] at ok
  obtain ⟨_, _, ok⟩ := ok
  split at ok
  · simp only [bind_eq_ok, pure_eq_ok] at ok
    obtain ⟨_, _, rfl⟩ := ok
    exact .inl rfl
  · rw [orRaise_eq_ok] at ok
    exact .inr ⟨_, ok, rfl⟩

theorem createStandardRun_inserts {tenant : Tenant.Store} {later : Run.Store × Table Uuid RunRow}
    (ok : createStandardRun host tenant tools runs principal workspaceId agentId input
      idempotencyKey runId toolIds = .ok later) :
    ∃ manifest settings contracts,
      Drafting.connectorRunContracts ⟨tenant, workspaceId, agentId, manifest, settings⟩ host tools
        toolIds = .ok (later.1, contracts) ∧
      (later.2 = runs ∨ ∃ row, runs.insert? runId row = some later.2 ∧
        row.workspaceId = workspaceId ∧ row.target = .standard agentId contracts) := by
  simp only [createStandardRun, bind_eq_ok] at ok
  obtain ⟨_, _, row, _, manifest, _, _, _, ⟨drafted, contracts⟩, freezes, ok⟩ := ok
  split at ok
  · simp only [bind_eq_ok, pure_eq_ok] at ok
    obtain ⟨_, _, _, _, rfl⟩ := ok
    exact ⟨manifest, row.settings, contracts, freezes, .inl rfl⟩
  · simp only [bind_eq_ok, orRaise_eq_ok, pure_eq_ok] at ok
    obtain ⟨created, inserts, rfl⟩ := ok
    exact ⟨manifest, row.settings, contracts, freezes, .inr ⟨_, inserts, rfl, rfl⟩⟩

end Nexora.Connector
