import Nexora.Run.System
import Nexora.Integration.Credentials

/-!
# Connector tools

Connecting an account materialises each endpoint of its connector as a tool of the
workspace, with the policy its side effect asks for. A stored refusal is kept, and an
endpoint that changes something is never merely allowed. A tool that an administrator
switched off is switched on again, so the decision survives a provisioning only where the
tool is refused by its policy as well.
-/

namespace Nexora.Connector

open Nexora.Std Nexora.Workspace Nexora.Tools Nexora.Integration Nexora.Run Json

/-- The server key of connector tools. -/
def connectorServerKey : String := "connector"

/-- The name of an endpoint's tool. -/
def toolName (manifest : ConnectorManifest) (endpoint : ConnectorEndpoint) : PyStr :=
  py (manifest.id ++ "." ++ endpoint.capability)

/-- Where a connector tool's calls go. -/
def remoteName (integrationId : Uuid) (capability : String) : String :=
  integrationId.text ++ ":" ++ capability

/-- The policy a new connector tool starts with. -/
def defaultPolicy (sideEffect : SideEffect) : ToolPolicy :=
  if sideEffect = .read then ⟨.allow, py "Connector read is allowed"⟩
  else ⟨.requireApproval, py "Connector mutation requires human approval"⟩

/-- What an upsert makes of the stored policy. -/
def mergedPolicy (stored : Option ToolPolicy) (starting : ToolPolicy) : ToolPolicy :=
  match stored with
  | none => starting
  | some stored =>
    if stored.decision = .deny then stored
    else if starting.decision = .requireApproval then starting
    else stored

/-- The contract of an endpoint's tool. -/
def endpointContract (platform : Platform) (integrationId : Uuid) (endpoint : ConnectorEndpoint) :
    Except Raised ToolContract := do
  let inputSchema ← storeJson platform endpoint.inputSchema
  let outputSchema ← endpoint.outputSchema.mapM (storeJson platform)
  pure {
    serverKey := connectorServerKey
    remoteName := remoteName integrationId endpoint.capability
    inputSchema := inputSchema, outputSchema := outputSchema, sideEffect := endpoint.sideEffect }

/-- Insert an endpoint's tool, or write over the one of its name. -/
def upsertConnectorTool (store : Store) (workspaceId : Uuid) (name : PyStr)
    (contract : ToolContract) (toolId : Uuid) : Except Raised (Uuid × Store) :=
  match store.toolNamed workspaceId name with
  | some (existingId, _) =>
    pure (existingId, { store with
      toolDefinitions := store.toolDefinitions.modify existingId fun tool =>
        { tool with toToolContract := contract, enabled := true } })
  | none => do
      let toolDefinitions ← orRaise (store.toolDefinitions.insert? toolId {
        contract with workspaceId := workspaceId, name := name, enabled := true }) .database
      pure (toolId, { store with toolDefinitions := toolDefinitions })

/-- One endpoint of `ConnectorToolProvisioner.sync`. -/
def provision (platform : Platform) (workspaceId integrationId : Uuid)
    (manifest : ConnectorManifest) (store : Store) (endpoint : ConnectorEndpoint)
    (toolId : Uuid) : Except Raised Store := do
  let contract ← endpointContract platform integrationId endpoint
  let written ← upsertConnectorTool store workspaceId (toolName manifest endpoint) contract toolId
  pure { written.2 with
    toolPolicies := written.2.toolPolicies.put (workspaceId, written.1)
      (mergedPolicy (written.2.toolPolicies.find? (workspaceId, written.1))
        (defaultPolicy endpoint.sideEffect)) }

/-- `ConnectorToolProvisioner.sync`, in one transaction: an exception leaves no tool. -/
def sync (platform : Platform) (store : Store) (published : Option ConnectorManifest)
    (workspaceId integrationId : Uuid) (toolIds : Nat → Uuid) : Except Raised Store := do
  let manifest ← orRaise published (.request (.http 404 (some "Unknown integration")))
  manifest.endpoints.zipIdx.foldlM (fun store entry =>
    provision platform workspaceId integrationId manifest store entry.1 (toolIds entry.2)) store

/-- `ConnectorToolProvisioner.disable`: hide the tools whose calls go to a connection. -/
def disable (store : Store) (workspaceId integrationId : Uuid) : Store :=
  { store with
    toolDefinitions := store.toolDefinitions.mapRows fun _ tool =>
      if tool.workspaceId = workspaceId ∧ tool.serverKey = connectorServerKey ∧
          (integrationId.text ++ ":").toList <+: tool.remoteName.toList then
        { tool with enabled := false }
      else tool }

/-- No two tools of a workspace share a name. -/
def NamesUnique (tools : Table Uuid ToolDefinition) : Prop :=
  ∀ first second firstTool secondTool, tools.find? first = some firstTool →
    tools.find? second = some secondTool → firstTool.workspaceId = secondTool.workspaceId →
      firstTool.name = secondTool.name → first = second

variable {platform : Platform} {store next : Store} {manifest : ConnectorManifest}
  {workspaceId integrationId : Uuid} {endpoint : ConnectorEndpoint} {tool : ToolDefinition}

theorem toolNamed_eq_some (unique : NamesUnique store.toolDefinitions) {name : PyStr}
    {toolId : Uuid} :
    store.toolNamed workspaceId name = some (toolId, tool) ↔
      store.toolDefinitions.find? toolId = some tool ∧ tool.workspaceId = workspaceId ∧
        tool.name = name := by
  constructor
  · intro named
    simpa using Table.of_first? named
  · rintro ⟨present, inWorkspace, named⟩
    refine Table.first?_eq_some_of_unique present (by simp [inWorkspace, named]) ?_
    intro other otherTool otherPresent matching
    simp only [Bool.and_eq_true, decide_eq_true_eq] at matching
    exact unique other toolId otherTool tool otherPresent present
      (matching.1.trans inWorkspace.symm) (matching.2.trans named.symm)

theorem toolNamed_eq_none {name : PyStr} : store.toolNamed workspaceId name = none ↔
    ∀ toolId tool, store.toolDefinitions.find? toolId = some tool →
      tool.workspaceId = workspaceId → tool.name ≠ name := by
  rw [Run.Store.toolNamed, Table.first?_eq_none]
  simp

/-- Names stay unique when a tool is written under a name that is new, or its own. -/
theorem NamesUnique.write {before after : Table Uuid ToolDefinition} {toolId : Uuid}
    (unique : NamesUnique before) (written : Table.Written before after toolId tool)
    (own : ∀ other otherTool, before.find? other = some otherTool →
      otherTool.workspaceId = tool.workspaceId → otherTool.name = tool.name → other = toolId) :
    NamesUnique after := by
  intro first second firstTool secondTool firstPresent secondPresent sameWorkspace sameName
  obtain ⟨rfl, rfl⟩ | ⟨_, firstPresent⟩ := written.found firstPresent
  · obtain ⟨rfl, _⟩ | ⟨_, secondPresent⟩ := written.found secondPresent
    · rfl
    · exact (own second secondTool secondPresent sameWorkspace.symm sameName.symm).symm
  · obtain ⟨rfl, rfl⟩ | ⟨_, secondPresent⟩ := written.found secondPresent
    · exact own first firstTool firstPresent sameWorkspace sameName
    · exact unique first second firstTool secondTool firstPresent secondPresent sameWorkspace
        sameName

/-- What provisioning an endpoint does to the tools and their policies. -/
structure Provisions (before after : Store) (workspaceId integrationId : Uuid) (name : PyStr)
    (endpoint : ConnectorEndpoint) (toolId : Uuid) (tool : ToolDefinition) : Prop where
  written : Table.Written before.toolDefinitions after.toolDefinitions toolId tool
  policies : Table.Written before.toolPolicies after.toolPolicies (workspaceId, toolId)
    (mergedPolicy (before.toolPolicies.find? (workspaceId, toolId))
      (defaultPolicy endpoint.sideEffect))
  inWorkspace : tool.workspaceId = workspaceId
  named : tool.name = name
  enabled : tool.enabled = true
  serverKey : tool.serverKey = connectorServerKey
  remote : tool.remoteName = remoteName integrationId endpoint.capability
  sideEffect : tool.sideEffect = endpoint.sideEffect
  /-- The tool is the one of that name, or there was none. -/
  earlier : before.toolNamed workspaceId name = none ∧
      before.toolDefinitions.find? toolId = none ∨
    ∃ was, before.toolNamed workspaceId name = some (toolId, was)

theorem provision_provisions {toolId : Uuid}
    (ok : provision platform workspaceId integrationId manifest store endpoint toolId =
      .ok next) :
    ∃ writtenId tool, Provisions store next workspaceId integrationId (toolName manifest endpoint)
      endpoint writtenId tool := by
  simp only [provision, endpointContract, bind_eq_ok, pure_eq_ok] at ok
  obtain ⟨contract, ⟨inputSchema, _, outputSchema, _, rfl⟩, written, upsert, rfl⟩ := ok
  unfold upsertConnectorTool at upsert
  split at upsert
  case h_1 existingId was named =>
    rw [pure_eq_ok] at upsert
    subst upsert
    obtain ⟨present, matching⟩ := Table.of_first? named
    simp only [Bool.and_eq_true, decide_eq_true_eq] at matching
    exact ⟨existingId, _, .modify _ present, .put _ _ _, matching.1, matching.2, rfl, rfl, rfl, rfl,
      .inr ⟨was, named⟩⟩
  case h_2 missing =>
    simp only [bind_eq_ok, orRaise_eq_ok, Table.insert?_eq_some, pure_eq_ok] at upsert
    obtain ⟨_, ⟨absent, rfl⟩, rfl⟩ := upsert
    exact ⟨toolId, _, .put _ _ _, .put _ _ _, rfl, rfl, rfl, rfl, rfl, rfl, .inl ⟨missing, absent⟩⟩

theorem mergedPolicy_deny (stored : Option ToolPolicy) (sideEffect : SideEffect) :
    (mergedPolicy stored (defaultPolicy sideEffect)).decision = .deny ↔
      stored.map ToolPolicy.decision = some .deny := by
  cases stored with
  | none => cases sideEffect <;> simp [mergedPolicy, defaultPolicy]
  | some stored =>
    obtain ⟨decision, reason⟩ := stored
    cases decision <;> cases sideEffect <;> simp [mergedPolicy, defaultPolicy]

theorem mergedPolicy_requireApproval {stored : Option ToolPolicy} {sideEffect : SideEffect}
    (asks : stored.map ToolPolicy.decision = some .requireApproval ∨
      sideEffect ≠ .read ∧ stored.map ToolPolicy.decision ≠ some .deny) :
    (mergedPolicy stored (defaultPolicy sideEffect)).decision = .requireApproval := by
  cases stored with
  | none => cases sideEffect <;> simp_all [mergedPolicy, defaultPolicy]
  | some stored =>
    obtain ⟨decision, reason⟩ := stored
    cases decision <;> cases sideEffect <;> simp_all [mergedPolicy, defaultPolicy]

/-- What becomes of a tool: `touched` says that it was provisioned. -/
structure Follows (before after : Store) (toolId : Uuid) (was now : ToolDefinition)
    (touched : Prop) : Prop where
  present : after.toolDefinitions.find? toolId = some now
  inWorkspace : now.workspaceId = was.workspaceId
  named : now.name = was.name
  refused : after.policyOf was.workspaceId toolId = some .deny ↔
    before.policyOf was.workspaceId toolId = some .deny
  reviewed : before.policyOf was.workspaceId toolId = some .requireApproval →
    after.policyOf was.workspaceId toolId = some .requireApproval
  switchedOn : touched → now.enabled = true ∧ after.policyOf was.workspaceId toolId ≠ none
  spared : ¬ touched → now = was ∧
    after.policyOf was.workspaceId toolId = before.policyOf was.workspaceId toolId

theorem Follows.refl {toolId : Uuid} {was : ToolDefinition} {touched : Prop}
    (present : store.toolDefinitions.find? toolId = some was) (spared : ¬ touched) :
    Follows store store toolId was was touched where
  present := present
  inWorkspace := rfl
  named := rfl
  refused := Iff.rfl
  reviewed := id
  switchedOn isTouched := absurd isTouched spared
  spared _ := ⟨rfl, rfl⟩

theorem Follows.trans {first second third : Store} {toolId : Uuid}
    {was now later : ToolDefinition} {touched again either : Prop}
    (early : Follows first second toolId was now touched)
    (late : Follows second third toolId now later again) (joins : either ↔ touched ∨ again) :
    Follows first third toolId was later either where
  present := late.present
  inWorkspace := late.inWorkspace.trans early.inWorkspace
  named := late.named.trans early.named
  refused := by
    rw [← early.refused, ← early.inWorkspace]
    exact late.refused
  reviewed asked := by
    have middle := early.reviewed asked
    rw [← early.inWorkspace] at middle ⊢
    exact late.reviewed middle
  switchedOn isTouched := by
    have sameWorkspace := early.inWorkspace
    by_cases isAgain : again
    · rw [← sameWorkspace]
      exact late.switchedOn isAgain
    · obtain ⟨rfl, samePolicy⟩ := late.spared isAgain
      obtain ⟨enabled, hasPolicy⟩ := early.switchedOn ((joins.mp isTouched).resolve_right isAgain)
      rw [sameWorkspace] at samePolicy
      exact ⟨enabled, samePolicy ▸ hasPolicy⟩
  spared isSpared := by
    rw [joins, not_or] at isSpared
    obtain ⟨rfl, samePolicy⟩ := early.spared isSpared.1
    obtain ⟨rfl, laterPolicy⟩ := late.spared isSpared.2
    exact ⟨rfl, laterPolicy.trans samePolicy⟩

namespace Provisions

variable {name : PyStr} {writtenId : Uuid} {written : ToolDefinition}

theorem namesUnique (provisions : Provisions store next workspaceId integrationId name endpoint
    writtenId written) (unique : NamesUnique store.toolDefinitions) :
    NamesUnique next.toolDefinitions := by
  refine unique.write provisions.written ?_
  intro other otherTool present sameWorkspace sameName
  rw [provisions.inWorkspace] at sameWorkspace
  rw [provisions.named] at sameName
  rcases provisions.earlier with ⟨missing, _⟩ | ⟨was, named⟩
  · exact absurd sameName (toolNamed_eq_none.mp missing other otherTool present sameWorkspace)
  · obtain ⟨wasPresent, wasIn, wasNamed⟩ := (toolNamed_eq_some unique).mp named
    exact unique other writtenId otherTool was present wasPresent
      (sameWorkspace.trans wasIn.symm) (sameName.trans wasNamed.symm)

/-- A tool that was there is provisioned exactly when it has the endpoint's name. -/
theorem follows (provisions : Provisions store next workspaceId integrationId name endpoint
    writtenId written) (unique : NamesUnique store.toolDefinitions) {toolId : Uuid}
    {was : ToolDefinition} (present : store.toolDefinitions.find? toolId = some was) :
    ∃ now, Follows store next toolId was now (was.workspaceId = workspaceId ∧ was.name = name) := by
  by_cases isWritten : toolId = writtenId
  · subst isWritten
    rcases provisions.earlier with ⟨_, absent⟩ | ⟨earlier, named⟩
    · cases present.symm.trans absent
    obtain ⟨found, inWorkspace, hasName⟩ := (toolNamed_eq_some unique).mp named
    obtain rfl : earlier = was := Option.some.inj (found.symm.trans present)
    have policy : next.policyOf earlier.workspaceId toolId =
        some (mergedPolicy (store.toolPolicies.find? (workspaceId, toolId))
          (defaultPolicy endpoint.sideEffect)).decision := by
      rw [Run.Store.policyOf, inWorkspace, provisions.policies.self, Option.map_some]
    refine ⟨written, provisions.written.self, provisions.inWorkspace.trans inWorkspace.symm,
      provisions.named.trans hasName.symm, ?_, ?_, ?_, ?_⟩
    · rw [policy, Option.some.injEq, mergedPolicy_deny, inWorkspace]
      rfl
    · intro asked
      rw [policy, mergedPolicy_requireApproval (.inl _)]
      rwa [inWorkspace] at asked
    · intro _
      exact ⟨provisions.enabled, by simp [policy]⟩
    · intro spared
      exact absurd ⟨inWorkspace, hasName⟩ spared
  · have kept := provisions.written.other isWritten
    have policy : next.policyOf was.workspaceId toolId = store.policyOf was.workspaceId toolId := by
      rw [Run.Store.policyOf, provisions.policies.other (by simp [isWritten]), Run.Store.policyOf]
    have spared : ¬ (was.workspaceId = workspaceId ∧ was.name = name) := by
      rintro ⟨inWorkspace, hasName⟩
      rcases provisions.earlier with ⟨missing, _⟩ | ⟨earlier, named⟩
      · exact toolNamed_eq_none.mp missing toolId was present inWorkspace hasName
      · obtain ⟨found, sameWorkspace, sameName⟩ := (toolNamed_eq_some unique).mp named
        exact isWritten (unique toolId writtenId was earlier present found
          (inWorkspace.trans sameWorkspace.symm) (hasName.trans sameName.symm))
    exact ⟨was, kept.trans present, rfl, rfl, by rw [policy], fun asked => policy.trans asked,
      fun touched => absurd touched spared, fun _ => ⟨rfl, policy⟩⟩

/-- The endpoint's tool is refused or, if it changes something, asks for approval. -/
theorem mutating (provisions : Provisions store next workspaceId integrationId name endpoint
    writtenId written) (mutates : endpoint.sideEffect ≠ .read) :
    next.policyOf workspaceId writtenId = some .deny ∨
      next.policyOf workspaceId writtenId = some .requireApproval := by
  rw [Run.Store.policyOf, provisions.policies.self, Option.map_some, Option.some.injEq,
    Option.some.injEq, mergedPolicy_deny]
  by_cases refused : (store.toolPolicies.find? (workspaceId, writtenId)).map ToolPolicy.decision =
      some .deny
  · exact .inl refused
  · exact .inr (mergedPolicy_requireApproval (.inr ⟨mutates, refused⟩))

end Provisions

/-- The endpoints of a provisioning, with the identifiers drawn for new tools. -/
def provisionAll (platform : Platform) (workspaceId integrationId : Uuid)
    (manifest : ConnectorManifest) (toolIds : Nat → Uuid) (store : Store)
    (entries : List (ConnectorEndpoint × Nat)) : Except Raised Store :=
  entries.foldlM (fun store entry =>
    provision platform workspaceId integrationId manifest store entry.1 (toolIds entry.2)) store

/-- One of the endpoints has a tool's name. -/
def Touches (workspaceId : Uuid) (manifest : ConnectorManifest)
    (endpoints : List ConnectorEndpoint) (tool : ToolDefinition) : Prop :=
  tool.workspaceId = workspaceId ∧ ∃ endpoint ∈ endpoints, tool.name = toolName manifest endpoint

variable {toolIds : Nat → Uuid} {entries : List (ConnectorEndpoint × Nat)}

theorem provisionAll_cons {entry : ConnectorEndpoint × Nat}
    (ok : provisionAll platform workspaceId integrationId manifest toolIds store
      (entry :: entries) = .ok next) :
    ∃ middle writtenId written, Provisions store middle workspaceId integrationId
        (toolName manifest entry.1) entry.1 writtenId written ∧
      provisionAll platform workspaceId integrationId manifest toolIds middle entries =
        .ok next := by
  rw [provisionAll, List.foldlM_cons, bind_eq_ok] at ok
  obtain ⟨middle, first, rest⟩ := ok
  obtain ⟨writtenId, written, provisions⟩ := provision_provisions first
  exact ⟨middle, writtenId, written, provisions, rest⟩

theorem provisionAll_namesUnique (unique : NamesUnique store.toolDefinitions)
    (ok : provisionAll platform workspaceId integrationId manifest toolIds store entries =
      .ok next) : NamesUnique next.toolDefinitions := by
  refine foldlM_invariant (fun store => NamesUnique store.toolDefinitions) ?_ unique ok
  intro current entry _ later holds provisioned
  obtain ⟨_, _, provisions⟩ := provision_provisions provisioned
  exact provisions.namesUnique holds

/-- A provisioning touches the tools that have an endpoint's name, and no other. -/
theorem provisionAll_follows (unique : NamesUnique store.toolDefinitions) {toolId : Uuid}
    {was : ToolDefinition} (present : store.toolDefinitions.find? toolId = some was)
    (ok : provisionAll platform workspaceId integrationId manifest toolIds store entries =
      .ok next) :
    ∃ now, Follows store next toolId was now
      (Touches workspaceId manifest (entries.map Prod.fst) was) := by
  induction entries generalizing store was with
  | nil =>
    rw [provisionAll, List.foldlM_nil, pure_eq_ok] at ok
    subst ok
    exact ⟨was, .refl present (by simp [Touches])⟩
  | cons entry rest ih =>
    obtain ⟨middle, writtenId, written, provisions, ok⟩ := provisionAll_cons ok
    obtain ⟨now, early⟩ := provisions.follows unique present
    obtain ⟨later, late⟩ :=
      ih (provisions.namesUnique unique) early.present ok
    refine ⟨later, early.trans late ?_⟩
    simp only [Touches, List.map_cons, List.mem_cons, exists_eq_or_imp, early.inWorkspace,
      early.named]
    tauto

/-- After a provisioning each endpoint has its tool, and that of an endpoint that changes something
is refused or asks for approval. -/
theorem provisionAll_named (unique : NamesUnique store.toolDefinitions)
    (ok : provisionAll platform workspaceId integrationId manifest toolIds store entries =
      .ok next) (member : endpoint ∈ entries.map Prod.fst) :
    ∃ toolId tool, next.toolNamed workspaceId (toolName manifest endpoint) = some (toolId, tool) ∧
      (endpoint.sideEffect ≠ .read → next.policyOf workspaceId toolId = some .deny ∨
        next.policyOf workspaceId toolId = some .requireApproval) := by
  induction entries generalizing store with
  | nil => cases member
  | cons entry rest ih =>
    obtain ⟨middle, writtenId, written, provisions, ok⟩ := provisionAll_cons ok
    have middleUnique := provisions.namesUnique unique
    rw [List.map_cons, List.mem_cons] at member
    rcases member with rfl | member
    · obtain ⟨now, late⟩ := provisionAll_follows middleUnique provisions.written.self ok
      have inWorkspace := late.inWorkspace.trans provisions.inWorkspace
      refine ⟨writtenId, now, (toolNamed_eq_some (provisionAll_namesUnique middleUnique ok)).mpr
        ⟨late.present, inWorkspace, late.named.trans provisions.named⟩, fun mutates => ?_⟩
      have refused := late.refused
      have reviewed := late.reviewed
      rw [provisions.inWorkspace] at refused reviewed
      exact (provisions.mutating mutates).imp refused.mpr reviewed
    · exact ih middleUnique ok member

/-- A tool as provisioning one of the endpoints leaves it. -/
structure ProvisionedFor (workspaceId integrationId : Uuid) (manifest : ConnectorManifest)
    (endpoints : List ConnectorEndpoint) (tool : ToolDefinition) : Prop where
  inWorkspace : tool.workspaceId = workspaceId
  enabled : tool.enabled = true
  serverKey : tool.serverKey = connectorServerKey
  endpoint : ∃ endpoint ∈ endpoints, tool.name = toolName manifest endpoint ∧
    tool.remoteName = remoteName integrationId endpoint.capability

/-- After a provisioning each tool is as an endpoint's provisioning left it or, without an
endpoint's name, as it was. -/
theorem provisionAll_tools (unique : NamesUnique store.toolDefinitions)
    (ok : provisionAll platform workspaceId integrationId manifest toolIds store entries =
      .ok next) {toolId : Uuid} (found : next.toolDefinitions.find? toolId = some tool) :
    ProvisionedFor workspaceId integrationId manifest (entries.map Prod.fst) tool ∨
      ¬ Touches workspaceId manifest (entries.map Prod.fst) tool ∧
        store.toolDefinitions.find? toolId = some tool := by
  induction entries generalizing store with
  | nil =>
    rw [provisionAll, List.foldlM_nil, pure_eq_ok] at ok
    subst ok
    exact .inr ⟨by simp [Touches], found⟩
  | cons entry rest ih =>
    obtain ⟨middle, writtenId, written, provisions, ok⟩ := provisionAll_cons ok
    rcases ih (provisions.namesUnique unique) ok with
      ⟨inWorkspace, enabled, serverKey, endpoint, member, fits⟩ | ⟨untouched, found⟩
    · exact .inl ⟨inWorkspace, enabled, serverKey, endpoint, List.mem_cons_of_mem _ member, fits⟩
    · obtain ⟨rfl, rfl⟩ | ⟨other, found⟩ := provisions.written.found found
      · exact .inl ⟨provisions.inWorkspace, provisions.enabled, provisions.serverKey, entry.1,
          by simp, provisions.named, provisions.remote⟩
      · refine .inr ⟨?_, found⟩
        rintro ⟨inWorkspace, endpoint, member, hasName⟩
        rw [List.map_cons, List.mem_cons] at member
        rcases member with rfl | member
        · rcases provisions.earlier with ⟨missing, _⟩ | ⟨was, named⟩
          · exact toolNamed_eq_none.mp missing toolId tool found inWorkspace hasName
          · obtain ⟨present, sameWorkspace, sameName⟩ := (toolNamed_eq_some unique).mp named
            exact other (unique toolId writtenId tool was found present
              (inWorkspace.trans sameWorkspace.symm) (hasName.trans sameName.symm))
        · exact untouched ⟨inWorkspace, endpoint, member, hasName⟩

theorem sync_eq_provisionAll {published : Option ConnectorManifest}
    (ok : sync platform store published workspaceId integrationId toolIds = .ok next) :
    ∃ manifest, published = some manifest ∧
      provisionAll platform workspaceId integrationId manifest toolIds store
        manifest.endpoints.zipIdx = .ok next := by
  simp only [sync, bind_eq_ok, orRaise_eq_ok] at ok
  exact ok

/-- What an administrator or an installed connection does to the tools of a workspace. -/
inductive Operation where
  | upsertTool (principal : Principal) (workspaceId : Uuid) (name : PyStr)
      (body : ToolUpsertInput) (toolId : Uuid)
  | setPolicy (principal : Principal) (workspaceId : Uuid) (toolName : PyStr)
      (policy : ToolPolicy)
  | sync (published : Option ConnectorManifest) (workspaceId integrationId : Uuid)
      (toolIds : Nat → Uuid)

/-- The store after an operation. -/
def Operation.run (platform : Platform) (store : Store) : Operation → Except Raised Store
  | .upsertTool principal workspaceId name body toolId =>
    store.upsertTool platform principal workspaceId name body toolId
  | .setPolicy principal workspaceId toolName policy =>
    store.setPolicy principal workspaceId toolName policy
  | .sync published workspaceId integrationId toolIds =>
    Connector.sync platform store published workspaceId integrationId toolIds

/-- The tools of workspaces, from a store in which no two share a name. -/
def toolMachine (platform : Platform) : Machine Store Operation :=
  .ofFunction (fun store => NamesUnique store.toolDefinitions) (Operation.run platform)

theorem upsertTool_namesUnique {principal : Principal} {name : PyStr} {body : ToolUpsertInput}
    {toolId : Uuid} (unique : NamesUnique store.toolDefinitions)
    (ok : store.upsertTool platform principal workspaceId name body toolId = .ok next) :
    NamesUnique next.toolDefinitions := by
  simp only [Run.Store.upsertTool, bind_eq_ok] at ok
  obtain ⟨_, _, _, _, _, _, _, _, _, _, ok⟩ := ok
  split at ok
  case h_1 existingId existing named =>
    rw [pure_eq_ok] at ok
    subst ok
    obtain ⟨present, _, _⟩ := (toolNamed_eq_some unique).mp named
    refine unique.write (.modify _ present) ?_
    intro other otherTool otherPresent sameWorkspace sameName
    exact unique other existingId otherTool existing otherPresent present sameWorkspace sameName
  case h_2 missing =>
    simp only [bind_eq_ok, orRaise_eq_ok, Table.insert?_eq_some, pure_eq_ok] at ok
    obtain ⟨_, ⟨_, rfl⟩, rfl⟩ := ok
    refine unique.write (.put _ _ _) ?_
    intro other otherTool present sameWorkspace sameName
    exact absurd sameName (toolNamed_eq_none.mp missing other otherTool present sameWorkspace)

/-- No operation gives two tools of a workspace one name. -/
theorem Operation.namesUnique {operation : Operation} (unique : NamesUnique store.toolDefinitions)
    (ok : operation.run platform store = .ok next) : NamesUnique next.toolDefinitions := by
  cases operation with
  | upsertTool => exact upsertTool_namesUnique unique ok
  | setPolicy =>
    simp only [Operation.run, Run.Store.setPolicy, bind_eq_ok, pure_eq_ok] at ok
    obtain ⟨_, _, _, _, rfl⟩ := ok
    exact unique
  | sync =>
    obtain ⟨manifest, _, provisioned⟩ := sync_eq_provisionAll ok
    exact provisionAll_namesUnique unique provisioned

/-- The policy decision a tool is called under: none when it is switched off. -/
def standingOf (store : Store) (toolId : Uuid) : Option PolicyDecision := do
  let tool ← store.toolDefinitions.find? toolId
  guard tool.enabled
  pure (effectivePolicy (store.policyOf tool.workspaceId toolId) tool.sideEffect)

/-- A tool that some call may reach. -/
def callable (store : Store) (toolId : Uuid) : Bool :=
  (standingOf store toolId).any fun decision => decision ≠ .deny

/-- A provisioning loosens no decision: a tool that was switched off or refused is not callable
after it, one that asks for approval still does, and so does one that changes something unless
it is refused. -/
structure NeverLoosens (before after : Store) (manifest : ConnectorManifest)
    (workspaceId : Uuid) : Prop where
  uncallable : ∀ toolId tool, before.toolDefinitions.find? toolId = some tool →
    tool.enabled = false ∨ before.policyOf tool.workspaceId toolId = some .deny →
      callable after toolId = false
  reviewed : ∀ toolId tool, before.toolDefinitions.find? toolId = some tool →
    before.policyOf tool.workspaceId toolId = some .requireApproval →
      standingOf after toolId ≠ some .allow
  mutating : ∀ endpoint ∈ manifest.endpoints, endpoint.sideEffect ≠ .read →
    ∃ toolId tool, after.toolNamed workspaceId (toolName manifest endpoint) = some (toolId, tool) ∧
      (after.policyOf workspaceId toolId = some .deny ∨
        after.policyOf workspaceId toolId = some .requireApproval)

/-- Every tool of the connector that is switched off is refused by its policy as well. -/
def SwitchedOffRefused (store : Store) (manifest : ConnectorManifest) (workspaceId : Uuid) :
    Prop :=
  ∀ endpoint ∈ manifest.endpoints, ∀ toolId tool,
    store.toolNamed workspaceId (toolName manifest endpoint) = some (toolId, tool) →
      tool.enabled = false → store.policyOf workspaceId toolId = some .deny

namespace Follows

variable {toolId : Uuid} {was now : ToolDefinition} {touched : Prop}

theorem standingOf_eq (follows : Follows store next toolId was now touched) :
    standingOf next toolId = if now.enabled then
      some (effectivePolicy (next.policyOf was.workspaceId toolId) now.sideEffect) else none := by
  by_cases enabled : now.enabled <;>
    simp [standingOf, follows.present, follows.inWorkspace, enabled, guard]

theorem uncallable_of_deny (follows : Follows store next toolId was now touched)
    (refused : store.policyOf was.workspaceId toolId = some .deny) :
    callable next toolId = false := by
  rw [callable, follows.standingOf_eq, follows.refused.mpr refused]
  split <;> rfl

theorem not_allow_of_requireApproval (follows : Follows store next toolId was now touched)
    (asked : store.policyOf was.workspaceId toolId = some .requireApproval) :
    standingOf next toolId ≠ some .allow := by
  rw [follows.standingOf_eq, follows.reviewed asked]
  split <;> simp [effectivePolicy]

/-- A provisioned tool is callable unless it was refused. -/
theorem callable_of_touched (follows : Follows store next toolId was now touched)
    (isTouched : touched) (allowed : store.policyOf was.workspaceId toolId ≠ some .deny) :
    callable next toolId = true := by
  obtain ⟨enabled, hasPolicy⟩ := follows.switchedOn isTouched
  have allowedAfter : next.policyOf was.workspaceId toolId ≠ some .deny :=
    fun refused => allowed (follows.refused.mp refused)
  rw [callable, follows.standingOf_eq, if_pos enabled, Option.any_some, decide_eq_true_eq]
  cases policy : next.policyOf was.workspaceId toolId with
  | none => exact absurd policy hasPolicy
  | some decision =>
    cases decision with
    | deny => exact absurd policy allowedAfter
    | allow => simp only [effectivePolicy]; split <;> simp
    | requireApproval => simp [effectivePolicy]

end Follows

/-- A tool that is touched has the name of one of the endpoints. -/
theorem touches_of_named {toolId : Uuid} (unique : NamesUnique store.toolDefinitions)
    (member : endpoint ∈ manifest.endpoints)
    (named : store.toolNamed workspaceId (toolName manifest endpoint) = some (toolId, tool)) :
    store.toolDefinitions.find? toolId = some tool ∧
      Touches workspaceId manifest (manifest.endpoints.zipIdx.map Prod.fst) tool := by
  obtain ⟨present, inWorkspace, hasName⟩ := (toolNamed_eq_some unique).mp named
  exact ⟨present, inWorkspace, endpoint, by simpa using member, hasName⟩

theorem neverLoosens_iff (unique : NamesUnique store.toolDefinitions)
    (ok : provisionAll platform workspaceId integrationId manifest toolIds store
      manifest.endpoints.zipIdx = .ok next) :
    NeverLoosens store next manifest workspaceId ↔
      SwitchedOffRefused store manifest workspaceId := by
  constructor
  · intro tight endpoint member toolId tool named off
    obtain ⟨present, touched⟩ := touches_of_named unique member named
    obtain ⟨now, follows⟩ := provisionAll_follows unique present ok
    have uncallable := tight.uncallable toolId tool present (.inl off)
    by_contra allowed
    rw [← touched.1] at allowed
    rw [follows.callable_of_touched touched allowed] at uncallable
    cases uncallable
  · intro refused
    refine ⟨?_, ?_, ?_⟩
    · intro toolId tool present was
      obtain ⟨now, follows⟩ := provisionAll_follows unique present ok
      rcases was with off | denied
      · by_cases touched : Touches workspaceId manifest
            (manifest.endpoints.zipIdx.map Prod.fst) tool
        · obtain ⟨inWorkspace, endpoint, member, hasName⟩ := id touched
          have named := (toolNamed_eq_some unique).mpr ⟨present, inWorkspace, hasName⟩
          refine follows.uncallable_of_deny ?_
          rw [inWorkspace]
          exact refused endpoint (by simpa using member) toolId tool named off
        · obtain ⟨rfl, _⟩ := follows.spared touched
          rw [callable, follows.standingOf_eq, off]
          rfl
      · exact follows.uncallable_of_deny denied
    · intro toolId tool present asked
      obtain ⟨now, follows⟩ := provisionAll_follows unique present ok
      exact follows.not_allow_of_requireApproval asked
    · intro endpoint member mutates
      obtain ⟨toolId, tool, named, asked⟩ :=
        provisionAll_named unique ok (by simpa using member)
      exact ⟨toolId, tool, named, asked mutates⟩

/-- A provisioning loosens no administrator's decision exactly when every tool of the connector
that is switched off is refused by its policy as well. -/
theorem sync_neverLoosens_iff (platform : Platform) (history : List (Transition Store Operation))
    (final : Store) (transition : Transition Store Operation) (manifest : ConnectorManifest)
    (workspaceId integrationId : Uuid) (toolIds : Nat → Uuid)
    (runs : (toolMachine platform).Runs history final) (member : transition ∈ history)
    (isSync : transition.label = .sync (some manifest) workspaceId integrationId toolIds) :
    NeverLoosens transition.before transition.after manifest workspaceId ↔
      SwitchedOffRefused transition.before manifest workspaceId := by
  obtain ⟨earlier, later, splits⟩ := List.append_of_mem member
  obtain ⟨before, step, _⟩ := runs.split splits
  have unique : NamesUnique transition.before.toolDefinitions :=
    before.invariant (fun store => NamesUnique store.toolDefinitions) (fun _ unique => unique)
      (fun _ _ _ unique transition => Operation.namesUnique unique transition)
  rw [isSync] at step
  obtain ⟨_, published, provisioned⟩ := sync_eq_provisionAll step
  obtain rfl := Option.some.inj published
  exact neverLoosens_iff unique provisioned

/-- Workspace 1 with its owner and no tool. -/
def bareStore : Store :=
  { Store.empty with memberships := Table.ofList [((1, exampleOwner), .owner)] }

/-- Provision WordPress connection 20, with tool 70 for its endpoint. -/
def syncWordpress : Operation := .sync (some wordpress) 1 20 fun index => 70 + index

/-- The owner registers the endpoint's tool again, switched off. -/
def switchOff : Operation :=
  .upsertTool exampleOwner 1 (py "wordpress.posts.read")
    { serverKey := connectorServerKey, remoteName := remoteName 20 "posts.read"
      inputSchema := defaultInputSchema, outputSchema := none, sideEffect := .read
      enabled := false } 71

/-- The owner refuses the endpoint's tool. -/
def refuse : Operation :=
  .setPolicy exampleOwner 1 (py "wordpress.posts.read") ⟨.deny, py "Not here"⟩

theorem bareStore_namesUnique : NamesUnique bareStore.toolDefinitions := by
  intro first second firstTool secondTool present
  simp [bareStore, Run.Store.empty] at present

/-- Every tool of the WordPress connector that is switched off is refused, as a check. -/
def wordpressRefused (store : Store) : Bool :=
  (store.toolNamed 1 (py "wordpress.posts.read")).all fun entry =>
    entry.2.enabled || store.policyOf 1 entry.1 = some .deny

theorem switchedOffRefused_wordpress (refused : wordpressRefused store = true) :
    SwitchedOffRefused store wordpress 1 := by
  intro endpoint member toolId tool named off
  obtain rfl : endpoint = _ := List.mem_singleton.mp member
  have isNamed : store.toolNamed 1 (py "wordpress.posts.read") = some (toolId, tool) := named
  simpa [wordpressRefused, isNamed, off] using refused

/-- The operation provisions a WordPress connection of workspace 1. -/
def Operation.syncsWordpress : Operation → Bool
  | .sync published workspaceId _ _ => published = some wordpress && workspaceId = 1
  | _ => false

theorem Operation.eq_sync_of_syncsWordpress {operation : Operation}
    (syncs : operation.syncsWordpress = true) :
    ∃ integrationId toolIds, operation = .sync (some wordpress) 1 integrationId toolIds := by
  cases operation with
  | sync published workspaceId integrationId toolIds =>
    simp only [Operation.syncsWordpress, Bool.and_eq_true, decide_eq_true_eq] at syncs
    exact ⟨integrationId, toolIds, by rw [syncs.1, syncs.2]⟩
  | _ => cases syncs

/-- The endpoint's tool is there and switched off. -/
def wordpressOff (store : Store) : Bool :=
  (store.toolNamed 1 (py "wordpress.posts.read")).any fun entry => !entry.2.enabled

/-- `sync_neverLoosens_iff` applies to a tool that is switched off and refused. -/
theorem sync_neverLoosens_refused :
    ∃ history final transition, (toolMachine examplePlatform).Runs history final ∧
      transition ∈ history ∧ wordpressOff transition.before = true ∧
        NeverLoosens transition.before transition.after wordpress 1 := by
  obtain ⟨history, final, runs, checked⟩ := Machine.exists_run_of_trace
    (fun store => NamesUnique store.toolDefinitions) (Operation.run examplePlatform)
    [syncWordpress, switchOff, refuse, syncWordpress] bareStore
    (fun history _ => Machine.splitsAt history 3 fun _ transition _ =>
      transition.label.syncsWordpress && wordpressOff transition.before &&
        wordpressRefused transition.before)
    bareStore_namesUnique (by decide +kernel)
  obtain ⟨earlier, transition, later, splits, checks⟩ := Machine.exists_split checked
  simp only [Bool.and_eq_true] at checks
  obtain ⟨integrationId, toolIds, isSync⟩ := Operation.eq_sync_of_syncsWordpress checks.1.1
  have member : transition ∈ history := by simp [splits]
  exact ⟨history, final, transition, runs, member, checks.1.2,
    (sync_neverLoosens_iff examplePlatform history final transition wordpress 1 integrationId
      toolIds runs member isSync).mpr (switchedOffRefused_wordpress checks.2)⟩

/-- A tool the owner switched off is callable after the next provisioning. -/
theorem sync_switches_on :
    ¬ ∀ (platform : Platform) (history : List (Transition Store Operation)) (final : Store)
        (transition : Transition Store Operation) (manifest : ConnectorManifest)
        (workspaceId integrationId : Uuid) (toolIds : Nat → Uuid),
      (toolMachine platform).Runs history final → transition ∈ history →
        transition.label = .sync (some manifest) workspaceId integrationId toolIds →
          NeverLoosens transition.before transition.after manifest workspaceId := by
  intro always
  obtain ⟨history, final, runs, checked⟩ := Machine.exists_run_of_trace
    (fun store => NamesUnique store.toolDefinitions) (Operation.run examplePlatform)
    [syncWordpress, switchOff, syncWordpress] bareStore
    (fun history _ => Machine.splitsAt history 2 fun _ transition _ =>
      transition.label.syncsWordpress &&
        (transition.before.toolDefinitions.find? 70).any (fun tool => !tool.enabled) &&
          callable transition.after 70)
    bareStore_namesUnique (by decide +kernel)
  obtain ⟨earlier, transition, later, splits, checks⟩ := Machine.exists_split checked
  simp only [Bool.and_eq_true, Option.any_eq_true, Bool.not_eq_true'] at checks
  obtain ⟨⟨syncs, tool, present, off⟩, reached⟩ := checks
  obtain ⟨integrationId, toolIds, isSync⟩ := Operation.eq_sync_of_syncsWordpress syncs
  have tight := always examplePlatform history final transition wordpress 1 integrationId toolIds
    runs (by simp [splits]) isSync
  have uncallable := tight.uncallable 70 tool present (.inl off)
  rw [reached] at uncallable
  cases uncallable

end Nexora.Connector
