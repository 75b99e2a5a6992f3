import Nexora.Connector.Limits

/-!
# Asking for a run again

A requester's idempotency key is of one run. A custom agent's creation looks for that run before
anything that may have changed. A standard agent's checks the agent and freezes its contracts
first: asking again answers with the run only while the agent is active and ready and every
contract its tools would be frozen under is registered already.
-/

namespace Nexora.Connector

open Nexora.Std Nexora.Workspace Nexora.Integration Nexora.Tenant Json

/-- A request for a run of an agent. -/
structure RunRequest where
  kind : Run.AgentKind
  principal : Principal
  workspaceId : Uuid
  agentId : Uuid
  input : PyStr
  idempotencyKey : String

/-- What `create_run` answers: a run, and whether it is new. -/
structure RunAnswer where
  runId : Uuid
  created : Bool
  deriving DecidableEq

namespace RunRequest

variable (request : RunRequest)

/-- The digest a request is compared by. -/
def fingerprint (runtime : Tools.Runtime) : Nat :=
  match request.kind with
  | .custom => requestHash runtime "agent_id" request.agentId request.input
  | .standard => requestHash runtime "tenant_agent_id" request.agentId request.input

/-- The request to the fleet; a new run and its tools draw these identifiers. -/
def label (newId : Uuid) (toolIds : Nat → Uuid) : FleetRequest :=
  match request.kind with
  | .custom => .createCustomRun request.principal request.workspaceId request.agentId request.input
      request.idempotencyKey newId
  | .standard => .createStandardRun request.principal request.workspaceId request.agentId
      request.input request.idempotencyKey newId toolIds

/-- The tools and the runs that `create_run` leaves. -/
def leave (host : Host) (fleet : Fleet) (newId : Uuid) (toolIds : Nat → Uuid) :
    Except Run.Raised (Run.Store × Table Uuid RunRow) :=
  match request.kind with
  | .custom => do
      let runs ← createCustomRun host.platform.runtime fleet.tenant.memberships fleet.runs
        request.principal request.workspaceId request.agentId request.input request.idempotencyKey
        newId
      pure (fleet.tools, runs)
  | .standard => createStandardRun host fleet.tenant fleet.tools fleet.runs request.principal
      request.workspaceId request.agentId request.input request.idempotencyKey newId toolIds

/-- What either `create_run` answers once it succeeds. -/
def answer (runs : Table Uuid RunRow) (newId : Uuid) : RunAnswer :=
  match existingRun runs request.principal request.workspaceId request.idempotencyKey with
  | some (runId, _) => ⟨runId, false⟩
  | none => ⟨newId, true⟩

/-- `create_run`: its answer, and the tools and the runs it leaves. -/
def perform (host : Host) (fleet : Fleet) (newId : Uuid) (toolIds : Nat → Uuid) :
    Except Run.Raised (RunAnswer × Run.Store × Table Uuid RunRow) := do
  let left ← request.leave host fleet newId toolIds
  pure (request.answer fleet.runs newId, left)

/-- Another request of the same requester under the same key. -/
def SharesKey (other : RunRequest) : Prop :=
  other.principal = request.principal ∧ other.workspaceId = request.workspaceId ∧
    other.idempotencyKey = request.idempotencyKey

end RunRequest

/-- A step of a run commits the run that is asked for. -/
structure CommitsRun (creation : Transition Fleet FleetRequest) (request : RunRequest)
    (runId : Uuid) : Prop where
  label : ∃ toolIds, creation.label = request.label runId toolIds
  absent : creation.before.runs.find? runId = none
  present : (creation.after.runs.find? runId).isSome = true

/-- Asking again answers with the run and creates nothing, and what is asked for otherwise under
the key is refused. -/
structure Repeats (host : Host) (fleet : Fleet) (request : RunRequest) (runId : Uuid) :
    Prop where
  again : ∀ newId toolIds, request.perform host fleet newId toolIds =
    .ok (⟨runId, false⟩, fleet.tools, fleet.runs)
  refused : ∀ other newId toolIds, request.SharesKey other →
    other.fingerprint host.platform.runtime ≠ request.fingerprint host.platform.runtime →
    ∀ result, other.perform host fleet newId toolIds ≠ .ok result

/-- Freezing a contract changes nothing: its tool is stored as it would be, with its policy, or
is switched off and left out. -/
structure Standing (platform : Run.Platform) (tools : Run.Store) (workspaceId : Uuid)
    (frozen : FrozenTool) (optional : Prop) : Prop where
  inputSchema : Run.storable frozen.contract.inputSchema = true
  outputSchema : ∀ schema ∈ frozen.contract.outputSchema, Run.storable schema = true
  stored : ∃ toolId tool, tools.toolNamed workspaceId frozen.name = some (toolId, tool) ∧
    frozen.isStoredAs tool = true ∧
    if tool.enabled then (tools.toolPolicies.find? (workspaceId, toolId)).isSome = true
    else optional

namespace Drafting

variable (drafting : Drafting)

/-- Nothing is left out that the agent requires. -/
def MayLack (publicName : String) : Prop := publicName ∉ drafting.manifest.requiredTools

/-- The browser tools of an instance stand as they are. -/
def BrowserStands (host : Host) (tools : Run.Store) (publicName : String) : Prop :=
  match drafting.siteUrl host with
  | none => drafting.MayLack publicName
  | some site =>
    match host.deployment.library.urlsplit site with
    | .error _ => False
    | .ok parsed =>
      if parsed.scheme ≠ "https" ∨ parsed.hostname.getD "" = "" ∨
          parsed.username.getD "" ≠ "" ∨ parsed.password.getD "" ≠ "" then
        drafting.MayLack publicName
      else
        Standing host.platform tools drafting.workspaceId
          (browserTool host.platform.runtime publicName
            (parsed.scheme ++ "://" ++ parsed.netloc)) (drafting.MayLack publicName)

/-- The tool of a name stands as it is. -/
def ToolStands (host : Host) (tools : Run.Store) (publicName : String) : Prop :=
  if publicName ∈ ["nexora.tasks.create", "nexora.tasks.verify"] then
    Standing host.platform tools drafting.workspaceId
      (tasksTool host.platform.runtime publicName) (drafting.MayLack publicName)
  else if publicName ∈ ["browser.page.inspect", "browser.page.action"] then
    drafting.BrowserStands host tools publicName
  else
    match partitionDot publicName with
    | none => True
    | some (integrationKey, capability) =>
      if integrationKey ∉ drafting.manifest.integrations.map Prod.fst then True
      else
        match drafting.connectorContract host.platform.runtime publicName integrationKey
            capability with
        | .error _ => drafting.MayLack publicName
        | .ok (_, tool) =>
          Standing host.platform tools drafting.workspaceId tool (drafting.MayLack publicName)

end Drafting

/-- A standard agent may run, and every tool it declares stands as it is. -/
def Unchanged (host : Host) (fleet : Fleet) (request : RunRequest) : Prop :=
  ∃ row manifest, instanceRow fleet.tenant request.workspaceId request.agentId = .ok row ∧
    Tenant.manifest fleet.tenant row.versionId = .ok manifest ∧ row.standing = .active ∧
    readiness manifest (boundStatus fleet.tenant request.workspaceId request.agentId) = true ∧
    ∀ publicName ∈ manifest.requiredTools ++ manifest.optionalTools,
      Drafting.ToolStands ⟨fleet.tenant, request.workspaceId, request.agentId, manifest,
        row.settings⟩ host fleet.tools publicName

/-- No tool and no policy is removed, and a store that is not the same has one more of them. -/
structure Extends (before after : Run.Store) : Prop where
  tools : ∀ toolId, (before.toolDefinitions.find? toolId).isSome = true →
    (after.toolDefinitions.find? toolId).isSome = true
  policies : ∀ key, (before.toolPolicies.find? key).isSome = true →
    (after.toolPolicies.find? key).isSome = true
  grown : after = before ∨
    (∃ toolId, before.toolDefinitions.find? toolId = none ∧
      (after.toolDefinitions.find? toolId).isSome = true) ∨
    ∃ key, before.toolPolicies.find? key = none ∧
      (after.toolPolicies.find? key).isSome = true

namespace Extends

variable {before after last : Run.Store}

theorem refl (store : Run.Store) : Extends store store := ⟨fun _ => id, fun _ => id, .inl rfl⟩

theorem trans (early : Extends before after) (late : Extends after last) :
    Extends before last where
  tools toolId known := late.tools toolId (early.tools toolId known)
  policies key known := late.policies key (early.policies key known)
  grown := by
    rcases early.grown with rfl | ⟨toolId, absent, present⟩ | ⟨key, absent, present⟩
    · exact late.grown
    · exact .inr (.inl ⟨toolId, absent, late.tools toolId present⟩)
    · exact .inr (.inr ⟨key, absent, late.policies key present⟩)

theorem antisymm (forth : Extends before after) (back : Extends after before) :
    after = before := by
  rcases forth.grown with same | ⟨toolId, absent, present⟩ | ⟨key, absent, present⟩
  · exact same
  · have known := back.tools toolId present
    rw [absent] at known
    cases known
  · have known := back.policies key present
    rw [absent] at known
    cases known

end Extends

section Freezing

variable {host : Host} {drafting : Drafting} {tools after : Run.Store} {publicName : String}
  {toolId workspaceId : Uuid} {frozen : FrozenTool} {drafted later : Run.Store × RunContracts}
  {platform : Run.Platform} {contracts : RunContracts} {change : RunContracts → RunContracts}

theorem insertPolicy_extends (policy : Run.ToolPolicy) :
    Extends tools (insertPolicy tools workspaceId toolId policy) := by
  unfold insertPolicy
  split
  case h_1 => exact .refl _
  case h_2 absent =>
    refine ⟨fun _ => id, fun key known => ?_, .inr (.inr ⟨(workspaceId, toolId), absent, ?_⟩)⟩
    · rw [Table.find?_put_eq]
      split
      · rfl
      · exact known
    · rw [Table.find?_put]
      rfl

/-- A policy is not inserted exactly when there is one. -/
theorem insertPolicy_eq_self (policy : Run.ToolPolicy) :
    insertPolicy tools workspaceId toolId policy = tools ↔
      (tools.toolPolicies.find? (workspaceId, toolId)).isSome = true := by
  unfold insertPolicy
  split
  case h_1 present => simp [present]
  case h_2 absent =>
    simp only [absent, Option.isSome_none, Bool.false_eq_true, iff_false]
    intro same
    have found := congrArg (fun store : Run.Store =>
      store.toolPolicies.find? (workspaceId, toolId)) same
    simp [absent] at found

theorem insertTool_extends (ok : insertTool platform tools workspaceId frozen toolId = .ok after) :
    Extends tools after := by
  simp only [insertTool, bind_eq_ok] at ok
  obtain ⟨_, _, _, _, ok⟩ := ok
  split at ok
  case h_1 =>
    rw [pure_eq_ok] at ok
    subst ok
    exact .refl _
  case h_2 =>
    simp only [bind_eq_ok, orRaise_eq_ok, Table.insert?_eq_some, pure_eq_ok] at ok
    obtain ⟨_, ⟨absent, rfl⟩, rfl⟩ := ok
    refine ⟨fun other known => ?_, fun _ => id, .inr (.inl ⟨toolId, absent, ?_⟩)⟩
    · rw [Table.find?_put_eq]
      split
      · rfl
      · exact known
    · rw [Table.find?_put]
      rfl

/-- A tool is not inserted exactly when its schemas can be stored and its name is taken. -/
theorem insertTool_eq_self :
    insertTool platform tools workspaceId frozen toolId = .ok tools ↔
      Run.storable frozen.contract.inputSchema = true ∧
      (∀ schema ∈ frozen.contract.outputSchema, Run.storable schema = true) ∧
      (tools.toolNamed workspaceId frozen.name).isSome = true := by
  have outputs : (∃ stored, frozen.contract.outputSchema.mapM (Run.storeJson platform) =
      .ok stored) ↔ ∀ schema ∈ frozen.contract.outputSchema, Run.storable schema = true := by
    cases frozen.contract.outputSchema with
    | none => simp [pure, Except.pure]
    | some schema =>
      by_cases valid : Run.storable schema = true <;>
        simp [Run.storeJson, raiseIf, valid, Option.mapM, bind, Except.bind, Functor.map,
          Except.map, pure, Except.pure]
  constructor
  · intro ok
    have inserted := ok
    simp only [insertTool, bind_eq_ok, Run.storeJson_eq_ok] at ok
    obtain ⟨_, ⟨input, _⟩, stored, output, ok⟩ := ok
    refine ⟨input, outputs.mp ⟨stored, output⟩, ?_⟩
    split at ok
    case h_1 named => rw [named]; rfl
    case h_2 =>
      simp only [bind_eq_ok, orRaise_eq_ok, Table.insert?_eq_some, pure_eq_ok] at ok
      obtain ⟨_, ⟨absent, rfl⟩, same⟩ := ok
      have found := congrArg (fun store : Run.Store => store.toolDefinitions.find? toolId) same
      simp [absent] at found
  · rintro ⟨input, output, named⟩
    obtain ⟨stored, isStored⟩ := outputs.mpr output
    obtain ⟨entry, isNamed⟩ := Option.isSome_iff_exists.mp named
    simp only [insertTool, bind_eq_ok, Run.storeJson_eq_ok]
    refine ⟨_, ⟨input, rfl⟩, stored, isStored, ?_⟩
    rw [isNamed]
    rfl

theorem register_extends {registered : Bool × Run.Store}
    (ok : register platform tools workspaceId frozen toolId = .ok registered) :
    Extends tools registered.2 := by
  simp only [register, bind_eq_ok] at ok
  obtain ⟨inserted, inserts, stored, _, _, _, ok⟩ := ok
  have extended := insertTool_extends inserts
  split at ok
  all_goals
    rw [pure_eq_ok] at ok
    subst ok
  · exact extended.trans (insertPolicy_extends _)
  · exact extended

theorem freeze_extends
    (ok : drafting.freeze host publicName frozen toolId drafted change = .ok later) :
    Extends drafted.1 later.1 := by
  obtain ⟨offered, registers⟩ := (freeze_ok ok).1
  exact register_extends registers

theorem freezeTool_extends (ok : drafting.freezeTool host publicName toolId drafted = .ok later) :
    Extends drafted.1 later.1 := by
  cases freezeTool_freezes ok with
  | plain same _ =>
    rw [same]
    exact .refl _
  | contract _ _ freezes _ => exact freeze_extends freezes
  | connector _ _ _ _ _ _ freezes _ => exact freeze_extends freezes

/-- Registering a contract changes nothing exactly when it stands. -/
theorem register_eq_self {optional : Prop} :
    (∃ offered, register platform tools workspaceId frozen toolId = .ok (offered, tools) ∧
      (offered = false → optional)) ↔ Standing platform tools workspaceId frozen optional := by
  constructor
  · rintro ⟨offered, ok, left⟩
    simp only [register, bind_eq_ok, orRaise_eq_ok, raiseIf_eq_ok, Bool.not_eq_false] at ok
    obtain ⟨inserted, inserts, stored, named, _, same, ok⟩ := ok
    have forth := insertTool_extends inserts
    split at ok
    case isTrue enabled =>
      simp only [pure_eq_ok, Prod.mk.injEq] at ok
      have back : Extends inserted (insertPolicy inserted workspaceId stored.1 frozen.policy) :=
        insertPolicy_extends frozen.policy
      rw [ok.2] at back
      obtain rfl := forth.antisymm back
      obtain ⟨input, output, _⟩ := insertTool_eq_self.mp inserts
      refine ⟨input, output, stored.1, stored.2, named, same, ?_⟩
      rw [if_pos enabled]
      exact (insertPolicy_eq_self _).mp ok.2
    case isFalse disabled =>
      simp only [pure_eq_ok, Prod.mk.injEq] at ok
      obtain ⟨rfl, rfl⟩ := ok
      obtain ⟨input, output, _⟩ := insertTool_eq_self.mp inserts
      refine ⟨input, output, stored.1, stored.2, named, same, ?_⟩
      rw [if_neg disabled]
      exact left rfl
  · rintro ⟨input, output, storedId, tool, named, same, rest⟩
    have inserts : insertTool platform tools workspaceId frozen toolId = .ok tools :=
      insertTool_eq_self.mpr ⟨input, output, by rw [named]; rfl⟩
    refine ⟨tool.enabled, ?_, ?_⟩
    · simp only [register, bind_eq_ok, orRaise_eq_ok, raiseIf_eq_ok, Bool.not_eq_false]
      refine ⟨tools, inserts, (storedId, tool), named, ⟨⟩, same, ?_⟩
      cases enabled : tool.enabled with
      | true =>
        rw [enabled, if_pos rfl] at rest
        simp [(insertPolicy_eq_self frozen.policy).mpr rest, pure, Except.pure]
      | false => simp [pure, Except.pure]
    · intro disabled
      simpa [disabled] using rest

/-- A tool that is left out changes nothing, unless the agent requires it. -/
theorem unavailable_eq_ok {detail : String} :
    drafting.unavailable publicName detail drafted = .ok later ↔
      drafting.MayLack publicName ∧ later = drafted := by
  unfold Drafting.unavailable Drafting.MayLack
  split
  case isTrue required => simp [required]
  case isFalse optional => simp [optional, pure, Except.pure, eq_comm]

/-- Freezing a contract leaves the tools exactly when it stands. -/
theorem freeze_eq_self :
    (∃ later, drafting.freeze host publicName frozen toolId (tools, contracts) change =
        .ok (tools, later)) ↔
      Standing host.platform tools drafting.workspaceId frozen (drafting.MayLack publicName) := by
  have registered : (∃ offered, register host.platform tools drafting.workspaceId frozen toolId =
        .ok (offered, tools) ∧ (offered = false → drafting.MayLack publicName)) ↔
      Standing host.platform tools drafting.workspaceId frozen (drafting.MayLack publicName) :=
    register_eq_self
  rw [← registered]
  constructor
  · rintro ⟨later, ok⟩
    simp only [Drafting.freeze, bind_eq_ok] at ok
    obtain ⟨⟨offered, registered⟩, registers, ok⟩ := ok
    cases offered with
    | true =>
      simp only [if_pos, pure_eq_ok, Prod.mk.injEq] at ok
      obtain ⟨rfl, _⟩ := ok
      exact ⟨true, registers, by simp⟩
    | false =>
      simp only [Bool.false_eq_true, if_false, unavailable_eq_ok, Prod.mk.injEq] at ok
      obtain ⟨mayLack, rfl, _⟩ := ok
      exact ⟨false, registers, fun _ => mayLack⟩
  · rintro ⟨offered, registers, left⟩
    simp only [Drafting.freeze, bind_eq_ok]
    cases offered with
    | true => exact ⟨_, _, registers, rfl⟩
    | false => exact ⟨_, _, registers, unavailable_eq_ok.mpr ⟨left rfl, rfl⟩⟩

theorem freezeBrowser_eq_self :
    (∃ later, drafting.freezeBrowser host publicName toolId (tools, contracts) =
        .ok (tools, later)) ↔ drafting.BrowserStands host tools publicName := by
  have mayLack (detail : String) :
      (∃ later, drafting.unavailable publicName detail (tools, contracts) = .ok (tools, later)) ↔
        drafting.MayLack publicName := by
    simp [unavailable_eq_ok]
  unfold Drafting.freezeBrowser Drafting.BrowserStands
  cases drafting.siteUrl host with
  | none => exact mayLack _
  | some site =>
    dsimp only
    cases host.deployment.library.urlsplit site with
    | error _ => simp [Except.mapError, bind, Except.bind]
    | ok parsed =>
      simp only [Except.mapError, bind, Except.bind]
      split
      case isTrue => exact mayLack _
      case isFalse => exact freeze_eq_self

/-- One tool of the manifest leaves the tools exactly when it stands as it is. -/
theorem freezeTool_eq_self :
    (∃ later, drafting.freezeTool host publicName toolId (tools, contracts) =
        .ok (tools, later)) ↔ drafting.ToolStands host tools publicName := by
  unfold Drafting.freezeTool Drafting.ToolStands
  split
  case isTrue => exact freeze_eq_self
  case isFalse =>
    split
    case isTrue => exact freezeBrowser_eq_self
    case isFalse =>
      cases Drafting.partitionDot publicName with
      | none => simp [pure, Except.pure]
      | some parts =>
        obtain ⟨integrationKey, capability⟩ := parts
        dsimp only
        by_cases undeclared : integrationKey ∉ drafting.manifest.integrations.map Prod.fst
        · simp only [if_pos undeclared, iff_true]
          exact ⟨_, rfl⟩
        · simp only [if_neg undeclared]
          cases drafting.connectorContract host.platform.runtime publicName integrationKey
              capability with
          | error detail => simp [unavailable_eq_ok]
          | ok contract => exact freeze_eq_self

/-- The manifest's tools leave the tools exactly when each stands as it is. -/
theorem freezeAll_eq_self (entries : List (String × Nat)) (toolIds : Nat → Uuid)
    (contracts : RunContracts) :
    (∃ later, entries.foldlM (fun drafted entry =>
        drafting.freezeTool host entry.1 (toolIds entry.2) drafted) (tools, contracts) =
          .ok (tools, later)) ↔
      ∀ entry ∈ entries, drafting.ToolStands host tools entry.1 := by
  induction entries generalizing contracts with
  | nil => simp [pure, Except.pure]
  | cons entry rest ih =>
    simp only [List.foldlM_cons, bind_eq_ok, List.forall_mem_cons]
    constructor
    · rintro ⟨later, ⟨middle, middleContracts⟩, first, others⟩
      have forth := freezeTool_extends first
      -- The first tool has added nothing that the others could have taken away.
      have back : Extends middle tools := by
        refine foldlM_invariant (fun drafted : Run.Store × RunContracts =>
          Extends middle drafted.1) ?_ (.refl _) others
        intro drafted entry _ next extended step
        exact extended.trans (freezeTool_extends step)
      obtain rfl := forth.antisymm back
      exact ⟨freezeTool_eq_self.mp ⟨_, first⟩, (ih _).mp ⟨_, others⟩⟩
    · rintro ⟨first, others⟩
      obtain ⟨middle, frozen⟩ := freezeTool_eq_self.mpr first
      obtain ⟨later, ok⟩ := (ih middle).mpr others
      exact ⟨later, _, frozen, ok⟩

theorem connectorRunContracts_eq_self (drafting : Drafting) (toolIds : Nat → Uuid) :
    (∃ contracts, drafting.connectorRunContracts host tools toolIds = .ok (tools, contracts)) ↔
      ∀ name ∈ drafting.manifest.requiredTools ++ drafting.manifest.optionalTools,
        drafting.ToolStands host tools name := by
  rw [Drafting.connectorRunContracts, freezeAll_eq_self]
  constructor
  · intro stands name member
    obtain ⟨index, inside, rfl⟩ := List.getElem_of_mem member
    exact stands (_, index) (List.mk_mem_zipIdx_iff_getElem?.mpr (by simp))
  · rintro stands ⟨name, index⟩ member
    exact stands name (List.mem_of_getElem? (List.mk_mem_zipIdx_iff_getElem?.mp member))

end Freezing

/-- A requester's key in a workspace is of at most one run. -/
def KeysUnique (runs : Table Uuid RunRow) : Prop :=
  ∀ first second firstRun secondRun, runs.find? first = some firstRun →
    runs.find? second = some secondRun → firstRun.workspaceId = secondRun.workspaceId →
    firstRun.requestedBy = secondRun.requestedBy →
    firstRun.idempotencyKey = secondRun.idempotencyKey → first = second

/-- A run is the one a request asks for. -/
structure IsFor (request : RunRequest) (runtime : Tools.Runtime) (run : RunRow) : Prop where
  workspaceId : run.workspaceId = request.workspaceId
  requestedBy : run.requestedBy = request.principal
  idempotencyKey : run.idempotencyKey = request.idempotencyKey
  requestHash : run.requestHash = request.fingerprint runtime
  kind : run.target.isCustom = true ↔ request.kind = .custom

variable {creation : Transition Fleet FleetRequest}

section Creation

variable {host : Host} {fleet next : Fleet} {request : RunRequest} {newId runId : Uuid}
  {toolIds : Nat → Uuid} {runs : Table Uuid RunRow} {left : Run.Store × Table Uuid RunRow}

theorem existingRun_eq_some {run : RunRow} (unique : KeysUnique runs)
    (found : runs.find? runId = some run) :
    existingRun runs run.requestedBy run.workspaceId run.idempotencyKey = some (runId, run) := by
  apply Table.first?_eq_some_of_unique found
  · simp
  · intro other otherRun present matching
    simp only [Bool.and_eq_true, decide_eq_true_eq] at matching
    obtain ⟨⟨ofWorkspace, ofRequester⟩, ofKey⟩ := matching
    exact unique _ _ _ _ present found ofWorkspace ofRequester ofKey

/-- The runs are left as they are, where the key has a run; or the run asked for is new. -/
theorem leave_runs (ok : request.leave host fleet newId toolIds = .ok left) :
    (left.2 = fleet.runs ∧ ∃ existing, existingRun fleet.runs request.principal
        request.workspaceId request.idempotencyKey = some existing ∧
        existing.2.requestHash = request.fingerprint host.platform.runtime) ∨
    (existingRun fleet.runs request.principal request.workspaceId request.idempotencyKey = none ∧
      ∃ run, fleet.runs.insert? newId run = some left.2 ∧
        IsFor request host.platform.runtime run) := by
  unfold RunRequest.leave at ok
  unfold RunRequest.fingerprint
  cases kind : request.kind with
  | custom =>
    simp only [kind, createCustomRun, bind_eq_ok, pure_eq_ok] at ok
    obtain ⟨later, ⟨_, _, ok⟩, rfl⟩ := ok
    split at ok
    case h_1 existingId existing found =>
      simp only [bind_eq_ok, raiseIf_eq_ok, not_not, pure_eq_ok] at ok
      obtain ⟨_, same, rfl⟩ := ok
      exact .inl ⟨rfl, _, found, same⟩
    case h_2 absent =>
      rw [orRaise_eq_ok] at ok
      exact .inr ⟨absent, _, ok, rfl, rfl, rfl, by simp [RunRequest.fingerprint, kind],
        by simp [RunTarget.isCustom, kind]⟩
  | standard =>
    simp only [kind, createStandardRun, bind_eq_ok] at ok
    obtain ⟨_, _, _, _, _, _, _, _, drafted, _, ok⟩ := ok
    split at ok
    case h_1 existingId existing found =>
      simp only [bind_eq_ok, raiseIf_eq_ok, not_not, pure_eq_ok] at ok
      obtain ⟨_, same, _, _, rfl⟩ := ok
      exact .inl ⟨rfl, _, found, same⟩
    case h_2 absent =>
      simp only [bind_eq_ok, orRaise_eq_ok, pure_eq_ok] at ok
      obtain ⟨created, inserts, rfl⟩ := ok
      exact .inr ⟨absent, _, inserts, rfl, rfl, rfl, by simp [RunRequest.fingerprint, kind],
        by simp [RunTarget.isCustom, kind]⟩

/-- A request of the fleet leaves the runs alone, or is a request for a run. -/
theorem run_runs {step : FleetRequest} (ok : fleet.run host step = .ok next) :
    next.runs = fleet.runs ∨ ∃ request newId toolIds, step = RunRequest.label request newId toolIds ∧
      request.leave host fleet newId toolIds = .ok (next.tools, next.runs) := by
  cases step with
  | createCustomRun principal workspaceId agentId input idempotencyKey newId =>
    simp only [Fleet.run, bind_eq_ok, mapError_eq_ok, pure_eq_ok] at ok
    obtain ⟨runs, creates, rfl⟩ := ok
    refine .inr ⟨⟨.custom, principal, workspaceId, agentId, input, idempotencyKey⟩, newId,
      fun _ => 0, rfl, ?_⟩
    simp only [RunRequest.leave, bind_eq_ok]
    exact ⟨runs, creates, rfl⟩
  | createStandardRun principal workspaceId agentId input idempotencyKey newId toolIds =>
    simp only [Fleet.run, bind_eq_ok, mapError_eq_ok, pure_eq_ok] at ok
    obtain ⟨created, creates, rfl⟩ := ok
    exact .inr ⟨⟨.standard, principal, workspaceId, agentId, input, idempotencyKey⟩, newId,
      toolIds, rfl, creates⟩
  | upsertTool | sync =>
    simp only [Fleet.run, bind_eq_ok, pure_eq_ok] at ok
    obtain ⟨_, _, rfl⟩ := ok
    exact .inl rfl
  | disable =>
    simp only [Fleet.run, pure_eq_ok] at ok
    obtain rfl := ok
    exact .inl rfl
  | _ => exact .inl (run_aside ok rfl).2

/-- The runs there are stay, and a key stays of one run. -/
theorem run_keeps {step : FleetRequest} (ok : fleet.run host step = .ok next)
    (unique : KeysUnique fleet.runs) : KeysUnique next.runs ∧
      ∀ id run, fleet.runs.find? id = some run → next.runs.find? id = some run := by
  rcases run_runs ok with same | ⟨request, newId, toolIds, _, leaves⟩
  · rw [same]
    exact ⟨unique, fun _ _ => id⟩
  rcases leave_runs leaves with ⟨same, _⟩ | ⟨absent, run, inserts, isFor⟩
  · rw [show next.runs = fleet.runs from same]
    exact ⟨unique, fun _ _ => id⟩
  obtain ⟨free, same⟩ := (Table.insert?_eq_some _ _ _ _).mp inserts
  have fresh : ∀ id earlier, fleet.runs.find? id = some earlier →
      earlier.workspaceId = run.workspaceId → earlier.requestedBy = run.requestedBy →
      earlier.idempotencyKey ≠ run.idempotencyKey := by
    intro id earlier found ofWorkspace ofRequester ofKey
    have differs := (Table.first?_eq_none _ _).mp absent id earlier found
    simp [ofWorkspace, ofRequester, ofKey, isFor.workspaceId, isFor.requestedBy,
      isFor.idempotencyKey] at differs
  rw [show next.runs = fleet.runs.put newId run from same]
  constructor
  · intro first second firstRun secondRun firstFound secondFound ofWorkspace ofRequester ofKey
    rw [Table.find?_put_eq] at firstFound secondFound
    split at firstFound <;> split at secondFound
    · rename_i isFirst isSecond
      exact isFirst.trans isSecond.symm
    · cases firstFound
      exact absurd ofKey.symm (fresh _ _ secondFound ofWorkspace.symm ofRequester.symm)
    · cases secondFound
      exact absurd ofKey (fresh _ _ firstFound ofWorkspace ofRequester)
    · exact unique _ _ _ _ firstFound secondFound ofWorkspace ofRequester ofKey
  · intro id earlier found
    rw [Table.find?_put_ne, found]
    rintro rfl
    rw [free] at found
    cases found

theorem keysUnique_of_runs {history : List (Transition Fleet FleetRequest)}
    (runs : (fleetMachine host).Runs history fleet) : KeysUnique fleet.runs := by
  refine runs.invariant (fun fleet => KeysUnique fleet.runs) ?_ ?_
  · intro fleet unused first second firstRun secondRun found
    rw [unused.runs] at found
    simp at found
  · intro state label next unique step
    exact (run_keeps step unique).1

/-- What a step commits for a request is a run for it. -/
theorem isFor_of_commits (commits : CommitsRun creation request runId)
    (ok : creation.before.run host creation.label = .ok creation.after) :
    ∃ run, creation.after.runs.find? runId = some run ∧
      IsFor request host.platform.runtime run := by
  obtain ⟨run, present⟩ := Option.isSome_iff_exists.mp commits.present
  obtain ⟨toolIds, label⟩ := commits.label
  have leaves : ∃ tools, request.leave host creation.before runId toolIds =
      .ok (tools, creation.after.runs) := by
    rw [label] at ok
    unfold RunRequest.label at ok
    unfold RunRequest.leave
    cases kind : request.kind with
    | custom =>
      simp only [kind, Fleet.run, bind_eq_ok, mapError_eq_ok, pure_eq_ok] at ok ⊢
      obtain ⟨runs, creates, same⟩ := ok
      exact ⟨_, runs, creates, by rw [← same]⟩
    | standard =>
      simp only [kind, Fleet.run, bind_eq_ok, mapError_eq_ok, pure_eq_ok] at ok
      obtain ⟨created, creates, same⟩ := ok
      exact ⟨created.1, by rw [creates, ← same]⟩
  obtain ⟨tools, leaves⟩ := leaves
  rcases leave_runs leaves with ⟨same, _⟩ | ⟨_, inserted, inserts, isFor⟩
  · have impossible := commits.absent
    rw [← same, present] at impossible
    cases impossible
  · obtain ⟨_, same⟩ := (Table.insert?_eq_some _ _ _ _).mp inserts
    refine ⟨inserted, ?_, isFor⟩
    rw [show creation.after.runs = _ from same, Table.find?_put]

/-- A run that was committed for a request is the run of its key from then on. -/
theorem existing_of_committed {history earlier later : List (Transition Fleet FleetRequest)}
    (runs : (fleetMachine host).Runs history fleet)
    (splits : history = earlier ++ creation :: later)
    (commits : CommitsRun creation request runId) :
    ∃ run, existingRun fleet.runs request.principal request.workspaceId request.idempotencyKey =
      some (runId, run) ∧ IsFor request host.platform.runtime run := by
  obtain ⟨before, step, steps⟩ := runs.split splits
  obtain ⟨run, present, isFor⟩ := isFor_of_commits commits step
  have start := (run_keeps step (keysUnique_of_runs before)).1
  have kept : KeysUnique fleet.runs ∧ fleet.runs.find? runId = some run := by
    refine steps.invariant (fun fleet => KeysUnique fleet.runs ∧ fleet.runs.find? runId = some run)
      ?_ ⟨start, present⟩
    rintro state label next ⟨unique, found⟩ ok
    obtain ⟨stillUnique, kept⟩ := run_keeps ok unique
    exact ⟨stillUnique, kept _ _ found⟩
  refine ⟨run, ?_, isFor⟩
  rw [← existingRun_eq_some kept.1 kept.2, isFor.workspaceId, isFor.requestedBy,
    isFor.idempotencyKey]

/-- A standard agent's request that finds its run leaves everything as it is exactly when the
agent and its tools stand as they are. -/
theorem createStandardRun_eq_self (newId : Uuid) (toolIds : Nat → Uuid) {principal : Principal}
    {workspaceId agentId : Uuid}
    {input : PyStr} {idempotencyKey : String} {existing : Uuid × RunRow}
    (allowed : scopedMember fleet.tenant.memberships principal workspaceId .runAgents = .ok ())
    (found : existingRun fleet.runs principal workspaceId idempotencyKey = some existing)
    (same : existing.2.requestHash =
      requestHash host.platform.runtime "tenant_agent_id" agentId input)
    (standard : existing.2.target.isCustom = false) :
    createStandardRun host fleet.tenant fleet.tools fleet.runs principal workspaceId agentId input
      idempotencyKey newId toolIds = .ok (fleet.tools, fleet.runs) ↔
    ∃ row manifest, instanceRow fleet.tenant workspaceId agentId = .ok row ∧
      Tenant.manifest fleet.tenant row.versionId = .ok manifest ∧ row.standing = .active ∧
      readiness manifest (boundStatus fleet.tenant workspaceId agentId) = true ∧
      ∀ publicName ∈ manifest.requiredTools ++ manifest.optionalTools,
        Drafting.ToolStands ⟨fleet.tenant, workspaceId, agentId, manifest, row.settings⟩ host
          fleet.tools publicName := by
  obtain ⟨existingId, run⟩ := existing
  simp only [createStandardRun, bind_eq_ok, Run.ofRequest_eq_ok, raiseIf_eq_ok, not_or, not_not,
    Bool.not_eq_false]
  constructor
  · rintro ⟨_, _, row, isRow, manifest, isManifest, _, ⟨active, ready⟩, drafted, freezes, ok⟩
    rw [found] at ok
    simp only [bind_eq_ok, raiseIf_eq_ok, pure_eq_ok, Prod.mk.injEq] at ok
    obtain ⟨_, _, _, _, unchanged, _⟩ := ok
    obtain ⟨tools, contracts⟩ := drafted
    obtain rfl := unchanged
    refine ⟨row, manifest, isRow, isManifest, active, ready, ?_⟩
    exact (connectorRunContracts_eq_self ⟨fleet.tenant, workspaceId, agentId, manifest, row.settings⟩
      toolIds).mp ⟨contracts, freezes⟩
  · rintro ⟨row, manifest, isRow, isManifest, active, ready, stand⟩
    obtain ⟨contracts, freezes⟩ := (connectorRunContracts_eq_self ⟨fleet.tenant, workspaceId,
      agentId, manifest, row.settings⟩ toolIds).mpr stand
    refine ⟨(), allowed, row, isRow, manifest, isManifest, ⟨⟩, ⟨active, ready⟩, _, freezes, ?_⟩
    rw [found]
    simp only [bind_eq_ok, raiseIf_eq_ok, pure_eq_ok]
    exact ⟨⟨⟩, not_not.mpr same, ⟨⟩, by simp [standard], trivial⟩

end Creation

/-- After a call has committed a run, asking for it again answers with the run and creates
nothing, whatever has happened since, exactly when its agent is a custom one or, for a standard
one, the agent may run and its tools stand as they are. -/
theorem repeats_iff (host : Host) (history earlier later : List (Transition Fleet FleetRequest))
    (fleet : Fleet) (creation : Transition Fleet FleetRequest) (request : RunRequest)
    (runId : Uuid) (runs : (fleetMachine host).Runs history fleet)
    (splits : history = earlier ++ creation :: later)
    (commits : CommitsRun creation request runId)
    (allowed : scopedMember fleet.tenant.memberships request.principal request.workspaceId
      .runAgents = .ok ()) :
    Repeats host fleet request runId ↔
      (request.kind = .standard → Unchanged host fleet request) := by
  obtain ⟨run, found, isFor⟩ := existing_of_committed runs splits commits
  have answers : ∀ newId, request.answer fleet.runs newId = ⟨runId, false⟩ := by
    intro newId
    rw [RunRequest.answer, found]
  have refuses : ∀ other newId toolIds, request.SharesKey other →
      other.fingerprint host.platform.runtime ≠ request.fingerprint host.platform.runtime →
      ∀ result, other.perform host fleet newId toolIds ≠ .ok result := by
    rintro other newId toolIds ⟨samePrincipal, sameWorkspace, sameKey⟩ differs result ok
    simp only [RunRequest.perform, bind_eq_ok] at ok
    obtain ⟨left, leaves, _⟩ := ok
    rcases leave_runs leaves with ⟨_, existing, isExisting, hash⟩ | ⟨absent, _⟩
    · rw [samePrincipal, sameWorkspace, sameKey, found] at isExisting
      cases isExisting
      exact differs (hash.symm.trans isFor.requestHash)
    · rw [samePrincipal, sameWorkspace, sameKey, found] at absent
      cases absent
  have again : (∀ newId toolIds, request.perform host fleet newId toolIds =
      .ok (⟨runId, false⟩, fleet.tools, fleet.runs)) ↔
        ∀ newId toolIds, request.leave host fleet newId toolIds =
          .ok (fleet.tools, fleet.runs) := by
    simp only [RunRequest.perform, answers, bind_eq_ok, pure_eq_ok, Prod.mk.injEq, true_and,
      exists_eq_right]
  have hash := isFor.requestHash
  unfold RunRequest.fingerprint at hash
  cases kind : request.kind with
  | custom =>
    simp only [reduceCtorEq, false_implies, iff_true]
    refine ⟨again.mpr ?_, refuses⟩
    intro newId toolIds
    simp only [kind] at hash
    simp [RunRequest.leave, kind, createCustomRun, allowed, found, hash, raiseIf, Run.ofRequest,
      Except.mapError, bind, Except.bind, pure, Except.pure]
  | standard =>
    simp only [kind] at hash
    have standard : run.target.isCustom = false := by
      rw [← Bool.not_eq_true, isFor.kind, kind]
      simp
    have unchanged := fun newId toolIds => createStandardRun_eq_self newId toolIds allowed found
      hash standard
    constructor
    · intro repeats _
      have left := again.mp repeats.again 0 fun _ => 0
      simp only [RunRequest.leave, kind] at left
      exact (unchanged 0 _).mp left
    · intro stands
      refine ⟨again.mpr ?_, refuses⟩
      intro newId toolIds
      simp only [RunRequest.leave, kind]
      exact (unchanged newId toolIds).mpr (stands rfl)

/-- A check that a step commits the run of a standard agent. -/
def commitsRun (request : RunRequest) (runId : Uuid) (creation : Transition Fleet FleetRequest) :
    Bool :=
  (match creation.label with
    | .createStandardRun principal workspaceId agentId input idempotencyKey newId _ =>
      request.kind = .standard && request.principal = principal &&
        request.workspaceId = workspaceId && request.agentId = agentId && request.input = input &&
        request.idempotencyKey = idempotencyKey && newId = runId
    | _ => false) &&
  (creation.before.runs.find? runId).isNone && (creation.after.runs.find? runId).isSome

theorem of_commitsRun {request : RunRequest} {runId : Uuid}
    (commits : commitsRun request runId creation = true) :
    CommitsRun creation request runId := by
  simp only [commitsRun, Bool.and_eq_true, Option.isNone_iff_eq_none] at commits
  obtain ⟨⟨asks, absent⟩, present⟩ := commits
  refine ⟨?_, absent, present⟩
  split at asks
  case h_1 principal workspaceId agentId input idempotencyKey newId toolIds label =>
    simp only [Bool.and_eq_true, decide_eq_true_eq] at asks
    obtain ⟨⟨⟨⟨⟨⟨kind, rfl⟩, rfl⟩, rfl⟩, rfl⟩, rfl⟩, rfl⟩ := asks
    exact ⟨toolIds, by rw [label, RunRequest.label, kind]⟩
  case h_2 => cases asks

/-- The request of the run for a site. -/
def siteRequest (index : Nat) : RunRequest :=
  ⟨.standard, owner, 7, 30, py "question", toString index⟩

/-- Install the agent that looks at sites and create a run of it. -/
def firstInspection : List FleetRequest := (inspectSites 1).take 3

theorem changes_status : (none : Option String).isSome ∨ (some InstanceStatus.paused).isSome ∨
    (none : Option Channel).isSome ∨ (none : Option UpdateMode).isSome ∨
    (none : Option String).isSome ∨ (none : Option Json).isSome := by simp

/-- Pause that agent. -/
def pauseSite : FleetRequest :=
  .tenant (.updateAgentInstance owner 7 30
    { displayName := none, status := some .paused, updateChannel := none, updateMode := none
      instructionsOverride := none, notEmpty := changes_status, settings := none } 4)

/-- `repeats_iff` applies to the run for a site. -/
theorem repeats_iff_oneSite :
    ∃ history earlier creation later fleet, (fleetMachine siteHost).Runs history fleet ∧
      history = earlier ++ creation :: later ∧ CommitsRun creation (siteRequest 0) 40 ∧
      (Repeats siteHost fleet (siteRequest 0) 40 ↔
        ((siteRequest 0).kind = .standard → Unchanged siteHost fleet (siteRequest 0))) := by
  obtain ⟨history, fleet, runs, checked⟩ := Machine.exists_run_of_trace Unused
    (fun fleet => fleet.run siteHost) firstInspection siteFleet
    (fun history fleet => Machine.splitsAt history 2 (fun _ creation _ =>
        commitsRun (siteRequest 0) 40 creation) &&
      scopedMember fleet.tenant.memberships owner 7 .runAgents = .ok ())
    siteFleet_unused (by decide +kernel)
  simp only [Bool.and_eq_true, decide_eq_true_eq] at checked
  obtain ⟨split, allowed⟩ := checked
  obtain ⟨earlier, creation, later, splits, commits⟩ := Machine.exists_split split
  exact ⟨history, earlier, creation, later, fleet, runs, splits, of_commitsRun commits,
    repeats_iff siteHost history earlier later fleet creation (siteRequest 0) 40 runs splits
      (of_commitsRun commits) allowed⟩

/-- A run whose agent has been paused since is not answered again. -/
theorem paused_run_not_repeated :
    ¬ ∀ (host : Host) (history earlier later : List (Transition Fleet FleetRequest))
        (fleet : Fleet) (creation : Transition Fleet FleetRequest) (request : RunRequest)
        (runId : Uuid), (fleetMachine host).Runs history fleet →
      history = earlier ++ creation :: later → CommitsRun creation request runId →
      scopedMember fleet.tenant.memberships request.principal request.workspaceId
        .runAgents = .ok () → Repeats host fleet request runId := by
  intro always
  obtain ⟨history, fleet, runs, checked⟩ := Machine.exists_run_of_trace Unused
    (fun fleet => fleet.run siteHost)
    (firstInspection ++ [pauseSite]) siteFleet
    (fun history fleet => Machine.splitsAt history 2 (fun _ creation _ =>
        commitsRun (siteRequest 0) 40 creation) &&
      scopedMember fleet.tenant.memberships owner 7 .runAgents = .ok () &&
      ((siteRequest 0).leave siteHost fleet 99 fun _ => 99).toOption.isNone)
    siteFleet_unused (by decide +kernel)
  simp only [Bool.and_eq_true, decide_eq_true_eq, Option.isNone_iff_eq_none] at checked
  obtain ⟨⟨split, allowed⟩, refused⟩ := checked
  obtain ⟨earlier, creation, later, splits, commits⟩ := Machine.exists_split split
  have repeats := always siteHost history earlier later fleet creation (siteRequest 0) 40 runs
    splits (of_commitsRun commits) allowed
  have again := repeats.again 99 fun _ => 99
  simp only [RunRequest.perform, bind_eq_ok] at again
  obtain ⟨left, leaves, _⟩ := again
  rw [leaves] at refused
  cases refused

end Nexora.Connector
