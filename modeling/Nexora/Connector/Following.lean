import Nexora.Connector.Accounts
import Nexora.Tenant.Readiness

/-!
# Tools that follow the connections

What the tasks that have been done, and those still to be done, say about the connections and
about each endpoint's tool. From it, when the tools follow the connections once everything
has finished.
-/

namespace Nexora.Connector

open Nexora.Std Nexora.Workspace Nexora.Tools Nexora.Integration Nexora.Tenant Json

variable {platform : Run.Platform} {deployment : Deployment} {accounts next : Accounts}
  {workspaceId integrationId : Uuid} {definitionId : String}
variable {history : List (Transition Accounts Request)} {request : Request} {inWorkspace : Uuid}
  {toolIds : Nat → Uuid}

theorem provisionedLast_append (transition : Transition Accounts Request) :
    provisionedLast (history ++ [transition]) workspaceId definitionId =
      track workspaceId definitionId (provisionedLast history workspaceId definitionId)
        (taskOf transition) := by
  simp [provisionedLast]

/-- An identifier that a connection of a workspace has had. -/
def IsAccount (accounts : Accounts) (workspaceId integrationId : Uuid) (definitionId : String) :
    Prop :=
  integrationId ∈ accounts.drawn ∧
    ∀ row, accounts.tenant.integrations.find? integrationId = some row →
      row.workspaceId = workspaceId ∧ row.integrationDefinitionId = definitionId

/-- What the tasks done and still to be done say about the connections. -/
structure RowsTracked (history : List (Transition Accounts Request)) (accounts : Accounts) :
    Prop where
  drawn : ∀ integrationId row,
    accounts.tenant.integrations.find? integrationId = some row → integrationId ∈ accounts.drawn
  bounded : ∀ integrationId ∈ accounts.drawn, integrationId < 2 ^ 128
  queued : ∀ workspaceId integrationId definitionId,
    .sync workspaceId integrationId definitionId ∈ accounts.pending →
      IsAccount accounts workspaceId integrationId definitionId
  last : ∀ workspaceId definitionId integrationId hidden,
    provisionedLast history workspaceId definitionId = some (integrationId, hidden) →
      IsAccount accounts workspaceId integrationId definitionId ∧
        (hidden = true → accounts.tenant.integrations.find? integrationId = none)
  removed : ∀ workspaceId integrationId, .disable workspaceId integrationId ∈ accounts.pending →
    integrationId ∈ accounts.drawn ∧ accounts.tenant.integrations.find? integrationId = none
  connected : ∀ integrationId row, accounts.tenant.integrations.find? integrationId = some row →
    row.status = .connected →
      .sync row.workspaceId integrationId row.integrationDefinitionId ∈ accounts.pending ∨
        provisionedLast history row.workspaceId row.integrationDefinitionId ≠ none

theorem RowsTracked.initial (unconnected : Unconnected platform deployment accounts) :
    RowsTracked [] accounts := by
  constructor <;> simp [unconnected.none, unconnected.undrawn, unconnected.quiet, provisionedLast]

namespace RowsTracked

variable {row : IntegrationRow}

/-- A step that adds a connection draws an identifier that is nobody's. -/
theorem isAccount_written
    (written : Table.Written accounts.tenant.integrations next.tenant.integrations integrationId
      row) (drawn : ∀ other ∈ accounts.drawn, other ∈ next.drawn)
    (same : ∀ was, accounts.tenant.integrations.find? integrationId = some was →
      row.workspaceId = was.workspaceId ∧
        row.integrationDefinitionId = was.integrationDefinitionId)
    (new : accounts.tenant.integrations.find? integrationId = none →
      integrationId ∉ accounts.drawn) {other : Uuid} {ofDefinition : String}
    (isAccount : IsAccount accounts inWorkspace other ofDefinition) :
    IsAccount next inWorkspace other ofDefinition := by
  refine ⟨drawn other isAccount.1, ?_⟩
  intro later found
  obtain ⟨rfl, rfl⟩ | ⟨_, found⟩ := written.found found
  · cases earlier : accounts.tenant.integrations.find? other with
    | none => exact absurd isAccount.1 (new earlier)
    | some was =>
      obtain ⟨sameWorkspace, sameDefinition⟩ := same was earlier
      obtain ⟨inWorkspace, ofDefinition⟩ := isAccount.2 was earlier
      exact ⟨sameWorkspace.trans inWorkspace, sameDefinition.trans ofDefinition⟩
  · exact isAccount.2 later found

/-- A request that writes a connection's row, and leaves its provisioning to be done. -/
theorem wrote (tracked : RowsTracked history accounts)
    (idle : taskOf ⟨accounts, request, next⟩ = none)
    (written : Table.Written accounts.tenant.integrations next.tenant.integrations integrationId
      row) (drawn : ∀ other, other ∈ next.drawn ↔ other = integrationId ∨ other ∈ accounts.drawn)
    (bounded : integrationId < 2 ^ 128)
    (same : ∀ was, accounts.tenant.integrations.find? integrationId = some was →
      row.workspaceId = was.workspaceId ∧
        row.integrationDefinitionId = was.integrationDefinitionId)
    (new : accounts.tenant.integrations.find? integrationId = none →
      integrationId ∉ accounts.drawn)
    (pending : next.pending = accounts.pending ++
        [.sync row.workspaceId integrationId row.integrationDefinitionId] ∨
      next.pending = accounts.pending ∧ row.status ≠ .connected) :
    RowsTracked (history ++ [⟨accounts, request, next⟩]) next := by
  have kept : ∀ {inWorkspace other : Uuid} {ofDefinition : String},
      IsAccount accounts inWorkspace other ofDefinition →
        IsAccount next inWorkspace other ofDefinition :=
    isAccount_written written (fun other member => (drawn other).mpr (.inr member)) same new
  have lost : ∀ other ∈ accounts.drawn, accounts.tenant.integrations.find? other = none →
      next.tenant.integrations.find? other = none := by
    intro other isDrawn absent
    rw [written.other]
    · exact absent
    · rintro rfl
      exact new absent isDrawn
  have later : ∀ inWorkspace ofDefinition,
      provisionedLast (history ++ [⟨accounts, request, next⟩]) inWorkspace ofDefinition =
        provisionedLast history inWorkspace ofDefinition := by
    intro inWorkspace ofDefinition
    rw [provisionedLast_append, idle]
    rfl
  refine ⟨?_, ?_, ?_, ?_, ?_, ?_⟩
  · intro other found present
    obtain ⟨rfl, _⟩ | ⟨_, present⟩ := written.found present
    · exact (drawn other).mpr (.inl rfl)
    · exact (drawn other).mpr (.inr (tracked.drawn other found present))
  · intro other isDrawn
    rcases (drawn other).mp isDrawn with rfl | isDrawn
    · exact bounded
    · exact tracked.bounded other isDrawn
  · intro inWorkspace other ofDefinition member
    have isNew : IsAccount next row.workspaceId integrationId row.integrationDefinitionId := by
      refine ⟨(drawn integrationId).mpr (.inl rfl), ?_⟩
      intro found present
      obtain rfl : row = found := Option.some.inj (written.self.symm.trans present)
      exact ⟨rfl, rfl⟩
    rcases pending with added | ⟨unchanged, _⟩
    · rw [added, List.mem_append, List.mem_singleton] at member
      rcases member with member | isAdded
      · exact kept (tracked.queued _ _ _ member)
      · cases isAdded
        exact isNew
    · rw [unchanged] at member
      exact kept (tracked.queued _ _ _ member)
  · intro inWorkspace ofDefinition other hidden isLast
    rw [later] at isLast
    obtain ⟨isAccount, gone⟩ := tracked.last _ _ _ _ isLast
    exact ⟨kept isAccount, fun isHidden => lost other isAccount.1 (gone isHidden)⟩
  · intro inWorkspace other member
    have early : .disable inWorkspace other ∈ accounts.pending := by
      rcases pending with added | ⟨unchanged, _⟩
      · simpa [added] using member
      · simpa [unchanged] using member
    obtain ⟨isDrawn, absent⟩ := tracked.removed _ _ early
    exact ⟨(drawn other).mpr (.inr isDrawn), lost other isDrawn absent⟩
  · intro other found present isConnected
    rw [later]
    obtain ⟨rfl, rfl⟩ | ⟨_, present⟩ := written.found present
    · rcases pending with added | ⟨_, unconnected⟩
      · exact .inl (by simp [added])
      · exact absurd isConnected unconnected
    · refine (tracked.connected other found present isConnected).imp_left fun member => ?_
      rcases pending with added | ⟨unchanged, _⟩
      · simp [added, member]
      · simpa [unchanged] using member

/-- A request that removes a connection, and leaves its tools to be hidden. -/
theorem erased (tracked : RowsTracked history accounts) {was : IntegrationRow}
    (idle : taskOf ⟨accounts, request, next⟩ = none)
    (present : accounts.tenant.integrations.find? integrationId = some was)
    (gone : next.tenant.integrations = accounts.tenant.integrations.erase integrationId)
    (drawn : next.drawn = accounts.drawn)
    (pending : next.pending = accounts.pending ++ [.disable workspaceId integrationId]) :
    RowsTracked (history ++ [⟨accounts, request, next⟩]) next := by
  have kept : ∀ other row, next.tenant.integrations.find? other = some row →
      accounts.tenant.integrations.find? other = some row := by
    intro other row found
    rw [gone] at found
    exact (Table.of_find?_erase found).2
  have lost : ∀ other, accounts.tenant.integrations.find? other = none →
      next.tenant.integrations.find? other = none := by
    intro other absent
    rw [gone, Table.find?_erase, absent]
    split <;> rfl
  have isAccount : ∀ {inWorkspace other : Uuid} {ofDefinition : String},
      IsAccount accounts inWorkspace other ofDefinition →
        IsAccount next inWorkspace other ofDefinition := by
    intro inWorkspace other ofDefinition isAccount
    exact ⟨drawn ▸ isAccount.1, fun row found => isAccount.2 row (kept other row found)⟩
  have later : ∀ inWorkspace ofDefinition,
      provisionedLast (history ++ [⟨accounts, request, next⟩]) inWorkspace ofDefinition =
        provisionedLast history inWorkspace ofDefinition := by
    intro inWorkspace ofDefinition
    rw [provisionedLast_append, idle]
    rfl
  refine ⟨?_, ?_, ?_, ?_, ?_, ?_⟩
  · intro other row found
    rw [drawn]
    exact tracked.drawn other row (kept other row found)
  · rw [drawn]
    exact tracked.bounded
  · intro inWorkspace other ofDefinition member
    exact isAccount (tracked.queued _ _ _ (by simpa [pending] using member))
  · intro inWorkspace ofDefinition other hidden isLast
    rw [later] at isLast
    obtain ⟨account, absent⟩ := tracked.last _ _ _ _ isLast
    exact ⟨isAccount account, fun isHidden => lost other (absent isHidden)⟩
  · intro inWorkspace other member
    rw [pending, List.mem_append, List.mem_singleton] at member
    rw [drawn]
    rcases member with member | isAdded
    · obtain ⟨isDrawn, absent⟩ := tracked.removed _ _ member
      exact ⟨isDrawn, lost other absent⟩
    · cases isAdded
      exact ⟨tracked.drawn _ _ present, by rw [gone, Table.find?_erase, if_pos rfl]⟩
  · intro other row found isConnected
    rw [later, pending]
    exact (tracked.connected other row (kept other row found) isConnected).imp_left
      fun member => by simp [member]

/-- A task that is done is in the history instead of among what is still to be done. -/
theorem performed (tracked : RowsTracked history accounts) {index : Nat} {task : Task}
    (isTask : taskOf ⟨accounts, request, next⟩ = some task)
    (listed : accounts.pending[index]? = some task) (tenant : next.tenant = accounts.tenant)
    (drawn : next.drawn = accounts.drawn)
    (pending : next.pending = accounts.pending.eraseIdx index) :
    RowsTracked (history ++ [⟨accounts, request, next⟩]) next := by
  have early : ∀ other, other ∈ next.pending → other ∈ accounts.pending := by
    intro other member
    rw [pending] at member
    exact List.mem_of_mem_eraseIdx member
  have isAccount : ∀ {inWorkspace other : Uuid} {ofDefinition : String},
      IsAccount accounts inWorkspace other ofDefinition →
        IsAccount next inWorkspace other ofDefinition := by
    intro inWorkspace other ofDefinition isAccount
    rwa [IsAccount, drawn, tenant]
  have isPending := List.mem_of_getElem? listed
  refine ⟨?_, ?_, ?_, ?_, ?_, ?_⟩
  · rw [tenant, drawn]
    exact tracked.drawn
  · rw [drawn]
    exact tracked.bounded
  · intro inWorkspace other ofDefinition member
    exact isAccount (tracked.queued _ _ _ (early _ member))
  · intro inWorkspace ofDefinition other hidden isLast
    rw [provisionedLast_append, isTask] at isLast
    rw [tenant]
    cases task with
    | sync ofWorkspace integrationId ofConnector =>
      simp only [track] at isLast
      split at isLast
      case isTrue same =>
        cases isLast
        obtain ⟨rfl, rfl⟩ := same
        exact ⟨isAccount (tracked.queued _ _ _ isPending), by simp⟩
      case isFalse =>
        obtain ⟨account, absent⟩ := tracked.last _ _ _ _ isLast
        exact ⟨isAccount account, absent⟩
    | disable ofWorkspace integrationId =>
      simp only [track, Option.map_eq_some_iff, Prod.exists, Prod.mk.injEq] at isLast
      obtain ⟨was, wasHidden, isLast, rfl, rfl⟩ := isLast
      obtain ⟨account, absent⟩ := tracked.last _ _ _ _ isLast
      refine ⟨isAccount account, ?_⟩
      intro isHidden
      rw [Bool.or_eq_true] at isHidden
      rcases isHidden with earlier | now
      · exact absent earlier
      · simp only [Bool.and_eq_true, decide_eq_true_eq] at now
        exact now.2 ▸ (tracked.removed _ _ isPending).2
  · intro inWorkspace other member
    rw [drawn, tenant]
    exact tracked.removed _ _ (early _ member)
  · intro other row found isConnected
    rw [tenant] at found
    rw [provisionedLast_append, isTask, pending]
    rcases tracked.connected other row found isConnected with member | done
    · by_cases isThis :
          task = .sync row.workspaceId other row.integrationDefinitionId
      · refine .inr ?_
        simp [isThis, track]
      · refine .inl ?_
        obtain ⟨at_, present⟩ := List.mem_iff_getElem?.mp member
        refine List.mem_eraseIdx_iff_getElem?.mpr ⟨at_, ?_, present⟩
        rintro rfl
        exact isThis (Option.some.inj (listed.symm.trans present))
    · refine .inr ?_
      cases task with
      | sync =>
        simp only [track]
        split
        · simp
        · exact done
      | disable => simpa [track] using done

end RowsTracked

/-- The tool of an endpoint, given the account that was provisioned last: it goes to that
account, and is enabled unless it has been hidden since. -/
def ToolStands (tools : Run.Store) (workspaceId : Uuid) (manifest : ConnectorManifest)
    (endpoint : ConnectorEndpoint) : Option (Uuid × Bool) → Prop
  | none => tools.toolNamed workspaceId (toolName manifest endpoint) = none
  | some (integrationId, hidden) => ∃ toolId tool,
      tools.toolNamed workspaceId (toolName manifest endpoint) = some (toolId, tool) ∧
        tool.serverKey = connectorServerKey ∧
          tool.remoteName = remoteName integrationId endpoint.capability ∧ tool.enabled = !hidden

/-- What the tasks done say about the tools. -/
structure ToolsTracked (platform : Run.Platform) (deployment : Deployment)
    (history : List (Transition Accounts Request)) (accounts : Accounts) : Prop where
  published : Published platform deployment accounts.tenant.definitions
  namesUnique : NamesUnique accounts.tools.toolDefinitions
  stands : ∀ workspaceId definitionId manifest, ∀ endpoint ∈ manifest.endpoints,
    accounts.tenant.definitions.find? definitionId = some manifest →
      ToolStands accounts.tools workspaceId manifest endpoint
        (provisionedLast history workspaceId definitionId)
  named : ∀ toolId tool, accounts.tools.toolDefinitions.find? toolId = some tool →
    tool.serverKey = connectorServerKey → ∃ definitionId manifest,
      accounts.tenant.definitions.find? definitionId = some manifest ∧
        ∃ endpoint ∈ manifest.endpoints, tool.name = toolName manifest endpoint

theorem ToolsTracked.initial (unconnected : Unconnected platform deployment accounts) :
    ToolsTracked platform deployment [] accounts where
  published := unconnected.published
  namesUnique := unconnected.namesUnique
  stands _ definitionId manifest endpoint member found :=
    toolNamed_eq_none.mpr fun toolId tool present _ =>
      unconnected.names toolId tool definitionId manifest endpoint member present found
  named toolId tool present isConnector :=
    absurd isConnector (unconnected.serverKeys toolId tool present)

/-- A tool that no endpoint is named for is found as before. -/
theorem toolNamed_of_untouched {store later : Run.Store} {manifest : ConnectorManifest}
    {entries : List (ConnectorEndpoint × Nat)} {name : PyStr}
    (unique : NamesUnique store.toolDefinitions)
    (ok : provisionAll platform workspaceId integrationId manifest toolIds store entries =
      .ok later)
    (untouched : inWorkspace = workspaceId →
      ∀ endpoint ∈ entries.map Prod.fst, name ≠ toolName manifest endpoint) :
    later.toolNamed inWorkspace name = store.toolNamed inWorkspace name := by
  have laterUnique := provisionAll_namesUnique unique ok
  refine Option.ext fun entry => ?_
  obtain ⟨toolId, tool⟩ := entry
  rw [toolNamed_eq_some laterUnique, toolNamed_eq_some unique]
  refine and_congr_left fun ⟨isHere, hasName⟩ => ?_
  have spared : ¬ Touches workspaceId manifest (entries.map Prod.fst) tool := by
    rintro ⟨inside, endpoint, member, isNamed⟩
    exact untouched (isHere.symm.trans inside) endpoint member (hasName.symm.trans isNamed)
  constructor
  · intro present
    rcases provisionAll_tools unique ok present with provisioned | ⟨_, earlier⟩
    · obtain ⟨endpoint, member, isNamed, _⟩ := provisioned.endpoint
      exact absurd ⟨provisioned.inWorkspace, endpoint, member, isNamed⟩ spared
    · exact earlier
  · intro present
    obtain ⟨now, follows⟩ := provisionAll_follows unique present ok
    obtain ⟨rfl, _⟩ := follows.spared spared
    exact follows.present

/-- A tool after the tools of an account have been hidden. -/
def hiddenFrom (workspaceId integrationId : Uuid) (tool : Run.ToolDefinition) :
    Run.ToolDefinition :=
  if tool.workspaceId = workspaceId ∧ tool.serverKey = connectorServerKey ∧
      (integrationId.text ++ ":").toList <+: tool.remoteName.toList then
    { tool with enabled := false }
  else tool

section

variable (workspaceId integrationId : Uuid) (tool : Run.ToolDefinition)

@[simp]
theorem hiddenFrom_workspaceId :
    (hiddenFrom workspaceId integrationId tool).workspaceId = tool.workspaceId := by
  unfold hiddenFrom
  split <;> rfl

@[simp]
theorem hiddenFrom_name : (hiddenFrom workspaceId integrationId tool).name = tool.name := by
  unfold hiddenFrom
  split <;> rfl

@[simp]
theorem hiddenFrom_serverKey :
    (hiddenFrom workspaceId integrationId tool).serverKey = tool.serverKey := by
  unfold hiddenFrom
  split <;> rfl

@[simp]
theorem hiddenFrom_remoteName :
    (hiddenFrom workspaceId integrationId tool).remoteName = tool.remoteName := by
  unfold hiddenFrom
  split <;> rfl

theorem hiddenFrom_enabled : (hiddenFrom workspaceId integrationId tool).enabled =
    (tool.enabled && !decide (tool.workspaceId = workspaceId ∧
      tool.serverKey = connectorServerKey ∧
        (integrationId.text ++ ":").toList <+: tool.remoteName.toList)) := by
  unfold hiddenFrom
  split
  case isTrue hides => rw [decide_eq_true hides, Bool.not_true, Bool.and_false]
  case isFalse spared => rw [decide_eq_false spared, Bool.not_false, Bool.and_true]

end

namespace ToolsTracked

/-- A step that leaves the tools alone. -/
theorem idle (tracked : ToolsTracked platform deployment history accounts)
    (isIdle : taskOf ⟨accounts, request, next⟩ = none)
    (definitions : next.tenant.definitions = accounts.tenant.definitions)
    (tools : next.tools = accounts.tools) :
    ToolsTracked platform deployment (history ++ [⟨accounts, request, next⟩]) next where
  published := definitions ▸ tracked.published
  namesUnique := tools ▸ tracked.namesUnique
  stands inWorkspace ofDefinition manifest endpoint member found := by
    rw [definitions] at found
    rw [provisionedLast_append, isIdle, tools]
    exact tracked.stands inWorkspace ofDefinition manifest endpoint member found
  named := by
    rw [definitions, tools]
    exact tracked.named

/-- A provisioning sends the tools of its connector to its account. -/
theorem synced (tracked : ToolsTracked platform deployment history accounts)
    (isTask : taskOf ⟨accounts, request, next⟩ =
      some (.sync workspaceId integrationId definitionId))
    (ok : sync platform accounts.tools (accounts.tenant.definitions.find? definitionId)
      workspaceId integrationId toolIds = .ok next.tools) (tenant : next.tenant = accounts.tenant) :
    ToolsTracked platform deployment (history ++ [⟨accounts, request, next⟩]) next := by
  obtain ⟨manifest, isPublished, provisioned⟩ := sync_eq_provisionAll ok
  have unique := tracked.namesUnique
  have laterUnique := provisionAll_namesUnique unique provisioned
  have isEndpoint : ∀ endpoint,
      endpoint ∈ manifest.endpoints.zipIdx.map Prod.fst ↔ endpoint ∈ manifest.endpoints := by
    simp
  refine ⟨tenant ▸ tracked.published, laterUnique, ?_, ?_⟩
  · intro inWorkspace ofDefinition other endpoint member found
    rw [tenant] at found
    rw [provisionedLast_append, isTask]
    simp only [track]
    split
    case isTrue same =>
      obtain ⟨rfl, rfl⟩ := same
      obtain rfl : manifest = other := Option.some.inj (isPublished.symm.trans found)
      obtain ⟨toolId, tool, named, -⟩ :=
        provisionAll_named unique provisioned ((isEndpoint endpoint).mpr member)
      obtain ⟨present, isHere, hasName⟩ := (toolNamed_eq_some laterUnique).mp named
      rcases provisionAll_tools unique provisioned present with ⟨_, enabled, serverKey, fits⟩ |
        ⟨untouched, _⟩
      · obtain ⟨named_, _, isNamed, remote⟩ := fits
        have slug := tracked.published.isSlug found
        have same := (toolName_injective slug slug (hasName.symm.trans isNamed)).2
        exact ⟨toolId, tool, named, serverKey, by rw [remote, same], enabled⟩
      · exact absurd ⟨isHere, endpoint, (isEndpoint endpoint).mpr member, hasName⟩ untouched
    case isFalse different =>
      have stands := tracked.stands inWorkspace ofDefinition other endpoint member found
      have sameTool : next.tools.toolNamed inWorkspace (toolName other endpoint) =
          accounts.tools.toolNamed inWorkspace (toolName other endpoint) := by
        apply toolNamed_of_untouched unique provisioned
        rintro rfl provisionedFor _ sameName
        have ids := (toolName_injective (tracked.published.isSlug found)
          (tracked.published.isSlug isPublished) sameName).1
        refine different ⟨rfl, ?_⟩
        rw [← (tracked.published _ _ found).1, ids, (tracked.published _ _ isPublished).1]
      unfold ToolStands at stands ⊢
      rwa [sameTool]
  · intro toolId tool present isConnector
    rw [tenant]
    rcases provisionAll_tools unique provisioned present with fits | ⟨_, earlier⟩
    · obtain ⟨endpoint, member, hasName, _⟩ := fits.endpoint
      exact ⟨definitionId, manifest, isPublished, endpoint, (isEndpoint endpoint).mp member,
        hasName⟩
    · exact tracked.named toolId tool earlier isConnector

/-- Hiding an account's tools switches off those that go to it. -/
theorem hid (tracked : ToolsTracked platform deployment history accounts)
    (rows : RowsTracked history accounts)
    (isTask : taskOf ⟨accounts, request, next⟩ = some (.disable workspaceId integrationId))
    (isPending : .disable workspaceId integrationId ∈ accounts.pending)
    (tools : next.tools = disable accounts.tools workspaceId integrationId)
    (tenant : next.tenant = accounts.tenant) :
    ToolsTracked platform deployment (history ++ [⟨accounts, request, next⟩]) next := by
  have bounded := rows.bounded _ (rows.removed _ _ isPending).1
  have found : ∀ toolId, next.tools.toolDefinitions.find? toolId =
      (accounts.tools.toolDefinitions.find? toolId).map
        (hiddenFrom workspaceId integrationId) := by
    intro toolId
    rw [tools]
    exact Table.find?_mapRows _ _ _
  have laterUnique : NamesUnique next.tools.toolDefinitions := by
    intro first second firstTool secondTool firstFound secondFound sameWorkspace sameName
    rw [found, Option.map_eq_some_iff] at firstFound secondFound
    obtain ⟨firstWas, firstPresent, rfl⟩ := firstFound
    obtain ⟨secondWas, secondPresent, rfl⟩ := secondFound
    simp only [hiddenFrom_workspaceId, hiddenFrom_name] at sameWorkspace sameName
    exact tracked.namesUnique first second firstWas secondWas firstPresent secondPresent
      sameWorkspace sameName
  have named : ∀ inWorkspace name, next.tools.toolNamed inWorkspace name =
      (accounts.tools.toolNamed inWorkspace name).map fun entry =>
        (entry.1, hiddenFrom workspaceId integrationId entry.2) := by
    intro inWorkspace name
    cases was : accounts.tools.toolNamed inWorkspace name with
    | none =>
      refine toolNamed_eq_none.mpr ?_
      intro toolId tool present
      rw [found, Option.map_eq_some_iff] at present
      obtain ⟨earlier, earlierPresent, rfl⟩ := present
      rw [hiddenFrom_workspaceId, hiddenFrom_name]
      exact toolNamed_eq_none.mp was toolId earlier earlierPresent
    | some entry =>
      obtain ⟨toolId, tool⟩ := entry
      obtain ⟨present, isHere, hasName⟩ := (toolNamed_eq_some tracked.namesUnique).mp was
      refine (toolNamed_eq_some laterUnique).mpr ⟨?_, ?_, ?_⟩
      · rw [found, present, Option.map_some]
      · rw [hiddenFrom_workspaceId, isHere]
      · rw [hiddenFrom_name, hasName]
  refine ⟨tenant ▸ tracked.published, laterUnique, ?_, ?_⟩
  · intro inWorkspace ofDefinition manifest endpoint member present
    rw [tenant] at present
    have stands := tracked.stands inWorkspace ofDefinition manifest endpoint member present
    rw [provisionedLast_append, isTask]
    cases last : provisionedLast history inWorkspace ofDefinition with
    | none =>
      rw [last] at stands
      simp only [track, Option.map_none, ToolStands, named, Option.map_eq_none_iff]
      exact stands
    | some tracked =>
      obtain ⟨account, hidden⟩ := tracked
      rw [last] at stands
      obtain ⟨toolId, tool, was, serverKey, remote, enabled⟩ := stands
      have accountBounded := rows.bounded _ (rows.last _ _ _ _ last).1.1
      have isHere := ((toolNamed_eq_some tracked.namesUnique).mp was).2.1
      refine ⟨toolId, hiddenFrom workspaceId integrationId tool, ?_, ?_, ?_, ?_⟩
      · rw [named, was, Option.map_some]
      · rw [hiddenFrom_serverKey, serverKey]
      · rw [hiddenFrom_remoteName, remote]
      · rw [hiddenFrom_enabled, isHere, serverKey, remote]
        simp only [prefix_remoteName bounded accountBounded, enabled]
        grind
  · intro toolId tool present isConnector
    rw [found, Option.map_eq_some_iff] at present
    obtain ⟨earlier, earlierPresent, rfl⟩ := present
    rw [hiddenFrom_serverKey] at isConnector
    rw [hiddenFrom_name, tenant]
    exact tracked.named toolId earlier earlierPresent isConnector

end ToolsTracked

theorem RowsTracked.step (rows : RowsTracked history accounts)
    (ok : accounts.run platform deployment request = .ok next) :
    RowsTracked (history ++ [⟨accounts, request, next⟩]) next := by
  cases effect ok with
  | added integrationId row idle undrawn bounded written definitions tools drawn pending =>
    refine rows.wrote idle written (by simp [drawn]) bounded ?_ (fun _ => undrawn) pending
    intro was present
    exact absurd (rows.drawn _ _ present) undrawn
  | completed integrationId was row idle present written inWorkspace ofDefinition definitions tools
      drawn pending =>
      have isDrawn := rows.drawn _ _ present
      refine rows.wrote idle written ?_ (rows.bounded _ isDrawn) ?_ ?_ (.inl pending)
      · intro other
        rw [drawn]
        exact ⟨.inr, Or.rec (fun same => same ▸ isDrawn) id⟩
      · intro found again
        obtain rfl : was = found := Option.some.inj (present.symm.trans again)
        exact ⟨inWorkspace, ofDefinition⟩
      · intro absent
        cases present.symm.trans absent
  | removed workspaceId integrationId was idle present erased definitions tools drawn pending =>
    exact rows.erased idle present erased drawn pending
  | performed index toolIds task isTask listed ok tenant drawn pending =>
    exact rows.performed isTask listed tenant drawn pending

theorem ToolsTracked.step (tracked : ToolsTracked platform deployment history accounts)
    (rows : RowsTracked history accounts)
    (ok : accounts.run platform deployment request = .ok next) :
    ToolsTracked platform deployment (history ++ [⟨accounts, request, next⟩]) next := by
  cases effect ok with
  | added integrationId row idle undrawn bounded written definitions tools =>
    exact tracked.idle idle definitions tools
  | completed integrationId was row idle present written inWorkspace ofDefinition definitions tools =>
    exact tracked.idle idle definitions tools
  | removed workspaceId integrationId was idle present erased definitions tools =>
    exact tracked.idle idle definitions tools
  | performed index toolIds task isTask listed ok tenant =>
    cases task with
    | sync => exact tracked.synced isTask ok tenant
    | disable =>
      simp only [Accounts.performed, pure_eq_ok] at ok
      exact tracked.hid rows isTask (List.mem_of_getElem? listed) ok.symm tenant

theorem tracked_of_runs (runs : (accountMachine platform deployment).Runs history accounts) :
    RowsTracked history accounts ∧ ToolsTracked platform deployment history accounts :=
  runs.invariantWithHistory
    (fun history accounts =>
      RowsTracked history accounts ∧ ToolsTracked platform deployment history accounts)
    (fun _ unconnected => ⟨.initial unconnected, .initial unconnected⟩)
    (fun _ _ _ _ tracked transition =>
      ⟨tracked.1.step transition, tracked.2.step tracked.1 transition⟩)

/-- Where the account that was provisioned last stands, the tools follow the connections. -/
theorem ToolsTracked.toolsFollow (tracked : ToolsTracked platform deployment history accounts)
    (rows : RowsTracked history accounts) (finished : accounts.pending = [])
    (stands : LastStands history accounts) : ToolsFollow accounts where
  present toolId tool integrationId present enabled isConnector targets := by
    obtain ⟨definitionId, manifest, found, endpoint, member, hasName⟩ :=
      tracked.named toolId tool present isConnector
    have isNamed := (toolNamed_eq_some tracked.namesUnique).mpr ⟨present, rfl, hasName⟩
    have tool_ := tracked.stands tool.workspaceId definitionId manifest endpoint member found
    cases last : provisionedLast history tool.workspaceId definitionId with
    | none =>
      rw [last] at tool_
      cases isNamed.symm.trans tool_
    | some account =>
      obtain ⟨account, hidden⟩ := account
      rw [last] at tool_
      obtain ⟨again, same, named, _, remote, shown⟩ := tool_
      obtain ⟨rfl, rfl⟩ := Prod.mk.inj (Option.some.inj (isNamed.symm.trans named))
      have bounded := rows.bounded _ (rows.last _ _ _ _ last).1.1
      obtain rfl := targets.unique ⟨bounded, _, remote⟩
      rcases stands _ _ _ _ _ found (List.ne_nil_of_mem member) last with isThere | ⟨isHidden, _⟩
      · exact isThere
      · rw [enabled, isHidden] at shown
        cases shown
  offered workspaceId definitionId manifest endpoint member found connected := by
    have isLast : provisionedLast history workspaceId definitionId ≠ none := by
      obtain ⟨integrationId, row, present, rfl, rfl, isConnected⟩ := connected
      refine (rows.connected integrationId row present isConnected).resolve_left ?_
      simp [finished]
    obtain ⟨⟨account, hidden⟩, last⟩ := Option.ne_none_iff_exists'.mp isLast
    have tool_ := tracked.stands workspaceId definitionId manifest endpoint member found
    rw [last] at tool_
    obtain ⟨toolId, tool, named, _, remote, shown⟩ := tool_
    obtain ⟨⟨isDrawn, isAccount⟩, gone⟩ := rows.last _ _ _ _ last
    have isThere := (stands _ _ _ _ _ found (List.ne_nil_of_mem member) last).resolve_right
      fun hides => hides.2 connected
    obtain ⟨row, present⟩ := Option.ne_none_iff_exists'.mp isThere
    refine ⟨toolId, tool, account, row, named, ?_, ⟨rows.bounded _ isDrawn, _, remote⟩, present,
      isAccount row present⟩
    rw [shown, Bool.not_eq_true']
    by_contra isHidden
    exact isThere (gone (by simpa using isHidden))

/-- Where the tools follow the connections, the account that was provisioned last stands. -/
theorem ToolsTracked.lastStands (tracked : ToolsTracked platform deployment history accounts)
    (rows : RowsTracked history accounts) (follow : ToolsFollow accounts) :
    LastStands history accounts := by
  intro workspaceId definitionId manifest account hidden found some last
  obtain ⟨endpoint, member⟩ := List.exists_mem_of_ne_nil _ some
  have tool_ := tracked.stands workspaceId definitionId manifest endpoint member found
  rw [last] at tool_
  obtain ⟨toolId, tool, named, serverKey, remote, shown⟩ := tool_
  obtain ⟨present, _⟩ := (toolNamed_eq_some tracked.namesUnique).mp named
  have targets : Targets tool account := ⟨rows.bounded _ (rows.last _ _ _ _ last).1.1, _, remote⟩
  by_cases isThere : accounts.tenant.integrations.find? account = none
  · refine .inr ⟨?_, ?_⟩
    · by_contra isShown
      have enabled : tool.enabled = true := by simpa [shown] using isShown
      exact follow.present toolId tool account present enabled serverKey targets isThere
    · intro connected
      obtain ⟨again, same, target, row, isNamed, _, goesTo, stored, _⟩ :=
        follow.offered workspaceId definitionId manifest endpoint member found connected
      obtain ⟨rfl, rfl⟩ := Prod.mk.inj (Option.some.inj (named.symm.trans isNamed))
      obtain rfl := targets.unique goesTo
      cases isThere.symm.trans stored
  · exact .inl isThere

/-- Once everything has finished, the connector tools follow the connections exactly when the
account of each connector that was provisioned last is still there, or its tools have been
hidden since and no connected account of the connector is left. -/
theorem toolsFollow_iff (platform : Run.Platform) (deployment : Deployment)
    (history : List (Transition Accounts Request)) (accounts : Accounts)
    (runs : (accountMachine platform deployment).Runs history accounts)
    (finished : accounts.pending = []) : ToolsFollow accounts ↔ LastStands history accounts := by
  obtain ⟨rows, tracked⟩ := tracked_of_runs runs
  exact ⟨tracked.lastStands rows, tracked.toolsFollow rows finished⟩

/-- Workspaces with their members, the WordPress connector and no account. -/
def freshAccounts : Accounts where
  tenant := freshStore
  tools := .empty
  drawn := []
  pending := []

theorem freshAccounts_unconnected :
    Unconnected Run.examplePlatform exampleDeployment freshAccounts where
  published definitionId manifest found := by
    simp only [freshAccounts, freshStore, Table.ofList, Table.find?_put_eq,
      Table.find?_empty] at found
    split at found
    case isTrue same =>
      obtain rfl := Option.some.inj found
      exact ⟨same.symm, wordpress_valid_under (by decide +kernel)⟩
    case isFalse => cases found
  none := rfl
  undrawn := rfl
  quiet := rfl
  namesUnique first second firstTool secondTool present := by
    simp [freshAccounts, Run.Store.empty] at present
  serverKeys toolId tool present := by
    simp [freshAccounts, Run.Store.empty] at present
  names toolId tool definitionId manifest endpoint member present := by
    simp [freshAccounts, Run.Store.empty] at present

/-- The owner connects a WordPress account. -/
def connectSite (account : String) (integrationId credentialId : Uuid) : Request :=
  .connect none owner 7
    { integrationDefinitionId := "wordpress", displayName := "Site", accountIdentifier := account,
      credentials := wordpressSubmission } integrationId credentialId 1

/-- The first task that is still to be done, with tools numbered from 70. -/
def performNext : Request := .perform 0 fun index => 70 + index

/-- Two accounts, of which the one that was connected last is removed again. -/
def removeSecond : List Request :=
  [connectSite "first" 20 21, performNext, connectSite "second" 22 23, performNext,
    .disconnect owner 7 22, performNext]

/-- Two accounts, of which the one that was connected first is removed again. -/
def removeFirst : List Request :=
  [connectSite "first" 20 21, performNext, connectSite "second" 22 23, performNext,
    .disconnect owner 7 20, performNext]

/-- `toolsFollow_iff` applies to a workspace whose first account was removed. -/
theorem toolsFollow_iff_removeFirst :
    ∃ history accounts, (accountMachine Run.examplePlatform exampleDeployment).Runs history
        accounts ∧ accounts.tenant.integrations.find? 20 = none ∧
      (ToolsFollow accounts ↔ LastStands history accounts) := by
  obtain ⟨history, accounts, runs, checked⟩ := Machine.exists_run_of_trace
    (Unconnected Run.examplePlatform exampleDeployment)
    (fun accounts => accounts.run Run.examplePlatform exampleDeployment) removeFirst freshAccounts
    (fun _ accounts => accounts.pending = [] && accounts.tenant.integrations.find? 20 = none)
    freshAccounts_unconnected (by decide +kernel)
  simp only [Bool.and_eq_true, decide_eq_true_eq] at checked
  exact ⟨history, accounts, runs, checked.2,
    toolsFollow_iff Run.examplePlatform exampleDeployment history accounts runs checked.1⟩

/-- Removing the account that was connected last hides the tools of the one that is left. -/
theorem removal_hides_other :
    ¬ ∀ (platform : Run.Platform) (deployment : Deployment)
        (history : List (Transition Accounts Request)) (accounts : Accounts),
      (accountMachine platform deployment).Runs history accounts → accounts.pending = [] →
        ToolsFollow accounts := by
  intro always
  obtain ⟨history, accounts, runs, checked⟩ := Machine.exists_run_of_trace
    (Unconnected Run.examplePlatform exampleDeployment)
    (fun accounts => accounts.run Run.examplePlatform exampleDeployment) removeSecond freshAccounts
    (fun _ accounts => accounts.pending = [] &&
      accounts.tenant.definitions.find? "wordpress" = some wordpress &&
      (accounts.tenant.integrations.find? 20).any (fun row => row.workspaceId = 7 &&
        row.integrationDefinitionId = "wordpress" && row.status = .connected) &&
      wordpress.endpoints.all fun endpoint =>
        (accounts.tools.toolNamed 7 (toolName wordpress endpoint)).all fun entry =>
          !entry.2.enabled)
    freshAccounts_unconnected (by decide +kernel)
  simp only [Bool.and_eq_true, decide_eq_true_eq, Option.any_eq_true, List.all_eq_true] at checked
  obtain ⟨⟨⟨finished, found⟩, row, present, ⟨inWorkspace, ofDefinition⟩, connected⟩, hidden⟩ :=
    checked
  have follow := always _ _ history accounts runs finished
  obtain ⟨toolId, tool, _, _, named, enabled, _⟩ := follow.offered 7 "wordpress" wordpress _
    (List.mem_singleton.mpr rfl) found ⟨20, row, present, inWorkspace, ofDefinition, connected⟩
  have off := hidden _ (List.mem_singleton.mpr rfl)
  rw [named, Option.all_some, enabled] at off
  cases off

end Nexora.Connector
