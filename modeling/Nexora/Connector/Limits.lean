import Nexora.Connector.Snapshots

/-!
# The tool limit and what runs leave behind

The executor lists the tools of a run's workspace, offers the agent those it may call, and
gives a run up when there are more than a hundred tools or more than thirty-two to offer. The
contracts that creations of standard runs have registered are among them and are never
removed, so each combination of an endpoint, a connection, a configuration and a credential
that was ever frozen counts against every later run of the workspace.
-/

namespace Nexora.Connector

open Nexora.Std Nexora.Workspace Nexora.Integration Nexora.Tenant Json

/-- The part of an operator's profile that decides which tools an agent may call. -/
structure ToolProfile where
  allowedTools : List PyStr
  allowedServerKeys : List String

/-- The names a run's tools have for its agent. -/
def RunTarget.aliases : RunTarget → List (PyStr × PyStr)
  | .custom _ => []
  | .standard _ contracts => contracts.aliases.map fun entry => (py entry.1, entry.2)

/-- The tools a run's snapshot names, if it has one. -/
def RunTarget.allowedTools : RunTarget → Option (List PyStr)
  | .custom _ => none
  | .standard _ contracts => some (contracts.allowedTools.map py)

/-- `public_by_internal.get(name, name)`. -/
def publicName (aliases : List (PyStr × PyStr)) (name : PyStr) : PyStr :=
  ((aliases.reverse.find? fun entry => entry.2 = name).map Prod.fst).getD name

/-- A tool that a run's agent may call. -/
def executable (profile : ToolProfile) (target : RunTarget) (tool : Run.ToolDefinition) : Bool :=
  let shown := publicName target.aliases tool.name
  (match target.aliases.find? fun entry => entry.1 = shown with
    | some entry => entry.2 = tool.name
    | none => true) &&
    (match target.allowedTools with
    | some allowed => allowed.any fun name => name = shown
    | none => true) &&
    (profile.allowedTools.any (fun name => name = shown) ||
      tool.serverKey ∈ profile.allowedServerKeys)

/-- A tool that is offered to a run's agent. -/
def advertised (profile : ToolProfile) (target : RunTarget) (tool : Run.ToolDefinition) : Bool :=
  tool.enabled && executable profile target tool

/-- The tools of a workspace, with their identifiers. -/
def toolsOf (tools : Run.Store) (workspaceId : Uuid) : List (Uuid × Run.ToolDefinition) :=
  tools.toolDefinitions.select fun _ tool => tool.workspaceId = workspaceId

/-- `ORDER BY t.name LIMIT limit`. -/
def listTools (tools : List (Uuid × Run.ToolDefinition)) (limit : Nat) :
    List (Uuid × Run.ToolDefinition) :=
  (tools.insertionSort fun first second => first.2.name ≤ second.2.name).take limit

/-- Why a run that was claimed goes no further. -/
inductive ExecutionError where
  | request (failure : Failure)
  | terminal (code : String)

/-- `_execute` up to the tool limit: the tools its requester can read, and those of them that
its agent is offered. -/
def offerTools (memberships : Memberships) (tools : List (Uuid × Run.ToolDefinition))
    (profile : ToolProfile) (run : RunRow) :
    Except ExecutionError (List (Uuid × Run.ToolDefinition)) := do
  (scopedMember memberships run.requestedBy run.workspaceId .read).mapError .request
  let listed := listTools tools 101
  let offered := listed.filter fun entry => advertised profile run.target entry.2
  raiseIf (100 < listed.length ∨ 32 < offered.length) (.terminal "tool_limit_exceeded")
  pure offered

/-- The request creates a standard run, or asks again for one that is there. -/
def FleetRequest.createsStandardRun : FleetRequest → Bool
  | .createStandardRun .. => true
  | _ => false

/-- The tools a transition adds to a workspace, under their names. -/
def addedTools (transition : Transition Fleet FleetRequest) (workspaceId : Uuid) :
    List (Uuid × PyStr) :=
  ((toolsOf transition.after.tools workspaceId).filter fun entry =>
    transition.before.tools.toolDefinitions.find? entry.1 = none).map fun entry =>
      (entry.1, entry.2.name)

/-- The contracts that creations of standard runs have registered in a workspace. -/
def frozenTools (history : List (Transition Fleet FleetRequest)) (workspaceId : Uuid) :
    List (Uuid × PyStr) :=
  (history.filter fun transition => transition.label.createsStandardRun).flatMap fun transition =>
    addedTools transition workspaceId

/-- The contracts in a run's workspace that creations have registered and that are not among
the run's own. -/
def leftBehind (history : List (Transition Fleet FleetRequest)) (run : RunRow) :
    List (Uuid × PyStr) :=
  (frozenTools history run.workspaceId).filter fun entry =>
    !(run.target.aliases.any fun own => own.2 = entry.2)

/-- The tools of a run's workspace without what other runs have left behind. -/
def otherTools (history : List (Transition Fleet FleetRequest)) (tools : Run.Store)
    (run : RunRow) : List (Uuid × Run.ToolDefinition) :=
  (toolsOf tools run.workspaceId).filter fun entry =>
    entry.1 ∉ (leftBehind history run).map Prod.fst

/-- A run is given up at the tool limit. -/
def FailsAtLimit (memberships : Memberships) (tools : List (Uuid × Run.ToolDefinition))
    (profile : ToolProfile) (run : RunRow) : Prop :=
  offerTools memberships tools profile run = .error (.terminal "tool_limit_exceeded")

/-- A run is given up at the tool limit because of what other runs have left behind: without
those tools it would not be. -/
def Starved (history : List (Transition Fleet FleetRequest)) (fleet : Fleet)
    (profile : ToolProfile) (run : RunRow) : Prop :=
  FailsAtLimit fleet.tenant.memberships (toolsOf fleet.tools run.workspaceId) profile run ∧
    ¬ FailsAtLimit fleet.tenant.memberships (otherTools history fleet.tools run) profile run

/-- How many of some tools a run's agent is offered. -/
def offeredCount (profile : ToolProfile) (run : RunRow)
    (tools : List (Uuid × Run.ToolDefinition)) : Nat :=
  tools.countP fun entry => advertised profile run.target entry.2

/-- The contracts left behind fit beside the other tools, at most a hundred altogether and at
most thirty-two of them offered; or the other tools alone are too many. -/
def HasRoom (history : List (Transition Fleet FleetRequest)) (fleet : Fleet)
    (profile : ToolProfile) (run : RunRow) : Prop :=
  let others := otherTools history fleet.tools run
  let left := leftBehind history run
  let offeredLeft := left.countP fun entry =>
    (fleet.tools.toolDefinitions.find? entry.1).any (advertised profile run.target)
  (others.length ≤ 100 → offeredCount profile run others ≤ 32 →
    others.length + left.length ≤ 100 ∧ offeredCount profile run others + offeredLeft ≤ 32)

section Limit

variable {memberships : Memberships} {tools : List (Uuid × Run.ToolDefinition)}
  {profile : ToolProfile} {run : RunRow}

/-- The executor gives a run up when its workspace has too many tools or its agent would be
offered too many: the listing is long enough to tell. -/
theorem failsAtLimit_iff : FailsAtLimit memberships tools profile run ↔
    scopedMember memberships run.requestedBy run.workspaceId .read = .ok () ∧
      (100 < tools.length ∨ 32 < offeredCount profile run tools) := by
  have sorted := List.perm_insertionSort (fun first second : Uuid × Run.ToolDefinition =>
    first.2.name ≤ second.2.name) tools
  have listed : (listTools tools 101).length = min 101 tools.length := by
    rw [listTools, List.length_take, sorted.length_eq]
  have offered : tools.length ≤ 100 →
      ((listTools tools 101).filter fun entry => advertised profile run.target entry.2).length =
        offeredCount profile run tools := by
    intro few
    rw [listTools, List.take_of_length_le (by rw [sorted.length_eq]; omega),
      ← List.countP_eq_length_filter, sorted.countP_eq]
    rfl
  unfold FailsAtLimit offerTools
  cases mayRead : scopedMember memberships run.requestedBy run.workspaceId .read with
  | error failure => simp [Except.mapError, bind, Except.bind]
  | ok member =>
    simp only [Except.mapError, bind, Except.bind, raiseIf, listed, true_and]
    by_cases many : 100 < tools.length
    · simp [many]
    · rw [offered (by omega)]
      by_cases more : 32 < offeredCount profile run tools
      · simp [more]
      · simp [many, more, pure, Except.pure]

end Limit

/-- No tool is removed, and each stays in its workspace under its name. -/
def Grows (before after : Run.Store) : Prop :=
  ∀ toolId tool, before.toolDefinitions.find? toolId = some tool →
    ∃ later, after.toolDefinitions.find? toolId = some later ∧
      later.workspaceId = tool.workspaceId ∧ later.name = tool.name

variable {tool : Run.ToolDefinition}

section Growth

variable {before after : Run.Store}

theorem Grows.of_same (same : after.toolDefinitions = before.toolDefinitions) :
    Grows before after := fun _ tool found => ⟨tool, by rw [same, found], rfl, rfl⟩

theorem Grows.trans {last : Run.Store} (early : Grows before after) (late : Grows after last) :
    Grows before last := by
  intro toolId tool found
  obtain ⟨middle, present, inWorkspace, named⟩ := early toolId tool found
  obtain ⟨later, stored, laterWorkspace, laterName⟩ := late toolId middle present
  exact ⟨later, stored, laterWorkspace.trans inWorkspace, laterName.trans named⟩

/-- Writing one tool, under its own name if it was there. -/
theorem Grows.of_written {toolId : Uuid}
    (written : Table.Written before.toolDefinitions after.toolDefinitions toolId tool)
    (own : ∀ was, before.toolDefinitions.find? toolId = some was →
      tool.workspaceId = was.workspaceId ∧ tool.name = was.name) : Grows before after := by
  intro other was found
  obtain ⟨rfl, present⟩ | ⟨_, present⟩ := written.kept found
  · exact ⟨tool, present, own was found⟩
  · exact ⟨was, present, rfl, rfl⟩

theorem Grows.of_inserted {toolId : Uuid} {toolDefinitions : Table Uuid Run.ToolDefinition}
    (inserted : before.toolDefinitions.insert? toolId tool = some toolDefinitions) :
    Grows before { before with toolDefinitions := toolDefinitions } := by
  obtain ⟨absent, rfl⟩ := (Table.insert?_eq_some _ _ _ _).mp inserted
  refine .of_written (.put _ _ _) fun was found => ?_
  rw [absent] at found
  cases found

variable {platform : Run.Platform} {workspaceId integrationId toolId : Uuid} {name : PyStr}
  {toolIds : Nat → Uuid} {frozen : FrozenTool}

theorem upsertTool_grows {principal : Principal} {body : Run.ToolUpsertInput}
    (ok : before.upsertTool platform principal workspaceId name body toolId = .ok after) :
    Grows before after := by
  simp only [Run.Store.upsertTool, bind_eq_ok] at ok
  obtain ⟨_, _, _, _, _, _, _, _, _, _, ok⟩ := ok
  split at ok
  case h_1 existingId existing named =>
    rw [pure_eq_ok] at ok
    subst ok
    obtain ⟨present, _⟩ := Table.of_first? named
    refine .of_written (.modify _ present) fun was found => ?_
    obtain rfl := Option.some.inj (present.symm.trans found)
    exact ⟨rfl, rfl⟩
  case h_2 =>
    simp only [bind_eq_ok, orRaise_eq_ok, pure_eq_ok] at ok
    obtain ⟨_, inserted, rfl⟩ := ok
    exact .of_inserted inserted

theorem Provisions.grows {endpoint : ConnectorEndpoint}
    (provisions : Provisions before after workspaceId integrationId name endpoint toolId tool) :
    Grows before after := by
  refine .of_written provisions.written fun was found => ?_
  rcases provisions.earlier with ⟨_, absent⟩ | ⟨earlier, named⟩
  · rw [absent] at found
    cases found
  · obtain ⟨present, matching⟩ := Table.of_first? named
    obtain rfl := Option.some.inj (present.symm.trans found)
    simp only [Bool.and_eq_true, decide_eq_true_eq] at matching
    exact ⟨provisions.inWorkspace.trans matching.1.symm, provisions.named.trans matching.2.symm⟩

theorem sync_grows {published : Option ConnectorManifest}
    (ok : sync platform before published workspaceId integrationId toolIds = .ok after) :
    Grows before after := by
  obtain ⟨manifest, _, provisioned⟩ := sync_eq_provisionAll ok
  refine foldlM_invariant (Grows before) ?_ (.of_same rfl) provisioned
  intro current entry _ later grows provision
  obtain ⟨_, _, provisions⟩ := provision_provisions provision
  exact grows.trans provisions.grows

theorem disable_grows : Grows before (disable before workspaceId integrationId) := by
  intro toolId tool found
  simp only [disable, Table.find?_mapRows, found, Option.map_some, Option.some.injEq,
    exists_eq_left']
  split <;> exact ⟨rfl, rfl⟩

theorem register_grows {registered : Bool × Run.Store}
    (ok : register platform before workspaceId frozen toolId = .ok registered) :
    Grows before registered.2 := by
  simp only [register, bind_eq_ok] at ok
  obtain ⟨inserted, inserts, stored, _, _, _, ok⟩ := ok
  have grows : Grows before inserted := by
    simp only [insertTool, bind_eq_ok] at inserts
    obtain ⟨_, _, _, _, inserts⟩ := inserts
    split at inserts
    case h_1 =>
      rw [pure_eq_ok] at inserts
      exact .of_same (by rw [← inserts])
    case h_2 =>
      simp only [bind_eq_ok, orRaise_eq_ok, pure_eq_ok] at inserts
      obtain ⟨_, inserted, rfl⟩ := inserts
      exact .of_inserted inserted
  split at ok
  case isTrue =>
    rw [pure_eq_ok] at ok
    subst ok
    refine grows.trans (.of_same ?_)
    unfold insertPolicy
    split <;> rfl
  case isFalse =>
    rw [pure_eq_ok] at ok
    subst ok
    exact grows

variable {host : Host} {drafting : Drafting} {drafted later : Run.Store × RunContracts}
  {publicName : String}

theorem freeze_grows {change : RunContracts → RunContracts}
    (ok : drafting.freeze host publicName frozen toolId drafted change = .ok later) :
    Grows drafted.1 later.1 := by
  obtain ⟨offered, registers⟩ := (freeze_ok ok).1
  exact register_grows registers

theorem freezeTool_grows
    (ok : drafting.freezeTool host publicName toolId drafted = .ok later) :
    Grows drafted.1 later.1 := by
  cases freezeTool_freezes ok with
  | plain same _ => exact .of_same (by rw [same])
  | contract _ _ freezes _ => exact freeze_grows freezes
  | connector _ _ _ _ _ _ freezes _ => exact freeze_grows freezes

theorem connectorRunContracts_grows
    (ok : drafting.connectorRunContracts host before toolIds = .ok later) :
    Grows before later.1 := by
  refine foldlM_invariant (fun drafted : Run.Store × RunContracts => Grows before drafted.1)
    ?_ (.of_same rfl) ok
  intro drafted entry _ next grows step
  exact grows.trans (freezeTool_grows step)

end Growth

/-- A request or task that writes tools or runs. -/
def FleetRequest.writesRuns : FleetRequest → Bool
  | .upsertTool .. | .sync .. | .disable .. | .createCustomRun .. | .createStandardRun .. => true
  | _ => false

/-- A tenant's operation and the statements of a call leave the tools and the runs. -/
theorem run_aside {host : Host} {fleet next : Fleet} {request : FleetRequest}
    (ok : fleet.run host request = .ok next) (spares : request.writesRuns = false) :
    next.tools = fleet.tools ∧ next.runs = fleet.runs := by
  cases request with
  | upsertTool | sync | disable | createCustomRun | createStandardRun => cases spares
  | tenant operation =>
    simp only [Fleet.run, Fleet.operate, bind_eq_ok, pure_eq_ok] at ok
    obtain ⟨_, _, _, _, _, _, rfl⟩ := ok
    exact ⟨rfl, rfl⟩
  | beginCall =>
    simp only [Fleet.run, Fleet.beginCall, bind_eq_ok, pure_eq_ok] at ok
    obtain ⟨_, _, _, _, _, _, rfl⟩ := ok
    exact ⟨rfl, rfl⟩
  | shareBinding | readRow | readDefinition | openCredential | send =>
    simp only [Fleet.run, Fleet.shareBinding, Fleet.readRow, Fleet.readDefinition,
      Fleet.openCredential, Fleet.send, bind_eq_ok] at ok
    obtain ⟨call, _, ok⟩ := ok
    split at ok <;> simp only [bind_eq_ok, pure_eq_ok, reduceCtorEq] at ok
    grind [Fleet.progress]
  | refresh callId exchange clock =>
    simp only [Fleet.run, Fleet.refresh, bind_eq_ok] at ok
    obtain ⟨call, _, ok⟩ := ok
    split at ok
    case h_1 =>
      split at ok
      case h_1 =>
        obtain rfl := Except.ok.inj ok
        exact ⟨rfl, rfl⟩
      case h_2 =>
        simp only [bind_eq_ok, pure_eq_ok] at ok
        obtain ⟨_, _, _, _, _, _, rfl⟩ := ok
        exact ⟨rfl, rfl⟩
    case h_2 => cases ok
  | finish callId commits credentialId now =>
    simp only [Fleet.run, Fleet.finish, bind_eq_ok] at ok
    obtain ⟨call, _, ok⟩ := ok
    split at ok <;> simp only [bind_eq_ok, pure_eq_ok, reduceCtorEq] at ok
    case h_3 =>
      obtain ⟨_, _, _, _, _, _, rfl⟩ := ok
      exact ⟨rfl, rfl⟩
    all_goals
      obtain rfl := ok
      exact ⟨rfl, rfl⟩

/-- No request, task or statement removes a tool. -/
theorem run_grows {host : Host} {fleet next : Fleet} {request : FleetRequest}
    (ok : fleet.run host request = .ok next) : Grows fleet.tools next.tools := by
  cases request with
  | upsertTool principal workspaceId name body toolId =>
    simp only [Fleet.run, bind_eq_ok, mapError_eq_ok, pure_eq_ok] at ok
    obtain ⟨tools, upsert, rfl⟩ := ok
    have grows := upsertTool_grows upsert
    exact grows
  | sync workspaceId integrationId definitionId toolIds =>
    simp only [Fleet.run, bind_eq_ok, mapError_eq_ok, pure_eq_ok] at ok
    obtain ⟨tools, syncs, rfl⟩ := ok
    exact sync_grows syncs
  | disable workspaceId integrationId =>
    simp only [Fleet.run, pure_eq_ok] at ok
    obtain rfl := ok
    exact disable_grows
  | createCustomRun principal workspaceId agentId input idempotencyKey runId =>
    simp only [Fleet.run, bind_eq_ok, pure_eq_ok] at ok
    obtain ⟨_, _, rfl⟩ := ok
    exact .of_same rfl
  | createStandardRun principal workspaceId agentId input idempotencyKey runId toolIds =>
    simp only [Fleet.run, bind_eq_ok, mapError_eq_ok, pure_eq_ok] at ok
    obtain ⟨created, creates, rfl⟩ := ok
    obtain ⟨_, _, _, freezes, _⟩ := createStandardRun_inserts creates
    exact connectorRunContracts_grows freezes
  | _ => exact .of_same (by rw [(run_aside ok rfl).1])

/-- Each contract that was registered is still stored in its workspace under its name, and was
registered once. -/
structure Registered (history : List (Transition Fleet FleetRequest)) (fleet : Fleet) : Prop where
  once : ∀ workspaceId, ((frozenTools history workspaceId).map Prod.fst).Nodup
  stored : ∀ workspaceId, ∀ entry ∈ frozenTools history workspaceId,
    ∃ tool, fleet.tools.toolDefinitions.find? entry.1 = some tool ∧
      tool.workspaceId = workspaceId ∧ tool.name = entry.2

section Accounting

variable {host : Host} {history : List (Transition Fleet FleetRequest)} {fleet next : Fleet}
  {request : FleetRequest} {workspaceId : Uuid}

theorem mem_toolsOf {tools : Run.Store} {toolId : Uuid} :
    (toolId, tool) ∈ toolsOf tools workspaceId ↔
      tools.toolDefinitions.find? toolId = some tool ∧ tool.workspaceId = workspaceId := by
  simp [toolsOf]

theorem mem_addedTools {transition : Transition Fleet FleetRequest} {entry : Uuid × PyStr} :
    entry ∈ addedTools transition workspaceId ↔
      transition.before.tools.toolDefinitions.find? entry.1 = none ∧
        ∃ tool, transition.after.tools.toolDefinitions.find? entry.1 = some tool ∧
          tool.workspaceId = workspaceId ∧ tool.name = entry.2 := by
  simp only [addedTools, List.mem_map, List.mem_filter, decide_eq_true_eq]
  constructor
  · rintro ⟨⟨toolId, tool⟩, ⟨listed, absent⟩, rfl⟩
    obtain ⟨present, inWorkspace⟩ := mem_toolsOf.mp listed
    exact ⟨absent, tool, present, inWorkspace, rfl⟩
  · rintro ⟨absent, tool, present, inWorkspace, named⟩
    exact ⟨(entry.1, tool), ⟨mem_toolsOf.mpr ⟨present, inWorkspace⟩, absent⟩, by rw [named]⟩

theorem nodup_addedTools (transition : Transition Fleet FleetRequest) (workspaceId : Uuid) :
    ((addedTools transition workspaceId).map Prod.fst).Nodup := by
  have distinct := Table.nodup_select transition.after.tools.toolDefinitions
    fun _ tool => tool.workspaceId = workspaceId
  rw [addedTools, List.map_map]
  exact (List.filter_sublist.map Prod.fst).nodup distinct

theorem Registered.initial : Registered [] fleet where
  once _ := List.nodup_nil
  stored _ _ member := by cases member

/-- Tools that are there stay, and a creation adds its own once. -/
theorem Registered.step (registered : Registered history fleet)
    (ok : fleet.run host request = .ok next) :
    Registered (history ++ [⟨fleet, request, next⟩]) next := by
  have grows := run_grows ok
  have kept : ∀ workspaceId, ∀ entry ∈ frozenTools history workspaceId,
      ∃ tool, next.tools.toolDefinitions.find? entry.1 = some tool ∧
        tool.workspaceId = workspaceId ∧ tool.name = entry.2 := by
    intro workspaceId entry member
    obtain ⟨tool, present, inWorkspace, named⟩ := registered.stored workspaceId entry member
    obtain ⟨later, stored, sameWorkspace, sameName⟩ := grows entry.1 tool present
    exact ⟨later, stored, sameWorkspace.trans inWorkspace, sameName.trans named⟩
  by_cases creates : request.createsStandardRun = true
  · have grown : ∀ workspaceId, frozenTools (history ++ [⟨fleet, request, next⟩]) workspaceId =
        frozenTools history workspaceId ++ addedTools ⟨fleet, request, next⟩ workspaceId := by
      intro workspaceId
      simp [frozenTools, creates]
    constructor
    · intro workspaceId
      rw [grown, List.map_append]
      refine (registered.once workspaceId).append (nodup_addedTools _ _) ?_
      intro toolId earlier added
      obtain ⟨entry, member, rfl⟩ := List.mem_map.mp earlier
      obtain ⟨new, isAdded, same⟩ := List.mem_map.mp added
      obtain ⟨tool, present, _⟩ := registered.stored workspaceId entry member
      have absent := (mem_addedTools.mp isAdded).1
      rw [same, present] at absent
      cases absent
    · intro workspaceId entry member
      rw [grown] at member
      rcases List.mem_append.mp member with earlier | added
      · exact kept workspaceId entry earlier
      · exact (mem_addedTools.mp added).2
  · have same : ∀ workspaceId, frozenTools (history ++ [⟨fleet, request, next⟩]) workspaceId =
        frozenTools history workspaceId := by
      intro workspaceId
      simp [frozenTools, creates]
    constructor
    · intro workspaceId
      rw [same]
      exact registered.once workspaceId
    · intro workspaceId entry member
      rw [same] at member
      exact kept workspaceId entry member

theorem registered_of_runs (runs : (fleetMachine host).Runs history fleet) :
    Registered history fleet :=
  runs.invariantWithHistory Registered (fun _ _ => .initial) fun _ _ _ _ registered step =>
    registered.step step

/-- Of the tools of a run's workspace, those left behind are counted by the history. -/
theorem countP_toolsOf (registered : Registered history fleet) (run : RunRow)
    (counts : Run.ToolDefinition → Bool) :
    (toolsOf fleet.tools run.workspaceId).countP (fun entry => counts entry.2) =
      (otherTools history fleet.tools run).countP (fun entry => counts entry.2) +
        (leftBehind history run).countP fun entry =>
          (fleet.tools.toolDefinitions.find? entry.1).any counts := by
  let isLeft : Uuid × Run.ToolDefinition → Bool := fun entry =>
    entry.1 ∈ (leftBehind history run).map Prod.fst
  let stored : Uuid → Bool := fun toolId =>
    (fleet.tools.toolDefinitions.find? toolId).any counts
  have sameIds : (((toolsOf fleet.tools run.workspaceId).filter isLeft).map Prod.fst).Perm
      ((leftBehind history run).map Prod.fst) := by
    have distinct := Table.nodup_select fleet.tools.toolDefinitions
      fun _ tool => tool.workspaceId = run.workspaceId
    refine (List.perm_ext_iff_of_nodup ((List.filter_sublist.map _).nodup distinct)
      ((List.filter_sublist.map _).nodup (registered.once run.workspaceId))).mpr fun toolId => ?_
    constructor
    · intro listed
      obtain ⟨entry, member, rfl⟩ := List.mem_map.mp listed
      exact of_decide_eq_true (List.mem_filter.mp member).2
    · intro left
      obtain ⟨entry, member, rfl⟩ := List.mem_map.mp left
      obtain ⟨tool, present, inWorkspace, _⟩ :=
        registered.stored run.workspaceId entry (List.mem_filter.mp member).1
      exact List.mem_map.mpr ⟨(entry.1, tool), List.mem_filter.mpr
        ⟨mem_toolsOf.mpr ⟨present, inWorkspace⟩, decide_eq_true left⟩, rfl⟩
  have leftCount : ((toolsOf fleet.tools run.workspaceId).filter isLeft).countP
      (fun entry => counts entry.2) =
        (leftBehind history run).countP fun entry => stored entry.1 := by
    calc ((toolsOf fleet.tools run.workspaceId).filter isLeft).countP (fun entry => counts entry.2)
        = ((toolsOf fleet.tools run.workspaceId).filter isLeft).countP
            fun entry => stored entry.1 := by
          refine List.countP_congr fun entry member => ?_
          have present := (mem_toolsOf.mp (List.mem_filter.mp member).1).1
          simp [stored, present]
      _ = (((toolsOf fleet.tools run.workspaceId).filter isLeft).map Prod.fst).countP stored := by
          rw [List.countP_map]
          rfl
      _ = ((leftBehind history run).map Prod.fst).countP stored := sameIds.countP_eq stored
      _ = (leftBehind history run).countP fun entry => stored entry.1 := by
          rw [List.countP_map]
          rfl
  rw [List.countP_eq_countP_filter_add _ _ isLeft, leftCount, Nat.add_comm]
  congr 1
  simp [otherTools, isLeft]

end Accounting

/-- A run is not given up because of what other runs have left behind exactly when that fits
beside the other tools of the workspace, or they are too many without it. -/
theorem unstarved_iff (host : Host) (history : List (Transition Fleet FleetRequest))
    (fleet : Fleet) (profile : ToolProfile) (run : RunRow)
    (runs : (fleetMachine host).Runs history fleet) :
    ¬ Starved history fleet profile run ↔
      (scopedMember fleet.tenant.memberships run.requestedBy run.workspaceId .read = .ok () →
        HasRoom history fleet profile run) := by
  have registered := registered_of_runs runs
  have all := countP_toolsOf registered run fun _ => true
  have offered := countP_toolsOf registered run (advertised profile run.target)
  have left : (leftBehind history run).countP (fun entry =>
      (fleet.tools.toolDefinitions.find? entry.1).any fun _ => true) =
        (leftBehind history run).length := by
    rw [List.countP_eq_length]
    intro entry member
    obtain ⟨tool, present, _⟩ := registered.stored run.workspaceId entry (List.mem_filter.mp member).1
    simp [present]
  rw [left, List.countP_true] at all
  simp only [Starved, failsAtLimit_iff, HasRoom, offeredCount, offered, all]
  by_cases mayRead : scopedMember fleet.tenant.memberships run.requestedBy run.workspaceId .read =
      .ok ()
  · simp only [mayRead, true_and, forall_const]
    omega
  · simp [mayRead]

/-- A digest made of two characters of a document: those that number a site below. -/
def siteDigest (document : PyStr) : Nat :=
  ((document.drop 28).take 2).foldl (fun number point => 256 * number + point.val) 0 * 2 ^ 240

/-- URLs of sites without a path. -/
def siteLibrary : Library :=
  { exampleLibrary with
    urlsplit := fun url => .ok
      { scheme := "https", netloc := String.ofList (url.toList.drop 8)
        hostname := some (String.ofList (url.toList.drop 8)), username := none
        password := none, port := .ok none, query := "", fragment := "" } }

/-- A deployment with a browser. -/
def siteHost : Host where
  platform := { Run.examplePlatform with
    runtime := { Run.examplePlatform.runtime with sha256 := siteDigest } }
  deployment := { exampleDeployment with library := siteLibrary }
  browserConfigured := true

/-- A manifest that needs no connection and looks at a site. -/
def siteManifest : Catalog.AgentManifest where
  slug := "content"
  version := ⟨1, 0, 0⟩
  minRuntimeVersion := ⟨1, 0, 0⟩
  status := .stable
  channel := .stable
  changelog := ""
  requiredIntegrations := []
  optionalIntegrations := []
  requiredDistinct := List.nodup_nil
  optionalDistinct := List.nodup_nil
  neverBoth _ _ := List.not_mem_nil
  requiredTools := ["browser.page.inspect"]
  toolsDistinct := List.nodup_singleton _

/-- A catalog with one stable release of that manifest. -/
def siteCatalog : Nexora.Catalog where
  tables :=
    { contentCatalog.tables with
      versions := contentCatalog.tables.versions.modify 2 fun row =>
        { row with manifest := siteManifest } }
  consistent := by decide

/-- Workspace 7 with its owner, before anything is installed. -/
def siteFleet : Fleet where
  tenant := { freshStore with catalog := siteCatalog }
  tools := .empty
  runs := .empty
  drawn := []
  calls := .empty

/-- A digit as a character. -/
def digitPoint (value : Nat) : Fin 0x110000 := ⟨48 + value % 10, by omega⟩

/-- Give the instance another site. -/
def changeSite (index : Nat) : FleetRequest :=
  .tenant (.updateAgentInstance owner 7 30
    { displayName := none, status := none, updateChannel := none, updateMode := none
      instructionsOverride := none, notEmpty := by simp
      settings := some (.object [(py "site_url", .str
        (py "https://s" ++ [digitPoint (index / 10), digitPoint index]))]) } 3)

/-- Create a run of the instance. -/
def inspectSite (index : Nat) : FleetRequest :=
  .createStandardRun owner 7 30 (py "question") (toString index) (40 + index) fun _ => 1000 + index

/-- Runs for as many sites, and then a run of a custom agent. -/
def inspectSites (count : Nat) : List FleetRequest :=
  .tenant (.install owner 7
      { slug := "content", displayName := none, updateChannel := none, updateMode := none
        bindings := ⟨[], List.nodup_nil⟩, bounded := by decide } 30 31 2) ::
    (List.range count).flatMap (fun index => [changeSite index, inspectSite index]) ++
    [.createCustomRun owner 7 9 (py "question") "custom" 39]

/-- An operator's profile that lets agents call browser tools. -/
def browserProfile : ToolProfile := ⟨[], ["browser"]⟩

theorem siteFleet_unused : Unused siteFleet where
  integrations := rfl
  credentials := rfl
  oauthStates := rfl
  bindings := rfl
  runs := rfl
  calls := rfl
  namesUnique first second firstTool secondTool present := by
    simp [siteFleet, Run.Store.empty] at present

/-- `unstarved_iff` applies to the custom agent's run after one run for a site. -/
theorem unstarved_iff_oneSite :
    ∃ history fleet run, (fleetMachine siteHost).Runs history fleet ∧
      fleet.runs.find? 39 = some run ∧ (leftBehind history run).length = 1 ∧
      (¬ Starved history fleet browserProfile run ↔
        (scopedMember fleet.tenant.memberships run.requestedBy run.workspaceId .read = .ok () →
          HasRoom history fleet browserProfile run)) := by
  obtain ⟨history, fleet, runs, checked⟩ := Machine.exists_run_of_trace Unused
    (fun fleet => fleet.run siteHost) (inspectSites 1) siteFleet
    (fun history fleet => (fleet.runs.find? 39).any fun run => (leftBehind history run).length = 1)
    siteFleet_unused (by decide +kernel)
  obtain ⟨run, found, left⟩ := (Option.any_eq_true _ _).mp checked
  exact ⟨history, fleet, run, runs, found, of_decide_eq_true left,
    unstarved_iff siteHost history fleet browserProfile run runs⟩

/-- A workspace has at most fifty tools that no run has registered, and every agent declares
at most ten. -/
structure Modest (history : List (Transition Fleet FleetRequest)) (fleet : Fleet)
    (workspaceId : Uuid) : Prop where
  tools : ((toolsOf fleet.tools workspaceId).filter fun entry =>
    entry.1 ∉ (frozenTools history workspaceId).map Prod.fst).length ≤ 50
  agents : ∀ versionId row, fleet.tenant.catalog.tables.versions.find? versionId = some row →
    (row.manifest.requiredTools ++ row.manifest.optionalTools).length ≤ 10

/-- An administrator's read tool, by its number. -/
def officeTool (number : Nat) : Run.ToolDefinition where
  serverKey := "office"
  remoteName := "lookup"
  inputSchema := defaultInputSchema
  outputSchema := none
  sideEffect := .read
  workspaceId := 7
  name := [digitPoint (number / 10), digitPoint number] ++ py ".office.lookup"
  enabled := true

/-- Workspace 7 with thirty tools its administrator registered. -/
def officeFleet : Fleet :=
  { siteFleet with
    tools := { Run.Store.empty with
      toolDefinitions := (List.range 30).foldl
        (fun tools number => tools.put (500 + number) (officeTool number)) .empty } }

/-- A profile that lets agents call those tools beside the browser's. -/
def officeProfile : ToolProfile := ⟨[], ["browser", "office"]⟩

theorem namesUnique_of_entries {tools : Table Uuid Run.ToolDefinition}
    (distinct : (tools.entries.map fun entry => entry.2.name).Nodup) : NamesUnique tools := by
  intro first second firstTool secondTool isFirst isSecond _ sameName
  have firstEntry := (Table.mem_entries _ _ _).mpr isFirst
  have secondEntry := (Table.mem_entries _ _ _).mpr isSecond
  exact congrArg Prod.fst (List.inj_on_of_nodup_map distinct firstEntry secondEntry sameName)

theorem officeFleet_unused : Unused officeFleet where
  integrations := rfl
  credentials := rfl
  oauthStates := rfl
  bindings := rfl
  runs := rfl
  calls := rfl
  namesUnique := namesUnique_of_entries (by decide +kernel)

/-- An agent's runs for three sites starve the other agents of a workspace with thirty tools. -/
theorem earlier_runs_starve :
    ¬ ∀ (host : Host) (history : List (Transition Fleet FleetRequest)) (fleet : Fleet)
        (profile : ToolProfile) (runId : Uuid) (run : RunRow),
      (fleetMachine host).Runs history fleet → fleet.runs.find? runId = some run →
        Modest history fleet run.workspaceId → ¬ Starved history fleet profile run := by
  intro never
  obtain ⟨history, fleet, runs, checked⟩ := Machine.exists_run_of_trace Unused
    (fun fleet => fleet.run siteHost) (inspectSites 3) officeFleet
    (fun history fleet => (fleet.runs.find? 39).any fun run =>
      scopedMember fleet.tenant.memberships run.requestedBy run.workspaceId .read = .ok () &&
      decide (32 < offeredCount officeProfile run (toolsOf fleet.tools run.workspaceId)) &&
      decide (offeredCount officeProfile run (otherTools history fleet.tools run) ≤ 32) &&
      decide ((otherTools history fleet.tools run).length ≤ 50) &&
      (leftBehind history run).length = (frozenTools history run.workspaceId).length &&
      fleet.tenant.catalog.tables.versions.entries.all fun entry =>
        (entry.2.manifest.requiredTools ++ entry.2.manifest.optionalTools).length ≤ 10)
    officeFleet_unused (by decide +kernel)
  obtain ⟨run, found, facts⟩ := (Option.any_eq_true _ _).mp checked
  simp only [Bool.and_eq_true, decide_eq_true_eq, List.all_eq_true] at facts
  obtain ⟨⟨⟨⟨⟨mayRead, many⟩, fewer⟩, others⟩, left⟩, declared⟩ := facts
  have allLeft : leftBehind history run = frozenTools history run.workspaceId :=
    List.filter_sublist.eq_of_length left
  refine never siteHost history fleet officeProfile 39 run runs found ⟨?_, ?_⟩ ⟨?_, ?_⟩
  · rw [otherTools, allLeft] at others
    exact others
  · intro versionId row present
    exact declared (versionId, row) ((Table.mem_entries _ _ _).mpr present)
  · exact failsAtLimit_iff.mpr ⟨mayRead, .inr many⟩
  · rw [failsAtLimit_iff]
    rintro ⟨-, tooMany | tooMany⟩
    · omega
    · omega

end Nexora.Connector
