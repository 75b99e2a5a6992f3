import Nexora.Connector.Pinned
import Nexora.Executor.Results

/-!
# The names a run's tools are advertised under

The executor shows a tool under the public name its alias gives it, and the gateway follows
the alias back. Public names, frozen names and the names an administrator chose share one table:
a public name of a snapshot has two dots or more and a frozen name has one.
-/

namespace Nexora.Executor

open Nexora.Std Nexora.Tools Nexora.Integration Nexora.Connector Json
open Run (ToolDefinition ExecutionContext)

/-- The tools a run is shown, each with the name it is advertised under. -/
def advertisedTools (context : ExecutionContext) (profile : ExecutionProfile)
    (tools : List ToolDefinition) : List (PyStr × ToolDefinition) :=
  (tools.filter fun tool => tool.enabled && executable context profile tool).map fun tool =>
    (publicName context tool.name, tool)

theorem advertise_eq (context : ExecutionContext) (profile : ExecutionProfile)
    (tools : List ToolDefinition) :
    advertise context profile tools =
      (advertisedTools context profile tools).map fun shown => ⟨shown.1, shown.2.inputSchema⟩ := by
  simp [advertise, advertisedTools]

/-- Another tool has the name as its alias. -/
def Shadowed (context : ExecutionContext) (name : PyStr) : Prop :=
  ∃ internal, (name, internal) ∈ context.toolAliases.getD [] ∧ internal ≠ name

/-- `create_run` keeps the contracts with a new run; the definitions it reads can be loaded. -/
structure CreatedWith (host : Host) (tenant : Tenant.Store) (contracts : RunContracts) : Prop where
  loadable : ∀ id definition, tenant.definitions.find? id = some definition →
    definition.validate host.deployment.library host.platform.runtime = .ok ()
  created : ∃ tools runs principal workspaceId agentId input idempotencyKey runId toolIds later row,
    createStandardRun host tenant tools runs principal workspaceId agentId input idempotencyKey
        runId toolIds = .ok later ∧
      runs.find? runId = none ∧ later.2.find? runId = some row ∧
      row.target = .standard agentId contracts

/-- The aliases a run is executed with: none, or those of its snapshot in any order. -/
inductive Snapshotted (host : Host) : Option (List (PyStr × PyStr)) → Prop
  | none : Snapshotted host none
  | standard {tenant : Tenant.Store} {contracts : RunContracts} {aliases : List (PyStr × PyStr)}
      (created : CreatedWith host tenant contracts)
      (kept : aliases.Perm (contracts.aliases.map fun entry => (py entry.1, entry.2))) :
      Snapshotted host (some aliases)

variable {name key capability : String} {contracts : RunContracts}

section Dots

/-- The code point of a dot. -/
def dot : Fin 0x110000 := 46

/-- The dots of a text. -/
def dots (name : PyStr) : Nat := name.count dot

@[simp]
theorem dots_append (first second : PyStr) : dots (first ++ second) = dots first + dots second :=
  List.count_append

theorem dots_py (text : String) : dots (py text) = text.toList.count '.' := by
  have point : Function.Injective fun character : Char =>
      (⟨character.val.toNat, by
        rcases character.valid with low | high
        · exact lt_trans low (by decide)
        · exact high.2⟩ : Fin 0x110000) := by
    intro one two same
    simp only [Fin.mk.injEq] at same
    exact Char.ext (UInt32.toNat_inj.mp same)
  exact List.count_map_of_injective text.toList _ point '.'

theorem dots_hexDigest (digest count : Nat) : dots ((Connector.hexDigest digest).take count) = 0 := by
  refine List.count_eq_zero.mpr fun member => ?_
  obtain ⟨index, -, isDot⟩ := List.mem_map.mp (List.mem_of_mem_take member)
  have value : (hexPoint (Fin.ofNat 16 (digest / 16 ^ (63 - index)))).val = 46 := by
    rw [isDot]
    rfl
  generalize Fin.ofNat 16 (digest / 16 ^ (63 - index)) = digit at value
  simp only [hexPoint] at value
  split at value <;> omega

/-- A frozen name has one dot. -/
theorem dots_internalName (runtime : Runtime) (serverKey : String) (document : Json)
    (plain : '.' ∉ serverKey.toList) : dots (internalName runtime serverKey document) = 1 := by
  have separator : dots (py ".") = 1 := by decide
  rw [internalName, dots_append, dots_append, dots_hexDigest, separator, dots_py,
    List.count_eq_zero.mpr plain]

theorem dot_of_isCapability {text : String} (fits : isCapability text = true) :
    '.' ∈ text.toList := by
  by_contra plain
  simp only [isCapability, dotted, List.splitOn_eq_singleton plain] at fits
  simp at fits

theorem partitionDot_eq (parts : Drafting.partitionDot name = some (key, capability)) :
    name.toList = key.toList ++ '.' :: capability.toList := by
  unfold Drafting.partitionDot at parts
  have whole := List.takeWhile_append_dropWhile (p := fun c => decide (c ≠ '.')) (l := name.toList)
  have first := List.head?_dropWhile_not (fun c => decide (c ≠ '.')) name.toList
  split at parts
  · cases parts
  · rename_i head rest isRest
    obtain ⟨rfl, rfl⟩ := Prod.mk.inj (Option.some.inj parts)
    rw [isRest] at whole first
    simp only [List.head?_cons] at first
    have isDot : head = '.' := by simpa using first
    rw [String.toList_ofList, String.toList_ofList]
    subst isDot
    exact whole.symm

end Dots

section Freezing

variable {host : Host} {drafting : Drafting} {drafted after : Run.Store × RunContracts}
  {toolId : Uuid}

/-- A public name is another one than every frozen name. -/
structure Apart (name : String) (internal : PyStr) : Prop where
  isPublic : 2 ≤ dots (py name)
  isFrozen : dots internal = 1

/-- What freezing one tool does to the aliases. -/
def Aliases (publicName : String) (before after : List (String × PyStr)) : Prop :=
  after = before ∨ ∃ internal, after = before ++ [(publicName, internal)] ∧ Apart publicName internal

theorem freeze_aliases {frozen : FrozenTool} {change : RunContracts → RunContracts}
    (ok : drafting.freeze host name frozen toolId drafted change = .ok after)
    (same : ∀ contracts, (change contracts).aliases = contracts.aliases)
    (apart : Apart name frozen.name) :
    Aliases name drafted.2.aliases after.2.aliases := by
  rcases (freeze_ok ok).2 with contracts | contracts
  · rw [contracts]
    exact .inl rfl
  · rw [contracts, same]
    exact .inr ⟨frozen.name, rfl, apart⟩

theorem unavailable_aliases {detail : String}
    (ok : drafting.unavailable name detail drafted = .ok after) :
    Aliases name drafted.2.aliases after.2.aliases := by
  obtain rfl := unavailable_ok ok
  exact .inl rfl

/-- The tool of a contract that is frozen has a name apart from its public one. -/
theorem apart_of_contract {runtime : Runtime} {library : Library}
    (loadable : ∀ id definition, drafting.tenant.definitions.find? id = some definition →
      definition.validate library runtime = .ok ()) {spec : ConnectorSpec} {tool : FrozenTool}
    (parts : Drafting.partitionDot name = some (key, capability))
    (stands : drafting.connectorContract runtime name key capability = .ok (spec, tool)) :
    Apart name tool.name := by
  simp only [Drafting.connectorContract, bind_eq_ok, orRaise_eq_ok, pure_eq_ok,
    Prod.mk.injEq] at stands
  obtain ⟨_, _, row, _, definition, published, endpoint, found, _, rfl⟩ := stands
  have listed := List.mem_of_find?_eq_some found
  have isFor : endpoint.capability = capability := by
    simpa using List.find?_some found
  have accepted := loadable _ definition published
  obtain ⟨-, -, -, -, endpoints, -⟩ := validate_eq_ok.mp accepted
  have fits := forM_eq_ok.mp endpoints endpoint listed
  simp only [ConnectorEndpoint.validate, bind_eq_ok, raiseIf_eq_ok] at fits
  obtain ⟨_, -, _, shape, -⟩ := fits
  rw [Bool.not_eq_false, isFor] at shape
  have inner := List.count_pos_iff.mpr (dot_of_isCapability shape)
  constructor
  case isPublic =>
    rw [dots_py, partitionDot_eq parts, List.count_append, List.count_cons_self]
    omega
  case isFrozen => exact dots_internalName _ _ _ (by decide)

theorem freezeTool_aliases
    (loadable : ∀ id definition, drafting.tenant.definitions.find? id = some definition →
      definition.validate host.deployment.library host.platform.runtime = .ok ())
    (ok : drafting.freezeTool host name toolId drafted = .ok after) :
    Aliases name drafted.2.aliases after.2.aliases := by
  unfold Drafting.freezeTool at ok
  split at ok
  case isTrue tasks =>
    refine freeze_aliases ok (fun _ => rfl) ⟨?_, dots_internalName _ _ _ (by decide)⟩
    rw [List.mem_cons, List.mem_singleton] at tasks
    rcases tasks with rfl | rfl <;> decide
  case isFalse =>
    split at ok
    case isTrue browser =>
      unfold Drafting.freezeBrowser at ok
      split at ok
      case h_1 => exact unavailable_aliases ok
      case h_2 =>
        simp only [bind_eq_ok] at ok
        obtain ⟨_, _, ok⟩ := ok
        split at ok
        case isTrue => exact unavailable_aliases ok
        case isFalse =>
          refine freeze_aliases ok (fun _ => rfl) ⟨?_, dots_internalName _ _ _ (by decide)⟩
          rw [List.mem_cons, List.mem_singleton] at browser
          rcases browser with rfl | rfl <;> decide
    case isFalse =>
      split at ok
      case h_1 =>
        obtain rfl := Except.ok.inj ok
        exact .inl rfl
      case h_2 key capability parts =>
        split at ok
        case isTrue =>
          obtain rfl := Except.ok.inj ok
          exact .inl rfl
        case isFalse =>
          split at ok
          case h_1 => exact unavailable_aliases ok
          case h_2 spec tool stands =>
            exact freeze_aliases ok (fun _ => rfl) (apart_of_contract loadable parts stands)

/-- The aliases that freezing a list of tools adds: some of its names, each apart from what it
stands for. -/
theorem freezeTools_aliases {toolIds : Nat → Uuid} {names : List (String × Nat)}
    (loadable : ∀ id definition, drafting.tenant.definitions.find? id = some definition →
      definition.validate host.deployment.library host.platform.runtime = .ok ())
    (ok : names.foldlM (fun drafted entry =>
      drafting.freezeTool host entry.1 (toolIds entry.2) drafted) drafted = .ok after) :
    ∃ added, after.2.aliases = drafted.2.aliases ++ added ∧
      (added.map Prod.fst).Sublist (names.map Prod.fst) ∧
      ∀ entry ∈ added, Apart entry.1 entry.2 := by
  induction names generalizing drafted with
  | nil =>
    rw [List.foldlM_nil, pure_eq_ok] at ok
    exact ⟨[], by simp [ok], List.Sublist.refl _, by simp⟩
  | cons entry rest ih =>
    rw [List.foldlM_cons, bind_eq_ok] at ok
    obtain ⟨next, first, others⟩ := ok
    obtain ⟨added, isAfter, fewer, apart⟩ := ih others
    rcases freezeTool_aliases loadable first with same | ⟨internal, grown, isApart⟩
    · exact ⟨added, by rw [isAfter, same], fewer.cons _, apart⟩
    · refine ⟨(entry.1, internal) :: added, ?_, ?_, ?_⟩
      · rw [isAfter, grown, List.append_assoc, List.singleton_append]
      · exact fewer.cons_cons _
      · rintro other (_ | ⟨_, member⟩)
        · exact isApart
        · exact apart other member

/-- What holds of the aliases a run is executed with: a name stands for one other, and no frozen
name is a name that stands for another. -/
structure Unambiguous (aliases : List (PyStr × PyStr)) : Prop where
  distinct : (aliases.map Prod.fst).Nodup
  apart : ∀ entry ∈ aliases, ∀ other ∈ aliases, entry.1 ≠ other.2

theorem CreatedWith.aliases {tenant : Tenant.Store} (created : CreatedWith host tenant contracts) :
    (contracts.aliases.map Prod.fst).Nodup ∧ ∀ entry ∈ contracts.aliases, Apart entry.1 entry.2 := by
  obtain ⟨tools, runs, principal, workspaceId, agentId, input, idempotencyKey, runId, toolIds, later,
    row, ok, absent, present, target⟩ := created.created
  obtain ⟨manifest, settings, frozen, freezes, wrote⟩ := createStandardRun_inserts ok
  have same : frozen = contracts := by
    rcases wrote with unchanged | ⟨inserted, wrote, -, standard⟩
    · rw [unchanged, absent] at present
      cases present
    · obtain ⟨-, isLater⟩ := (Table.insert?_eq_some _ _ _ _).mp wrote
      rw [isLater, Table.find?_put, Option.some.injEq] at present
      rw [present, target, Connector.RunTarget.standard.injEq] at standard
      exact standard.2.symm
  obtain ⟨added, isAfter, fewer, apart⟩ := freezeTools_aliases created.loadable freezes
  rw [same, RunContracts.empty, List.nil_append] at isAfter
  rw [isAfter]
  refine ⟨fewer.nodup ?_, apart⟩
  rw [List.zipIdx_map_fst]
  exact manifest.toolsDistinct

theorem Snapshotted.unambiguous {aliases : Option (List (PyStr × PyStr))}
    (snapshot : Snapshotted host aliases) : Unambiguous (aliases.getD []) := by
  cases snapshot with
  | none => exact ⟨List.nodup_nil, by simp⟩
  | @standard _ _ listed created kept =>
    obtain ⟨distinct, apart⟩ := created.aliases
    have dotted : ∀ entry ∈ listed, 2 ≤ dots entry.1 ∧ dots entry.2 = 1 := by
      intro entry member
      obtain ⟨source, listed, rfl⟩ := List.mem_map.mp (kept.mem_iff.mp member)
      exact ⟨(apart source listed).isPublic, (apart source listed).isFrozen⟩
    constructor
    case distinct =>
      refine (kept.map Prod.fst).nodup_iff.mpr ?_
      rw [List.map_map]
      have named := List.Nodup.map Json.py_injective distinct
      rwa [List.map_map] at named
    case apart =>
      intro entry member other also same
      have first := (dotted entry member).1
      have second := (dotted other also).2
      rw [same, second] at first
      omega

end Freezing

section Resolving

variable {context : ExecutionContext} {profile : ExecutionProfile} {tool : ToolDefinition}
  {store : Run.Store}

/-- What an alias stands for. -/
theorem governedToolName_of_mem (clear : Unambiguous (context.toolAliases.getD []))
    {name internal : PyStr} (member : (name, internal) ∈ context.toolAliases.getD []) :
    context.governedToolName name = internal := by
  have unique : ∀ other ∈ context.toolAliases.getD [], other.1 = name → other = (name, internal) :=
    fun other also same => List.inj_on_of_nodup_map clear.distinct also member same
  unfold ExecutionContext.governedToolName
  cases found : (context.toolAliases.getD []).find? fun entry => entry.1 = name with
  | none => simpa using List.find?_eq_none.mp found _ member
  | some entry =>
    rw [unique entry (List.mem_of_find?_eq_some found) (by simpa using List.find?_some found)]
    rfl

theorem governedToolName_of_notMem {name : PyStr}
    (other : ∀ entry ∈ context.toolAliases.getD [], entry.1 ≠ name) :
    context.governedToolName name = name := by
  have none : ((context.toolAliases.getD []).find? fun entry => entry.1 = name) = none :=
    List.find?_eq_none.mpr fun entry member => by simpa using other entry member
  rw [ExecutionContext.governedToolName, none]
  rfl

/-- A name the gateway looks up is the one it was given, or a frozen one. -/
theorem governedToolName_cases (name : PyStr) :
    (∃ internal, (name, internal) ∈ context.toolAliases.getD [] ∧
      context.governedToolName name = internal) ∨
    (∀ entry ∈ context.toolAliases.getD [], entry.1 ≠ name) ∧
      context.governedToolName name = name := by
  unfold ExecutionContext.governedToolName
  cases found : (context.toolAliases.getD []).find? fun entry => entry.1 = name with
  | none => exact .inr ⟨by simpa using List.find?_eq_none.mp found, rfl⟩
  | some entry =>
    have same : entry.1 = name := by simpa using List.find?_some found
    exact .inl ⟨entry.2, same ▸ List.mem_of_find?_eq_some found, rfl⟩

/-- The gateway follows the alias of a tool the run may call back to it. -/
theorem governedToolName_publicName (clear : Unambiguous (context.toolAliases.getD []))
    (allowed : executable context profile tool = true) :
    context.governedToolName (publicName context tool.name) = tool.name := by
  cases found : (context.toolAliases.getD []).reverse.find? fun entry => entry.2 = tool.name with
  | some entry =>
    have member := List.mem_reverse.mp (List.mem_of_find?_eq_some found)
    have same : entry.2 = tool.name := by simpa using List.find?_some found
    have isPublic : publicName context tool.name = entry.1 := by
      rw [publicName, found]
      rfl
    rw [isPublic, ← same]
    exact governedToolName_of_mem clear member
  | none =>
    have isPublic : publicName context tool.name = tool.name := by
      rw [publicName, found]
      rfl
    have foreign : ∀ entry ∈ context.toolAliases.getD [], entry.2 ≠ tool.name := by
      intro entry member
      simpa using List.find?_eq_none.mp found entry (List.mem_reverse.mpr member)
    rw [isPublic]
    refine governedToolName_of_notMem fun entry member same => ?_
    simp only [executable, isPublic, Bool.and_eq_true, Bool.not_eq_true', List.any_eq_false,
      decide_eq_true_eq, not_and, ne_eq, Decidable.not_not] at allowed
    exact foreign entry member (allowed.1.1 entry member same)

/-- The tools of a workspace as they are listed, each under its own name. -/
theorem listTools_distinct (unique : NamesUnique store.toolDefinitions) (workspaceId : Uuid)
    (limit : Nat) :
    ((listTools store workspaceId limit).map ToolDefinition.name).Nodup := by
  have rows : ((store.toolDefinitions.select fun _ tool => tool.workspaceId = workspaceId).map
      fun entry => entry.2.name).Nodup := by
    refine List.Nodup.map_on ?_ (List.Nodup.of_map Prod.fst (Table.nodup_select _ _))
    rintro ⟨firstId, first⟩ isFirst ⟨secondId, second⟩ isSecond same
    obtain ⟨firstPresent, here⟩ := (Table.mem_select _ _ _ _).mp isFirst
    obtain ⟨secondPresent, alsoHere⟩ := (Table.mem_select _ _ _ _).mp isSecond
    have sameWorkspace : first.workspaceId = second.workspaceId := by
      rw [of_decide_eq_true here, of_decide_eq_true alsoHere]
    obtain rfl := unique firstId secondId first second firstPresent secondPresent sameWorkspace same
    rw [firstPresent, Option.some.injEq] at secondPresent
    rw [secondPresent]
  rw [listTools, List.map_map]
  have listed := (((orderBy_perm (fun entry : Uuid × ToolDefinition => entry.2.name) _).map
    fun entry => entry.2.name).nodup_iff).mpr rows
  rw [List.map_take]
  exact (List.take_sublist _ _).nodup listed

theorem mem_listTools {workspaceId : Uuid} {limit : Nat}
    (listed : tool ∈ listTools store workspaceId limit) :
    ∃ toolId, store.toolDefinitions.find? toolId = some tool ∧ tool.workspaceId = workspaceId := by
  obtain ⟨⟨toolId, row⟩, member, rfl⟩ := List.mem_map.mp listed
  have present := (Table.mem_select _ _ _ _).mp ((mem_orderBy _).mp (List.mem_of_mem_take member))
  exact ⟨toolId, present.1, of_decide_eq_true present.2⟩

/-- The advertised names of a run are distinct and the gateway resolves each to the tool it is
advertised for; a workspace's tool whose name an alias takes is neither shown nor called. -/
theorem advertised_tools_resolve (host : Host) (store : Run.Store) (context : ExecutionContext)
    (profile : ExecutionProfile) (unique : NamesUnique store.toolDefinitions)
    (snapshot : Snapshotted host context.toolAliases) :
    let tools := listTools store context.workspaceId 101
    ((advertise context profile tools).map ProviderTool.name).Nodup ∧
    advertise context profile tools =
      (advertisedTools context profile tools).map (fun shown => ⟨shown.1, shown.2.inputSchema⟩) ∧
    (∀ shown ∈ advertisedTools context profile tools, ∃ toolId,
      store.toolNamed context.workspaceId (context.governedToolName shown.1) =
        some (toolId, shown.2)) ∧
    ∀ toolId tool, store.toolDefinitions.find? toolId = some tool →
      tool.workspaceId = context.workspaceId → Shadowed context tool.name →
        (∀ shown ∈ advertisedTools context profile tools, shown.2 ≠ tool) ∧
        ∀ called, store.toolNamed context.workspaceId (context.governedToolName called) ≠
          some (toolId, tool) := by
  have clear := snapshot.unambiguous
  have allowed : ∀ shown ∈ advertisedTools context profile
      (listTools store context.workspaceId 101),
      shown.2 ∈ listTools store context.workspaceId 101 ∧
        context.governedToolName shown.1 = shown.2.name := by
    intro shown member
    obtain ⟨tool, listed, rfl⟩ := List.mem_map.mp member
    obtain ⟨isListed, callable⟩ := List.mem_filter.mp listed
    rw [Bool.and_eq_true] at callable
    exact ⟨isListed, governedToolName_publicName clear callable.2⟩
  dsimp only
  refine ⟨?_, advertise_eq _ _ _, ?_, ?_⟩
  · have named : ((advertisedTools context profile (listTools store context.workspaceId 101)).map
        fun shown => context.governedToolName shown.1).Nodup := by
      rw [List.map_congr_left fun shown member => (allowed shown member).2, advertisedTools,
        List.map_map]
      exact (List.filter_sublist.map _).nodup (listTools_distinct unique _ _)
    rw [advertise_eq, List.map_map]
    refine List.Nodup.of_map context.governedToolName ?_
    rwa [List.map_map]
  · intro shown member
    obtain ⟨listed, governed⟩ := allowed shown member
    obtain ⟨toolId, present, here⟩ := mem_listTools listed
    exact ⟨toolId, (toolNamed_eq_some unique).mpr ⟨present, here, governed.symm⟩⟩
  · rintro toolId tool present here ⟨internal, taken, other⟩
    have unnamed : ∀ called, context.governedToolName called ≠ tool.name := by
      intro called governed
      rcases @governedToolName_cases context called with ⟨frozen, member, same⟩ | ⟨foreign, same⟩
      · exact clear.apart _ taken _ member (governed.symm.trans same)
      · exact foreign _ taken (governed.symm.trans same)
    constructor
    · rintro shown member rfl
      exact unnamed shown.1 (allowed shown member).2
    · intro called resolved
      exact unnamed called ((toolNamed_eq_some unique).mp resolved).2.2.symm

end Resolving

/-- A profile that lets a run call connector tools. -/
def connectorProfile : ExecutionProfile where
  allowedWorkspaces := [7]
  allowedProviders := [py "provider"]
  allowedTools := []
  allowedServerKeys := ["connector"]
  maxSteps := 4
  maxOutputTokens := 100
  maxTotalTokens := 1000
  maxContextChars := 1000
  answerCacheTtlSeconds := 0
  maxSteps_range := fourSteps
  maxOutputTokens_range := hundredOutputTokens
  maxTotalTokens_range := thousandTokens
  maxContextChars_range := thousandChars
  answerCacheTtlSeconds_range := cachesNothing

/-- The tenancy store once the agent is installed and bound to its connection. -/
def installedTenant : Tenant.Store :=
  ((freshFleet.run exampleHost (.tenant connectGithub) >>= fun connected =>
    connected.run exampleHost (.tenant installReviewer)).toOption.map Fleet.tenant).getD
      freshFleet.tenant

theorem installedTenant_loadable (id : String) (definition : ConnectorManifest)
    (found : installedTenant.definitions.find? id = some definition) :
    definition.validate exampleHost.deployment.library exampleHost.platform.runtime = .ok () := by
  have only : (installedTenant.definitions.any fun _ present => present ≠ github) = false := by
    decide +kernel
  have loads : github.validate exampleHost.deployment.library exampleHost.platform.runtime =
      .ok () :=
    validate_eq_ok.mpr ⟨by decide +kernel, by decide +kernel, rfl, by decide +kernel,
      by decide +kernel, by decide +kernel⟩
  by_cases same : definition = github
  case pos => rw [same, loads]
  case neg =>
    rw [← Bool.not_eq_true, Table.any_eq_true] at only
    exact absurd ⟨id, definition, found, decide_eq_true same⟩ only

/-- Run 40 of the agent is created. -/
def reviewerRun : Except Run.Raised (Run.Store × Table Uuid RunRow) :=
  createStandardRun exampleHost installedTenant .empty .empty Tenant.owner 7 30 (py "question")
    "key" 40 fun index => 70 + index

/-- The context run 40 is executed in. -/
def reviewerContext (aliases : List (String × PyStr)) : ExecutionContext where
  jobId := 41
  workspaceId := 7
  runId := 40
  agentId := 30
  traceId := 42
  inputText := py "question"
  instructions := some (py "Review")
  modelProfile := some (py "reviewer")
  attemptCount := 1
  agentKind := .standard
  agentSnapshot := none
  allowedTools := some [py "github.repos.read"]
  toolAliases := some (aliases.map fun entry => (py entry.1, entry.2))

/-- The contracts of run 40. -/
def contractsOf (runs : Table Uuid RunRow) : Option RunContracts :=
  match runs.find? 40 with
  | some row =>
    match row.target with
    | .standard agentId contracts => if agentId = 30 then some contracts else none
    | .custom _ => none
  | none => none

theorem of_contractsOf {runs : Table Uuid RunRow} (found : contractsOf runs = some contracts) :
    ∃ row, runs.find? 40 = some row ∧ row.target = .standard 30 contracts := by
  unfold contractsOf at found
  split at found
  case h_1 row present =>
    split at found
    case h_1 agentId frozen target =>
      split at found
      case isTrue same =>
        obtain rfl := Option.some.inj found
        exact ⟨row, present, same ▸ target⟩
      case isFalse => cases found
    case h_2 => cases found
  case h_2 => cases found

theorem namesUnique_of_nodup {tools : Table Uuid ToolDefinition}
    (distinct : ((tools.select fun _ _ => true).map fun entry => entry.2.name).Nodup) :
    NamesUnique tools := by
  intro first second firstTool secondTool isFirst isSecond _ same
  have firstListed := (Table.mem_select tools (fun _ _ => true) _ _).mpr ⟨isFirst, rfl⟩
  have secondListed := (Table.mem_select tools (fun _ _ => true) _ _).mpr ⟨isSecond, rfl⟩
  exact congrArg Prod.fst (List.inj_on_of_nodup_map distinct firstListed secondListed same)

/-- `advertised_tools_resolve` applies to a standard run that is shown its connector's tool. -/
theorem advertised_tools_resolve_reviewer :
    ∃ store, ∃ contracts : RunContracts, Snapshotted exampleHost (reviewerContext contracts.aliases).toolAliases ∧
      ∃ shown ∈ advertisedTools (reviewerContext contracts.aliases) connectorProfile
          (listTools store 7 101),
        shown.1 = py "github.repos.read" ∧ shown.1 ≠ shown.2.name ∧ ∃ toolId,
          store.toolNamed 7 ((reviewerContext contracts.aliases).governedToolName shown.1) =
            some (toolId, shown.2) := by
  obtain ⟨⟨store, runs⟩, created, checked⟩ := exists_ok_of_check reviewerRun
    (fun later : Run.Store × Table Uuid RunRow =>
      decide ((later.1.toolDefinitions.select fun _ _ => true).map
        fun entry : Uuid × ToolDefinition => entry.2.name).Nodup &&
      (contractsOf later.2).any fun contracts : RunContracts =>
        (advertisedTools (reviewerContext contracts.aliases) connectorProfile
          (listTools later.1 7 101)).any fun shown =>
            shown.1 = py "github.repos.read" && shown.1 ≠ shown.2.name) (by decide +kernel)
  rw [Bool.and_eq_true, decide_eq_true_eq] at checked
  obtain ⟨distinct, checked⟩ := checked
  obtain ⟨contracts, kept, checked⟩ := (Option.any_eq_true _ _).mp checked
  obtain ⟨shown, member, named⟩ := List.any_eq_true.mp checked
  simp only [Bool.and_eq_true, decide_eq_true_eq] at named
  obtain ⟨row, found, target⟩ := of_contractsOf kept
  have snapshot : Snapshotted exampleHost (reviewerContext contracts.aliases).toolAliases :=
    .standard ⟨installedTenant_loadable, _, _, _, _, _, _, _, _, _, _, row, created, rfl, found,
      target⟩ (List.Perm.refl _)
  obtain ⟨-, -, resolves, -⟩ := advertised_tools_resolve exampleHost store
    (reviewerContext contracts.aliases) connectorProfile (namesUnique_of_nodup distinct) snapshot
  exact ⟨store, contracts, snapshot, shown, member, named.1, named.2, resolves shown member⟩

end Nexora.Executor
