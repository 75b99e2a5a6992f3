import Nexora.Connector.Egress
import Nexora.Connector.Names

/-!
# The contracts a run freezes

A standard run keeps, for each tool its agent declares, the contract it was created with.
The contract is registered as a governed tool under a name made from its digest, so another
endpoint, connection, configuration or credential is another tool. Nothing removes a tool
that was registered for an earlier run.
-/

namespace Nexora.Connector

open Nexora.Std Nexora.Workspace Nexora.Catalog Nexora.Integration Nexora.Tenant Nexora.Tools Json

/-- What a deployment brings to the creation of a run. -/
structure Host where
  platform : Run.Platform
  deployment : Deployment
  browserConfigured : Bool

/-- The tools of a run as its snapshot keeps them, under the names its agent uses. -/
structure RunContracts where
  allowedTools : List String
  aliases : List (String × PyStr)
  connectorTools : List (String × ConnectorSpec)
  browser : Option String
  deriving DecidableEq

/-- A snapshot before any tool is looked at. -/
def RunContracts.empty : RunContracts := ⟨[], [], [], none⟩

/-- The lower-case digit of a value below sixteen. -/
def hexPoint (value : Fin 16) : Fin 0x110000 :=
  ⟨if value.val < 10 then 48 + value.val else 87 + value.val, by split <;> omega⟩

/-- `hexdigest()`: 64 digits. -/
def hexDigest (digest : Nat) : PyStr :=
  (List.range 64).map fun index => hexPoint (Fin.ofNat 16 (digest / 16 ^ (63 - index)))

/-- A UTF-16 unit as a JSON escape. -/
def escapeUnit (unit : Nat) : PyStr := py "\\u" ++ (hexDigest unit).drop 60

/-- One code point of a JSON text as the encoder writes it when it may only emit ASCII. -/
def asciiPoint (point : Fin 0x110000) : PyStr :=
  if point.val ≤ 0x7e then [point]
  else if point.val < 0x10000 then escapeUnit point.val
  else escapeUnit (0xd800 + (point.val - 0x10000) / 1024) ++
    escapeUnit (0xdc00 + (point.val - 0x10000) % 1024)

/-- The digest of a document, encoded with sorted keys and ASCII only. -/
def documentDigest (runtime : Runtime) (document : Json) : Nat :=
  runtime.sha256 ((dumps runtime document).flatMap asciiPoint)

/-- The name a frozen contract is registered under: 48 digits of its digest. -/
def internalName (runtime : Runtime) (serverKey : String) (document : Json) : PyStr :=
  py serverKey ++ py "." ++ (hexDigest (documentDigest runtime document)).take 48

/-- The text of a version. -/
def versionText (version : Version) : String :=
  toString version.major ++ "." ++ toString version.minor ++ "." ++ toString version.patch

/-- A text as a JSON value. -/
def text (value : String) : Json := .str (py value)

/-- A JSON object with the given members. -/
def document (members : List (String × Json)) : Json :=
  .object (members.map fun member => (py member.1, member.2))

/-- The schema of a text with bounds. -/
def textSchema (bounds : List (String × Int)) : Json :=
  document (("type", text "string") :: bounds.map fun bound => (bound.1, .int bound.2))

/-- The input schema of a tool with these properties. -/
def inputSchemaOf (properties : List (String × Json)) (required : List String) : Json :=
  document [("type", text "object"), ("properties", document properties),
    ("required", .array (required.map text)), ("additionalProperties", .bool false)]

/-- A contract to be frozen, with the tool it is registered as. -/
structure FrozenTool where
  name : PyStr
  contract : Run.ToolContract
  policy : Run.ToolPolicy
  comparesOutput : Bool
  collision : String
  disabled : String

/-- A stored tool has the contract that is being frozen. -/
def FrozenTool.isStoredAs (frozen : FrozenTool) (stored : Run.ToolDefinition) : Bool :=
  stored.serverKey = frozen.contract.serverKey && stored.remoteName = frozen.contract.remoteName &&
    stored.inputSchema.pyEq frozen.contract.inputSchema &&
    (!frozen.comparesOutput || (stored.outputSchema.getD .null).pyEq
      (frozen.contract.outputSchema.getD .null)) &&
    stored.sideEffect = frozen.contract.sideEffect

/-- `ON CONFLICT (workspace_id,name) DO NOTHING`, for a tool. -/
def insertTool (platform : Run.Platform) (tools : Run.Store) (workspaceId : Uuid)
    (frozen : FrozenTool) (toolId : Uuid) : Except Run.Raised Run.Store := do
  let inputSchema ← Run.storeJson platform frozen.contract.inputSchema
  let outputSchema ← frozen.contract.outputSchema.mapM (Run.storeJson platform)
  match tools.toolNamed workspaceId frozen.name with
  | some _ => pure tools
  | none => do
      let toolDefinitions ← orRaise (tools.toolDefinitions.insert? toolId {
        frozen.contract with
        inputSchema := inputSchema, outputSchema := outputSchema
        workspaceId := workspaceId, name := frozen.name, enabled := true }) .database
      pure { tools with toolDefinitions := toolDefinitions }

/-- `ON CONFLICT (workspace_id,tool_id) DO NOTHING`, for a policy. -/
def insertPolicy (tools : Run.Store) (workspaceId toolId : Uuid) (policy : Run.ToolPolicy) :
    Run.Store :=
  match tools.toolPolicies.find? (workspaceId, toolId) with
  | some _ => tools
  | none => { tools with toolPolicies := tools.toolPolicies.put (workspaceId, toolId) policy }

/-- Register a contract and its policy; a tool that is switched off is left out. -/
def register (platform : Run.Platform) (tools : Run.Store) (workspaceId : Uuid)
    (frozen : FrozenTool) (toolId : Uuid) : Except Run.Raised (Bool × Run.Store) := do
  let inserted ← insertTool platform tools workspaceId frozen toolId
  let stored ← orRaise (inserted.toolNamed workspaceId frozen.name)
    (.request (.http 409 (some frozen.collision)))
  raiseIf (frozen.isStoredAs stored.2 = false) (.request (.http 409 (some frozen.collision)))
  if stored.2.enabled then pure (true, insertPolicy inserted workspaceId stored.1 frozen.policy)
  else pure (false, inserted)

/-- The tasks tools. -/
def tasksTool (runtime : Runtime) (publicName : String) : FrozenTool :=
  let creates := publicName = "nexora.tasks.create"
  let inputSchema :=
    if creates then
      inputSchemaOf
        [("title", textSchema [("minLength", 1), ("maxLength", 300)]),
          ("description", textSchema [("maxLength", 2000)]),
          ("action_tool", textSchema [("minLength", 2), ("maxLength", 64)]),
          ("depends_on", document [("type", text "array"),
            ("items", textSchema [("minLength", 36), ("maxLength", 36)]), ("maxItems", .int 20)]),
          ("idempotency_key", textSchema [("minLength", 8), ("maxLength", 128)])]
        ["title", "idempotency_key"]
    else
      inputSchemaOf
        [("task_id", textSchema [("minLength", 36), ("maxLength", 36)]),
          ("verification_tool", textSchema [("minLength", 2), ("maxLength", 64)]),
          ("summary", textSchema [("minLength", 1), ("maxLength", 2000)]),
          ("satisfied", document [("type", text "boolean")]),
          ("idempotency_key", textSchema [("minLength", 8), ("maxLength", 128)])]
        ["task_id", "verification_tool", "summary", "satisfied", "idempotency_key"]
  { name := internalName runtime "tasks"
      (document [("public_name", text publicName), ("input_schema", inputSchema)])
    contract := {
      serverKey := "tasks", remoteName := if creates then "child.create" else "task.verify"
      inputSchema := inputSchema, outputSchema := none, sideEffect := .write }
    policy := ⟨.allow, py "Internal run task metadata only"⟩
    comparesOutput := false
    collision := "Task tool contract collision"
    disabled := "Required task capability is disabled" }

/-- The browser tools, for a site. -/
def browserTool (runtime : Runtime) (publicName allowedOrigin : String) : FrozenTool :=
  let acts := publicName = "browser.page.action"
  let path := ("path", textSchema [("minLength", 1), ("maxLength", 1000)])
  let inputSchema :=
    if acts then
      inputSchemaOf
        [path, ("action", document [("type", text "string"),
            ("enum", .array [text "click", text "fill"])]),
          ("selector", textSchema [("minLength", 1), ("maxLength", 500)]),
          ("value", textSchema [("maxLength", 4000)]),
          ("idempotency_key", textSchema [("minLength", 8), ("maxLength", 128)])]
        ["path", "action", "selector", "idempotency_key"]
    else inputSchemaOf [path] ["path"]
  { name := internalName runtime "browser"
      (document [("public_name", text publicName), ("allowed_origin", text allowedOrigin),
        ("input_schema", inputSchema)])
    contract := {
      serverKey := "browser", remoteName := if acts then "page.action" else "page.inspect"
      inputSchema := inputSchema, outputSchema := none
      sideEffect := if acts then .write else .read }
    policy :=
      if acts then ⟨.requireApproval, py "Browser UI mutation requires human approval"⟩
      else ⟨.allow, py "Run-scoped allowlisted browser inspection"⟩
    comparesOutput := false
    collision := "Browser tool contract collision"
    disabled := "Required browser capability is disabled" }

/-- `endpoint.model_dump(mode="json")`. -/
def endpointDocument (endpoint : ConnectorEndpoint) : Json :=
  document
    [("capability", text endpoint.capability),
      ("method", text (match endpoint.method with
        | .get => "GET" | .post => "POST" | .put => "PUT" | .patch => "PATCH"
        | .delete => "DELETE")),
      ("path", text endpoint.path), ("description", text endpoint.description),
      ("side_effect", text endpoint.sideEffect.text),
      ("retry", text (match endpoint.retry with
        | .safe => "safe" | .idempotent => "idempotent" | .never => "never")),
      ("input_schema", endpoint.inputSchema), ("output_schema", endpoint.outputSchema.getD .null)]

/-- What a run's snapshot keeps of a connector tool, from the connection as it stands. -/
def frozenSpec (runtime : Runtime) (integrationKey capability : String) (integrationId : Uuid)
    (row : IntegrationRow) (definition : ConnectorManifest) : ConnectorSpec where
  bindingKey := some integrationKey
  tenantIntegrationId := some integrationId.text
  definitionId := some definition.id
  capability := some capability
  configFingerprint := some (configFingerprint runtime row.config)
  credentialReference := some (if row.authType = .oauth2 then none
    else row.credentialReference.map Uuid.text)
  definition := some (.ok definition)

/-- The tool of a connector contract. -/
def connectorTool (runtime : Runtime) (publicName capability : String) (integrationId : Uuid)
    (definition : ConnectorManifest) (endpoint : ConnectorEndpoint) (spec : ConnectorSpec) :
    FrozenTool where
  name := internalName runtime connectorServerKey (document
    [("public_name", text publicName), ("definition_id", text definition.id),
      ("definition_version", text (versionText definition.version)), ("endpoint", endpointDocument endpoint),
      ("tenant_integration_id", text integrationId.text),
      ("config_fingerprint", .str (hexDigest (spec.configFingerprint.getD 0))),
      ("credential_reference",
        ((spec.credentialReference.getD none).map text).getD .null)])
  contract := {
    serverKey := connectorServerKey, remoteName := remoteName integrationId capability
    inputSchema := endpoint.inputSchema, outputSchema := endpoint.outputSchema
    sideEffect := endpoint.sideEffect }
  policy :=
    if endpoint.sideEffect = .read then ⟨.allow, py "Standard connector read capability"⟩
    else ⟨.requireApproval, py "Standard connector side effect requires approval"⟩
  comparesOutput := true
  collision := "Connector tool contract collision"
  disabled := "Required tool is disabled: " ++ publicName

/-- What a run's creation reads: the agent's instance and its manifest. -/
structure Drafting where
  tenant : Tenant.Store
  workspaceId : Uuid
  agentId : Uuid
  manifest : AgentManifest
  settings : Json

namespace Drafting

variable (drafting : Drafting)

/-- The connection a key of the instance is bound to, with its status. -/
def bindingOf (key : String) : Option (Uuid × IntegrationStatus) := do
  let binding ← drafting.tenant.bindings.find? (drafting.agentId, key)
  guard (binding.workspaceId = drafting.workspaceId)
  let row ← drafting.tenant.integrations.find? binding.tenantIntegrationId
  pure (binding.tenantIntegrationId, row.status)

/-- A tool that cannot be offered is left out, unless the agent requires it. -/
def unavailable (publicName detail : String) (drafted : Run.Store × RunContracts) :
    Except Run.Raised (Run.Store × RunContracts) :=
  if publicName ∈ drafting.manifest.requiredTools then .error (.request (.http 409 (some detail)))
  else pure drafted

/-- Register a contract and offer its tool to the run. -/
def freeze (host : Host) (publicName : String) (frozen : FrozenTool) (toolId : Uuid)
    (drafted : Run.Store × RunContracts) (change : RunContracts → RunContracts) :
    Except Run.Raised (Run.Store × RunContracts) := do
  let registered ← register host.platform drafted.1 drafting.workspaceId frozen toolId
  if registered.1 then
    pure (registered.2, change { drafted.2 with
      allowedTools := drafted.2.allowedTools ++ [publicName]
      aliases := drafted.2.aliases ++ [(publicName, frozen.name)] })
  else drafting.unavailable publicName frozen.disabled (registered.2, drafted.2)

/-- The contract of a connector tool as it stands, or why there is none. -/
def connectorContract (runtime : Runtime) (publicName integrationKey capability : String) :
    Except String (ConnectorSpec × FrozenTool) := do
  let binding ← orRaise ((drafting.bindingOf integrationKey).filter fun binding =>
      binding.2 = .connected) ("Required tool is not connected: " ++ publicName)
  let row ← orRaise ((drafting.tenant.integrations.find? binding.1).filter fun row =>
      row.workspaceId = drafting.workspaceId ∧ row.integrationDefinitionId = integrationKey ∧
        row.status = .connected) ("Required tool is unavailable: " ++ publicName)
  let definition ← orRaise (drafting.tenant.definitions.find? row.integrationDefinitionId)
    ("Required tool is unavailable: " ++ publicName)
  let endpoint ← orRaise (definition.endpointFor capability)
    ("Required connector capability is not executable: " ++ publicName)
  let spec := frozenSpec runtime integrationKey capability binding.1 row definition
  pure (spec, connectorTool runtime publicName capability binding.1 definition endpoint spec)

/-- The site an instance's browser tools may open. -/
def siteUrl (host : Host) : Option String :=
  match drafting.settings.get? (py "site_url") with
  | some (.str site) =>
    if host.browserConfigured then
      some (String.ofList (site.map fun point => Char.ofNat point.val))
    else none
  | _ => none

/-- The browser tools of an instance. -/
def freezeBrowser (host : Host) (publicName : String) (toolId : Uuid)
    (drafted : Run.Store × RunContracts) : Except Run.Raised (Run.Store × RunContracts) :=
  match drafting.siteUrl host with
  | none =>
    drafting.unavailable publicName "Required browser capability is unavailable" drafted
  | some site => do
      let parsed ← (host.deployment.library.urlsplit site).mapError fun error =>
        .request (.valueError error)
      if parsed.scheme ≠ "https" ∨ parsed.hostname.getD "" = "" ∨ parsed.username.getD "" ≠ "" ∨
          parsed.password.getD "" ≠ "" then
        drafting.unavailable publicName "Browser site_url must be a public HTTPS site" drafted
      else
        let origin := parsed.scheme ++ "://" ++ parsed.netloc
        drafting.freeze host publicName (browserTool host.platform.runtime publicName origin)
          toolId drafted fun contracts => { contracts with browser := some origin }

/-- The parts of a name before and after its first dot. -/
def partitionDot (name : String) : Option (String × String) :=
  match name.toList.dropWhile (· ≠ '.') with
  | [] => none
  | _ :: rest => some (String.ofList (name.toList.takeWhile (· ≠ '.')), String.ofList rest)

/-- One tool of the agent's manifest. -/
def freezeTool (host : Host) (publicName : String) (toolId : Uuid)
    (drafted : Run.Store × RunContracts) : Except Run.Raised (Run.Store × RunContracts) :=
  if publicName ∈ ["nexora.tasks.create", "nexora.tasks.verify"] then
    drafting.freeze host publicName (tasksTool host.platform.runtime publicName) toolId drafted id
  else if publicName ∈ ["browser.page.inspect", "browser.page.action"] then
    drafting.freezeBrowser host publicName toolId drafted
  else
    let plain := (drafted.1,
      { drafted.2 with allowedTools := drafted.2.allowedTools ++ [publicName] })
    match partitionDot publicName with
    | none => pure plain
    | some (integrationKey, capability) =>
      if integrationKey ∉ drafting.manifest.integrations.map Prod.fst then pure plain
      else
        match drafting.connectorContract host.platform.runtime publicName integrationKey
            capability with
        | .error detail => drafting.unavailable publicName detail drafted
        | .ok (spec, tool) =>
          drafting.freeze host publicName tool toolId drafted fun contracts =>
            { contracts with
              connectorTools := contracts.connectorTools ++ [(publicName, spec)] }

/-- `_connector_run_contracts`: the tools with the new registrations, and the contracts. -/
def connectorRunContracts (host : Host) (tools : Run.Store) (toolIds : Nat → Uuid) :
    Except Run.Raised (Run.Store × RunContracts) :=
  (drafting.manifest.requiredTools ++ drafting.manifest.optionalTools).zipIdx.foldlM
    (fun drafted entry => drafting.freezeTool host entry.1 (toolIds entry.2) drafted)
    (tools, .empty)

end Drafting

/-- The agent a run executes. A standard run keeps the contracts it was created with. -/
inductive RunTarget where
  | custom (agentId : Uuid)
  | standard (agentId : Uuid) (contracts : RunContracts)
  deriving DecidableEq

/-- The run is of a custom agent. -/
def RunTarget.isCustom : RunTarget → Bool
  | .custom _ => true
  | .standard _ _ => false

/-- The part of a row of `agent_runs` that its creation and its tool calls read. -/
structure RunRow where
  workspaceId : Uuid
  target : RunTarget
  requestedBy : Principal
  requestHash : Nat
  idempotencyKey : String
  deriving DecidableEq

/-- The run a caller has already created under an idempotency key. -/
def existingRun (runs : Table Uuid RunRow) (principal : Principal) (workspaceId : Uuid)
    (idempotencyKey : String) : Option (Uuid × RunRow) :=
  runs.first? fun _ run => run.workspaceId = workspaceId && run.requestedBy = principal &&
    run.idempotencyKey = idempotencyKey

/-- The digest a request for a run is known by. -/
def requestHash (runtime : Runtime) (agentKey : String) (agentId : Uuid) (input : PyStr) : Nat :=
  documentDigest runtime (document [(agentKey, text agentId.text), ("input", .str input)])

/-- `AgentRepository.create_run`, for an agent the workspace has defined. -/
def createCustomRun (runtime : Runtime) (memberships : Memberships) (runs : Table Uuid RunRow)
    (principal : Principal) (workspaceId agentId : Uuid) (input : PyStr) (idempotencyKey : String)
    (runId : Uuid) : Except Run.Raised (Table Uuid RunRow) := do
  Run.ofRequest (scopedMember memberships principal workspaceId .runAgents)
  let digest := requestHash runtime "agent_id" agentId input
  match existingRun runs principal workspaceId idempotencyKey with
  | some (_, existing) => do
      raiseIf (existing.requestHash ≠ digest) (.request (.http 409 none))
      pure runs
  | none =>
    orRaise (runs.insert? runId
      { workspaceId := workspaceId, target := .custom agentId, requestedBy := principal
        requestHash := digest, idempotencyKey := idempotencyKey }) .database

/-- `TenantAgentRepository.create_run`. The contracts are registered before an earlier run of
the same key is looked for. -/
def createStandardRun (host : Host) (tenant : Tenant.Store) (tools : Run.Store)
    (runs : Table Uuid RunRow) (principal : Principal) (workspaceId agentId : Uuid)
    (input : PyStr) (idempotencyKey : String) (runId : Uuid) (toolIds : Nat → Uuid) :
    Except Run.Raised (Run.Store × Table Uuid RunRow) := do
  Run.ofRequest (scopedMember tenant.memberships principal workspaceId .runAgents)
  let row ← Run.ofRequest (instanceRow tenant workspaceId agentId)
  let manifest ← Run.ofRequest (Tenant.manifest tenant row.versionId)
  raiseIf (row.standing ≠ .active ∨
      readiness manifest (boundStatus tenant workspaceId agentId) = false)
    (.request (.http 409 (some "This standard agent is not ready to run")))
  let drafted ← Drafting.connectorRunContracts ⟨tenant, workspaceId, agentId, manifest,
    row.settings⟩ host tools toolIds
  let digest := requestHash host.platform.runtime "tenant_agent_id" agentId input
  match existingRun runs principal workspaceId idempotencyKey with
  | some (_, existing) => do
      raiseIf (existing.requestHash ≠ digest) (.request (.http 409 none))
      raiseIf (existing.target.isCustom = true) (.request (.http 409 none))
      pure (drafted.1, runs)
  | none => do
      let created ← orRaise (runs.insert? runId
        { workspaceId := workspaceId, target := .standard agentId drafted.2
          requestedBy := principal, requestHash := digest, idempotencyKey := idempotencyKey })
        .database
      pure (drafted.1, created)

end Nexora.Connector
