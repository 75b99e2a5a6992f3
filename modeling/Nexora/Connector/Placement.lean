import Nexora.Connector.Arguments

/-!
# Where a request carries its credential

The credential of a request stands under the name of its placement among the headers, in the
query, or as the basic credential of the client. The headers and the query are merged with what
the call adds: an argument in the query under the name of the placement takes the place of the
credential, and so does the idempotency key or the accepted media type under the name of their
headers, or they stand beside it if the name is written in another case.
-/

namespace Nexora.Connector

open Nexora.Std Nexora.Integration Nexora.Tools Json

/-- A header's name without regard to case. -/
def headerName (name : String) : List Char := name.toList.map Char.toLower

/-- The values of a request's headers of some name. -/
def HttpRequest.headersNamed (request : HttpRequest) (name : String) : List PyStr :=
  (request.headers.filter fun header => headerName header.1 = headerName name).map Prod.snd

/-- The values of a request's query parameters of some name. -/
def HttpRequest.paramsNamed (request : HttpRequest) (name : String) : List Json :=
  (request.params.filter fun param => param.1 = py name).map Prod.snd

/-- A request carries a credential's secret exactly where the placement declares. -/
def Carries (placement : CredentialPlacement) (credential : Dict String) (request : HttpRequest) :
    Prop :=
  ∃ secret, filled credential placement.valueField = some secret ∧
    match placement.kind with
    | .bearerHeader =>
      request.headersNamed "Authorization" = [py ("Bearer " ++ secret)] ∧ request.basic = none
    | .header => ∃ name, placement.header = some name ∧
        request.headersNamed name = [py secret] ∧ request.basic = none
    | .query => ∃ name, placement.queryParameter = some name ∧
        request.paramsNamed name = [.str (py secret)] ∧ request.basic = none
    | .basic => ∃ field user, placement.usernameField = some field ∧
        filled credential field = some user ∧ request.basic = some (user, secret) ∧
        request.headersNamed "Authorization" = []

/-- The idempotency key a call sends. -/
def SendsKey (endpoint : ConnectorEndpoint) (config arguments : List (PyStr × Json))
    (key : PyStr) : Prop :=
  givenKey endpoint config arguments = some (.str key) ∧ key ≠ []

/-- Nothing else of a request has the name of the placement, or it has the secret's own value:
a header is named neither like the accepted media type nor like an idempotency key that is sent,
and no argument that goes into the query is named like the parameter. -/
def Unshadowed (placement : CredentialPlacement) (credential : Dict String)
    (endpoint : ConnectorEndpoint) (config arguments : List (PyStr × Json)) : Prop :=
  match placement.kind with
  | .bearerHeader | .basic => True
  | .header => ∀ name ∈ placement.header, ∀ secret ∈ filled credential placement.valueField,
      (headerName name = headerName "Accept" → name = "Accept" ∧ secret = "application/json") ∧
        ∀ key, SendsKey endpoint config arguments key →
          headerName name = headerName "Idempotency-Key" →
            name = "Idempotency-Key" ∧ py secret = key
  | .query => ∀ name ∈ placement.queryParameter, ∀ secret ∈ filled credential placement.valueField,
      endpoint.method ∈ [.get, .delete] → ∀ value,
        lookup (py name) (unplaced endpoint config arguments) = some value →
          value = .str (py secret)

/-- One entry that is overridden keeps its place. -/
theorem merged_singleton {Key Value : Type} [DecidableEq Key] (key : Key) (value : Value)
    (right : List (Key × Value)) :
    merged [(key, value)] right =
      (key, ((right.find? fun other => other.1 = key).map Prod.snd).getD value) ::
        right.filter fun entry => entry.1 ≠ key := by
  cases found : right.find? fun other => other.1 = key <;> simp [merged, found]

/-- The headers a call adds to those of its credential. -/
def ownHeaders (parts : RequestParts) : List (String × PyStr) :=
  parts.sentKey.toList.map fun key => ("Idempotency-Key", key)

/-- A request that is built has the endpoint of its capability, the parts of its arguments and
the authorization of its placement. -/
structure Assembled (definition : ConnectorManifest) (credential : Dict String)
    (endpoint : ConnectorEndpoint) (config arguments : List (PyStr × Json))
    (authorization : Authorization) (parts : RequestParts) (request : HttpRequest) : Prop where
  authorized : authorize definition credential = .ok authorization
  built : requestPartsFrom endpoint config arguments = .ok parts
  headers : request.headers =
    merged (merged (Authorization.headerEntries authorization) (ownHeaders parts))
      [("Accept", py "application/json")]
  params : request.params = merged (Authorization.paramEntries authorization) parts.params
  basic : request.basic = authorization.basic

variable {endpoint : ConnectorEndpoint} {config arguments : List (PyStr × Json)}
  {parts : RequestParts} {definition : ConnectorManifest} {name : String} {library : Library}
  {value : PyStr}

theorem buildRequest_assembled {capability : String} {credential config : Dict String}
    {request : HttpRequest}
    (built : buildRequest library definition capability credential config arguments = .ok request)
    (declared : definition.endpointFor capability = some endpoint) :
    ∃ authorization parts, Assembled definition credential endpoint (textMembers config) arguments
      authorization parts request := by
  simp only [buildRequest, bind_eq_ok, pure_eq_ok, orRaise_eq_ok, mapError_eq_ok] at built
  obtain ⟨other, isEndpoint, base, -, authorization, authorized, parts, isParts, rfl⟩ := built
  rw [declared] at isEndpoint
  cases isEndpoint
  rw [requestParts_eq] at isParts
  exact ⟨authorization, parts, authorized, isParts, rfl, rfl, rfl⟩

/-- The key of the parts is the one that the arguments give. -/
theorem sentKey_eq_some (built : requestPartsFrom endpoint config arguments = .ok parts)
    (key : PyStr) :
    parts.sentKey = some key ↔ SendsKey endpoint config arguments key := by
  obtain ⟨left, -, given, isGiven, rfl⟩ := (requestPartsFrom_eq_ok ..).mp built
  have isKey : ∀ parts : RequestParts, parts = (if endpoint.method ∈ [.get, .delete] then
        ⟨String.ofList left.1, unplaced endpoint config arguments, none, given⟩
      else ⟨String.ofList left.1, [], some (unplaced endpoint config arguments), given⟩) →
      parts.idempotencyKey = given := by
    rintro parts rfl
    split <;> rfl
  rw [RequestParts.sentKey, isKey _ rfl, SendsKey, Option.filter_eq_some_iff, decide_eq_true_eq]
  apply and_congr_left
  intro _
  cases given with
  | none =>
    cases found : givenKey endpoint config arguments with
    | none => simp
    | some value =>
      rw [found] at isGiven
      simp only [Option.getD_some, Option.map_none, Option.getD_none] at isGiven
      simp [isGiven]
  | some text =>
    cases found : givenKey endpoint config arguments with
    | none =>
      rw [found] at isGiven
      cases isGiven
    | some value =>
      rw [found] at isGiven
      simp only [Option.getD_some, Option.map_some] at isGiven
      simp [isGiven]

/-- What goes into the query of a request. -/
theorem params_eq (built : requestPartsFrom endpoint config arguments = .ok parts) :
    parts.params =
      if endpoint.method ∈ [.get, .delete] then unplaced endpoint config arguments else [] := by
  obtain ⟨left, -, key, -, rfl⟩ := (requestPartsFrom_eq_ok ..).mp built
  split <;> rfl

/-! ## The headers of a request -/

/-- Headers with the accepted media type. -/
def withAccept (headers : List (String × PyStr)) : List (String × PyStr) :=
  merged headers [("Accept", py "application/json")]

/-- The headers of some name. -/
def named (headers : List (String × PyStr)) (name : String) : List PyStr :=
  (headers.filter fun header => headerName header.1 = headerName name).map Prod.snd

theorem names_apart : headerName "Idempotency-Key" ≠ headerName "Accept" ∧
    headerName "Idempotency-Key" ≠ headerName "Authorization" ∧
    headerName "Accept" ≠ headerName "Authorization" := by
  decide +kernel

/-- A header that the call adds none like stands alone. -/
theorem named_of_apart (value : PyStr) (own : Option PyStr)
    (accept : headerName name ≠ headerName "Accept")
    (key : own.isSome → headerName name ≠ headerName "Idempotency-Key") :
    named (withAccept (merged [(name, value)]
      (own.toList.map fun key => ("Idempotency-Key", key)))) name = [value] := by
  have notAccept : "Accept" ≠ name := fun same => accept (same ▸ rfl)
  cases own with
  | none => simp [named, withAccept, merged_singleton, notAccept, Ne.symm accept]
  | some text =>
    have apart := key rfl
    have notKey : "Idempotency-Key" ≠ name := fun same => apart (same ▸ rfl)
    simp [named, withAccept, merged, notAccept, notKey, Ne.symm accept, Ne.symm apart]

/-- A header named like the accepted media type stands for it, or beside it. -/
theorem named_accept {own : Option PyStr} (accept : headerName name = headerName "Accept") :
    named (withAccept (merged [(name, value)]
      (own.toList.map fun key => ("Idempotency-Key", key)))) name =
      if name = "Accept" then [py "application/json"] else [value, py "application/json"] := by
  have apart := names_apart.1
  have notKey : "Idempotency-Key" ≠ name := by
    rintro rfl
    exact apart accept
  by_cases same : name = "Accept"
  · subst same
    cases own <;> simp [named, withAccept, merged, apart]
  · cases own <;> simp [named, withAccept, merged, accept, apart, same, Ne.symm same, notKey]

/-- A header named like the idempotency key stands for it, or beside it. -/
theorem named_key {text : PyStr} (key : headerName name = headerName "Idempotency-Key") :
    named (withAccept (merged [(name, value)] [("Idempotency-Key", text)])) name =
      if name = "Idempotency-Key" then [text] else [value, text] := by
  have apart := names_apart.1
  have notAccept : "Accept" ≠ name := by
    rintro rfl
    exact apart key.symm
  by_cases same : name = "Idempotency-Key"
  · subst same
    simp [named, withAccept, merged, Ne.symm apart]
  · simp [named, withAccept, merged, key, Ne.symm apart, same, Ne.symm same, notAccept]

theorem lookup_eq_find? (key : PyStr) (members : List (PyStr × Json)) :
    (members.find? fun member => member.1 = key).map Prod.snd = lookup key members := by
  induction members with
  | nil => rfl
  | cons member rest ih =>
    rw [List.find?_cons, lookup]
    by_cases same : member.1 = key
    · simp [same]
    · simpa [same] using ih

/-- The placement of an accepted definition names what its kind needs. -/
theorem placement_of_validate {runtime : Runtime}
    (accepted : definition.validate library runtime = .ok ()) {placement : CredentialPlacement}
    (placed : definition.credentialPlacement = some placement) :
    (placement.kind = .header → ∃ name, placement.header = some name) ∧
      (placement.kind = .query → ∃ name, placement.queryParameter = some name) ∧
      (placement.kind = .basic → ∃ field, placement.usernameField = some field) := by
  have stated {text : Option String} (filled : ¬ text.getD "" = "") : ∃ name, text = some name := by
    cases text with
    | none => exact absurd rfl filled
    | some name => exact ⟨name, rfl⟩
  obtain ⟨-, -, -, checked, -, -⟩ := validate_eq_ok.mp accepted
  rw [placed, Option.toList_some] at checked
  change (placement.validate >>= fun _ => pure ()) = .ok _ at checked
  obtain ⟨_, checked, -⟩ := (bind_eq_ok _ _ _).mp checked
  simp only [CredentialPlacement.validate, bind_eq_ok, raiseIf_eq_ok, not_and] at checked
  obtain ⟨_, -, _, header, _, query, basic⟩ := checked
  exact ⟨fun kind => stated (header kind), fun kind => stated (query kind),
    fun kind => stated (basic kind)⟩

/-- A header carries a secret alone unless it is named like the accepted media type or like an
idempotency key that is sent. -/
theorem header_carried_iff (built : requestPartsFrom endpoint config arguments = .ok parts)
    (name secret : String) :
    named (withAccept (merged [(name, py secret)]
        (parts.sentKey.toList.map fun key => ("Idempotency-Key", key)))) name = [py secret] ↔
      (headerName name = headerName "Accept" → name = "Accept" ∧ secret = "application/json") ∧
        ∀ key, SendsKey endpoint config arguments key →
          headerName name = headerName "Idempotency-Key" →
            name = "Idempotency-Key" ∧ py secret = key := by
  have apart := names_apart.1
  simp only [← sentKey_eq_some built]
  by_cases accept : headerName name = headerName "Accept"
  · have notKey : headerName name ≠ headerName "Idempotency-Key" := by
      intro same
      exact apart (same.symm.trans accept)
    rw [named_accept accept]
    by_cases same : name = "Accept"
    · simp [same, Ne.symm apart, py_injective.eq_iff, eq_comm (a := "application/json")]
    · simp [same, accept]
  · by_cases key : headerName name = headerName "Idempotency-Key"
    · cases sent : parts.sentKey with
      | none =>
        have alone := named_of_apart (py secret) none accept (by simp)
        simp only [alone, accept, false_implies, true_and]
        simp
      | some text =>
        simp only [Option.toList_some, List.map_cons, List.map_nil, named_key key]
        by_cases same : name = "Idempotency-Key"
        · simp [same, apart, eq_comm (a := text)]
        · simp [same, key]
    · have alone := named_of_apart (py secret) parts.sentKey accept fun _ => key
      simp [alone, accept, key]

/-- A request carries its credential exactly where the placement declares if and only if nothing
else of it has the name of the placement. -/
theorem credential_carried_iff {library : Library} {runtime : Runtime}
    {definition : ConnectorManifest} {capability : String} {credential config : Dict String}
    {arguments : List (PyStr × Json)} {request : HttpRequest}
    (accepted : definition.validate library runtime = .ok ())
    (built : buildRequest library definition capability credential config arguments = .ok request)
    {placement : CredentialPlacement} (placed : definition.credentialPlacement = some placement)
    {endpoint : ConnectorEndpoint} (declared : definition.endpointFor capability = some endpoint) :
    Carries placement credential request ↔
      Unshadowed placement credential endpoint (textMembers config) arguments := by
  obtain ⟨authorization, parts, assembled⟩ := buildRequest_assembled built declared
  obtain ⟨headerNamed, queryNamed, userNamed⟩ := placement_of_validate accepted placed
  have authorized := assembled.authorized
  simp only [authorize, placed, bind_eq_ok, orRaise_eq_ok, Option.some.injEq, exists_eq_left']
    at authorized
  obtain ⟨secret, isSecret, authorized⟩ := authorized
  have headers (name : String) : request.headersNamed name =
      named (withAccept (merged (Authorization.headerEntries authorization)
        (parts.sentKey.toList.map fun key => ("Idempotency-Key", key)))) name := by
    rw [HttpRequest.headersNamed, assembled.headers]
    rfl
  have basic := assembled.basic
  unfold Carries Unshadowed
  simp only [isSecret, Option.some.injEq, exists_eq_left', headers, basic, Option.mem_some,
    forall_eq']
  cases kind : placement.kind with
  | bearerHeader =>
    rw [kind] at authorized
    obtain rfl := (pure_eq_ok _ _).mp authorized
    have alone := named_of_apart (py ("Bearer " ++ secret)) parts.sentKey
      (Ne.symm names_apart.2.2) fun _ => Ne.symm names_apart.2.1
    simp only [Authorization.headerEntries, List.map_cons, List.map_nil, alone, and_self]
  | header =>
    rw [kind] at authorized
    obtain rfl := (pure_eq_ok _ _).mp authorized
    obtain ⟨name, isName⟩ := headerNamed kind
    simp only [isName, Option.getD_some, Authorization.headerEntries, List.map_cons,
      List.map_nil, Option.some.injEq, exists_eq_left', and_true, Option.mem_some, forall_eq']
    exact header_carried_iff assembled.built name secret
  | query =>
    rw [kind] at authorized
    obtain rfl := (pure_eq_ok _ _).mp authorized
    obtain ⟨name, isName⟩ := queryNamed kind
    simp only [isName, Option.some.injEq, exists_eq_left', and_true, Option.mem_some, forall_eq',
      HttpRequest.paramsNamed, assembled.params, Authorization.paramEntries, Option.getD_some,
      List.map_cons, List.map_nil, merged_singleton, lookup_eq_find?, params_eq assembled.built]
    have others (members : List (PyStr × Json)) : (members.filter fun entry =>
        entry.1 ≠ py name).filter (fun other => other.1 = py name) = [] := by
      rw [List.filter_filter, List.filter_eq_nil_iff]
      simp
    rw [List.filter_cons_of_pos (by simp), others, List.map_cons, List.map_nil]
    by_cases reads : endpoint.method ∈ [.get, .delete]
    · rw [if_pos reads]
      cases lookup (py name) (unplaced endpoint (textMembers config) arguments) with
      | none => simp
      | some value => simp [reads]
    · simp [reads, lookup]
  | basic =>
    rw [kind] at authorized
    obtain ⟨field, isField⟩ := userNamed kind
    simp only [isField, Option.getD_some, bind_eq_ok, orRaise_eq_ok, pure_eq_ok] at authorized
    obtain ⟨user, isUser, rfl⟩ := authorized
    have noHeader : named (withAccept (merged []
        (parts.sentKey.toList.map fun key => ("Idempotency-Key", key)))) "Authorization" = [] := by
      have apart := names_apart.2
      cases parts.sentKey <;> simp [named, withAccept, merged, apart.1, apart.2]
    simp [isField, isUser, Authorization.headerEntries, noHeader]

/-- A key that goes into the query. -/
def keyPlacement : CredentialPlacement where
  kind := .query
  valueField := "access_token"
  usernameField := none
  header := none
  queryParameter := some "key"

/-- Items of a catalogue, by the page or by their key. -/
def itemsEndpoint : ConnectorEndpoint where
  capability := "items.list"
  method := .get
  path := "/items"
  description := "Items of the catalogue"
  sideEffect := .read
  retry := .safe
  inputSchema := .object
    [(py "type", .str (py "object")),
     (py "properties", .object
       [(py "key", .object [(py "type", .str (py "string"))]),
        (py "page", .object [(py "type", .str (py "integer"))])]),
     (py "required", .array []),
     (py "additionalProperties", .bool false)]
  outputSchema := none

/-- A catalogue whose reads carry their key in the query, and take a filter beside it. -/
def keyedCatalogue : ConnectorManifest :=
  { customRest with
    id := "keyed-catalogue"
    capabilities := ["items.list"]
    testCapability := some "items.list"
    credentialPlacement := some keyPlacement
    endpoints := [itemsEndpoint] }

/-- What a tenant of the catalogue has filled in. -/
def catalogueCredential : Dict String :=
  ⟨[("base_url", "https://example.com"), ("access_token", "token")], by decide⟩

/-- The part of it that is no secret. -/
def catalogueConfig : Dict String :=
  ⟨[("base_url", "https://example.com")], List.nodup_singleton "base_url"⟩

/-- A list of the catalogue's items. -/
def itemsRequest (params : List (PyStr × Json)) : HttpRequest where
  method := .get
  url := "https://example.com/items"
  headers := [("Accept", py "application/json")]
  params := params
  basic := none
  body := none

theorem keyedCatalogue_valid :
    keyedCatalogue.validate exampleLibrary exampleRuntime = .ok () :=
  validate_eq_ok.mpr ⟨by decide +kernel, by decide +kernel, rfl, by decide +kernel,
    by decide +kernel, by decide +kernel⟩

/-- The second page of the catalogue is asked for with the tenant's key. -/
theorem credential_carried_iff_page :
    Carries keyPlacement catalogueCredential
      (itemsRequest [(py "key", .str (py "token")), (py "page", .int 2)]) := by
  have built : buildRequest exampleLibrary keyedCatalogue "items.list" catalogueCredential
      catalogueConfig [(py "page", .int 2)] =
        .ok (itemsRequest [(py "key", .str (py "token")), (py "page", .int 2)]) := by
    decide +kernel
  have declared : keyedCatalogue.endpointFor "items.list" = some itemsEndpoint := by
    decide +kernel
  refine (credential_carried_iff keyedCatalogue_valid built rfl declared).mpr ?_
  intro name isName secret _ _ value found
  obtain rfl := Option.mem_some.mp isName
  have absent : lookup (py "key")
      (unplaced itemsEndpoint (textMembers catalogueConfig) [(py "page", .int 2)]) = none := by
    decide +kernel
  rw [absent] at found
  cases found

/-- An argument named like the key takes its place. -/
theorem argument_replaces_credential :
    ¬ ∀ (library : Library) (runtime : Runtime) (definition : ConnectorManifest)
        (capability : String) (credential config : Dict String) (arguments : List (PyStr × Json))
        (request : HttpRequest) (placement : CredentialPlacement),
        definition.validate library runtime = .ok () →
        buildRequest library definition capability credential config arguments = .ok request →
        definition.credentialPlacement = some placement →
        Carries placement credential request := by
  intro always
  have built : buildRequest exampleLibrary keyedCatalogue "items.list" catalogueCredential
      catalogueConfig [(py "key", .str (py "x"))] =
        .ok (itemsRequest [(py "key", .str (py "x"))]) := by
    decide +kernel
  obtain ⟨secret, isSecret, name, isName, carried, -⟩ := always exampleLibrary exampleRuntime
    keyedCatalogue "items.list" catalogueCredential catalogueConfig _ _ keyPlacement
    keyedCatalogue_valid built rfl
  have token : filled catalogueCredential keyPlacement.valueField = some "token" := by
    decide +kernel
  rw [token] at isSecret
  cases isSecret
  cases isName
  have shown : (itemsRequest [(py "key", .str (py "x"))]).paramsNamed "key" =
      [.str (py "x")] := by decide +kernel
  rw [shown] at carried
  exact absurd carried (by decide +kernel)

end Nexora.Connector
