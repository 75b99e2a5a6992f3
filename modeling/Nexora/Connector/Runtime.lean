import Nexora.Tenant.Integrations

/-!
# The connector runtime

One capability call as an outbound request: the base URL the definition states or the
tenant declared, the path with its placeholders filled in, the credential where the
placement puts it, and a host that resolves to the public internet. What the network
answers is an argument. A call ends with a result, with an error the runtime names, or with
any other exception, such as the deadline of whoever awaits it.
-/

namespace Nexora.Connector

open Nexora.Std Nexora.Integration Nexora.Tenant Json

/-- What leaves a call instead of a result. -/
inductive Leaving where
  | refused (error : ConnectorError)
  | raised
  deriving DecidableEq

/-- An outbound request. -/
structure HttpRequest where
  method : Method
  url : String
  headers : List (String × PyStr)
  params : List (PyStr × Json)
  basic : Option (String × String)
  body : Option (List (PyStr × Json))
  deriving DecidableEq

/-- What `getaddrinfo` answers. -/
inductive Resolution where
  | records (addresses : List String)
  | gaierror
  | raised

/-- What sending a request comes to. -/
inductive Reply where
  | response (status : Nat) (body : Option String)
  | timeout
  | httpError
  | raised

/-- The network during one call. -/
structure Network where
  getaddrinfo : String → Nat → Resolution
  request : HttpRequest → Reply

/-- What a capability call produced. -/
structure ConnectorAnswer extends ConnectorResult where
  body : Option String

/-- Longest response body that is kept, in characters. -/
def maxResponseBytes : Nat := 262144

/-- A text stated and not empty. -/
def stated (text : Option String) : Option String := text.filter (· ≠ "")

/-- The connector's own base URL, or the one the tenant declared for its system. -/
def baseUrl (library : Library) (definition : ConnectorManifest) (config : Dict String) :
    Except ConnectorError String :=
  match stated definition.baseUrl with
  | some url => pure (stripSlashes url)
  | none => do
      let field ← orRaise (stated definition.baseUrlField) ⟨"capability_not_executable"⟩
      let declared ← orRaise (filled config field) ⟨"base_url_missing"⟩
      (secureHttpsUrl library (stripSlashes declared) "base URL").mapError
        fun _ => ⟨"base_url_rejected"⟩

/-- The UTF-8 encoding of a code point that is no surrogate. -/
def utf8Bytes (point : Nat) : List Nat :=
  if point < 0x80 then [point]
  else if point < 0x800 then [0xc0 + point / 64, 0x80 + point % 64]
  else if point < 0x10000 then
    [0xe0 + point / 4096, 0x80 + point / 64 % 64, 0x80 + point % 64]
  else [0xf0 + point / 262144, 0x80 + point / 4096 % 64, 0x80 + point / 64 % 64,
    0x80 + point % 64]

/-- A byte as `quote` writes it. -/
def quoteByte (byte : Nat) : List Char :=
  let character := Char.ofNat byte
  if byte < 0x80 ∧ (character.isAlphanum ∨ character ∈ ['_', '.', '-', '~']) then [character]
  else ['%', (Nat.digitChar (byte / 16)).toUpper, (Nat.digitChar (byte % 16)).toUpper]

/-- `quote(text, safe="")`, which encodes the text and so raises on a surrogate. -/
def quote (text : PyStr) : Except Leaving (List Char) := do
  raiseIf (text.any isSurrogate = true) .raised
  pure (text.flatMap fun point => (utf8Bytes point.val).flatMap quoteByte)

/-- `text.replace(pattern, replacement)`; `skipped` counts what is left of an occurrence. -/
def replaceAll (pattern replacement : List Char) (skipped : Nat) : List Char → List Char
  | [] => []
  | character :: rest =>
    if 0 < skipped then replaceAll pattern replacement (skipped - 1) rest
    else if pattern.isPrefixOf (character :: rest) then
      replacement ++ replaceAll pattern replacement (pattern.length - 1) rest
    else character :: replaceAll pattern replacement 0 rest

/-- `str(value)` of a path argument: a text or a number that is no boolean. -/
def pathText : Json → Except Leaving PyStr
  | .str text => pure text
  | .int number => pure (py (toString number))
  | _ => .error (.refused ⟨"path_argument_invalid"⟩)

/-- Fill one placeholder in, from the configuration or else from an argument, which is then
used up. -/
def fillPlaceholder (config : Dict String) (path : List Char × List (PyStr × Json))
    (name : String) : Except Leaving (List Char × List (PyStr × Json)) := do
  let chosen ← match config.get? name, lookup (py name) path.2 with
    | some value, _ => pure (Json.str (py value), path.2)
    | none, some value => pure (value, path.2.filter fun member => member.1 ≠ py name)
    | none, none => .error (.refused ⟨"path_argument_missing"⟩)
  let text ← pathText chosen.1
  let quoted ← quote text
  pure (replaceAll (("\x7b" ++ name ++ "\x7d").toList) quoted 0 path.1, chosen.2)

/-- A member of the arguments that is stated and no `null`. -/
def idempotencyKey (arguments : List (PyStr × Json)) : Except Leaving (Option PyStr) :=
  match lookup (py "idempotency_key") arguments with
  | none | some .null => pure none
  | some (.str key) => pure (some key)
  | some _ => .error (.refused ⟨"idempotency_key_invalid"⟩)

/-- The path of a request, what goes into its query, its body and the idempotency key. -/
structure RequestParts where
  path : String
  params : List (PyStr × Json)
  body : Option (List (PyStr × Json))
  idempotencyKey : Option PyStr
  deriving DecidableEq

/-- `_request_parts`. -/
def requestParts (endpoint : ConnectorEndpoint) (config : Dict String)
    (arguments : List (PyStr × Json)) : Except Leaving RequestParts := do
  let path ← (placeholders endpoint.path).foldlM (fillPlaceholder config)
    (endpoint.path.toList, arguments)
  let key ← idempotencyKey path.2
  let remaining := path.2.filter fun member => member.1 ≠ py "idempotency_key"
  pure (if endpoint.method ∈ [.get, .delete] then
      ⟨String.ofList path.1, remaining, none, key⟩
    else ⟨String.ofList path.1, [], some remaining, key⟩)

/-- `{**left, **right}`. -/
def merged {Key Value : Type} [DecidableEq Key] (left right : List (Key × Value)) :
    List (Key × Value) :=
  left.map (fun entry =>
      (entry.1, ((right.find? fun other => other.1 = entry.1).map Prod.snd).getD entry.2)) ++
    right.filter fun entry => entry.1 ∉ left.map Prod.fst

/-- The authenticated headers of a request, before those of the call itself. -/
def Authorization.headerEntries (authorization : Authorization) : List (String × PyStr) :=
  authorization.headers.map fun header => (header.1, py header.2)

/-- The authenticated query parameters of a request, before those of the call itself. -/
def Authorization.paramEntries (authorization : Authorization) : List (PyStr × Json) :=
  authorization.params.map fun param => (py param.1, Json.str (py param.2))

/-- The request of a capability call. -/
def buildRequest (library : Library) (definition : ConnectorManifest) (capability : String)
    (credential config : Dict String) (arguments : List (PyStr × Json)) :
    Except Leaving HttpRequest := do
  let endpoint ← orRaise (definition.endpointFor capability)
    (.refused ⟨"capability_not_executable"⟩)
  let base ← (baseUrl library definition config).mapError .refused
  let authorization ← (authorize definition credential).mapError .refused
  let parts ← requestParts endpoint config arguments
  let key := (parts.idempotencyKey.filter (· ≠ [])).toList.map fun key => ("Idempotency-Key", key)
  pure {
    method := endpoint.method
    url := base ++ parts.path
    headers := merged (merged (Authorization.headerEntries authorization) key)
      [("Accept", py "application/json")]
    params := merged (Authorization.paramEntries authorization) parts.params
    basic := authorization.basic
    body := parts.body }

/-- Refuse a hostname that resolves onto the platform's own network. -/
def resolvablePublicHost (library : Library) (network : Network) (host : String) (port : Nat) :
    Except Leaving Unit :=
  match network.getaddrinfo host port with
  | .gaierror => .error (.refused ⟨"host_unresolvable"⟩)
  | .raised => .error .raised
  | .records addresses => addresses.forM fun address =>
    match library.ipIsGlobal address with
    | none => .error (.refused ⟨"host_unresolvable"⟩)
    | some isGlobal => raiseIf (isGlobal = false) (.refused ⟨"host_not_routable"⟩)

/-- The host and port a request goes to. -/
def requestTarget (library : Library) (request : HttpRequest) : Except Leaving (String × Nat) := do
  let parsed ← (library.urlsplit request.url).mapError fun _ => .raised
  let port ← parsed.port.mapError fun _ => .raised
  pure (parsed.hostname.getD "", (port.filter (· ≠ 0)).getD 443)

/-- The code of a status that is no success. -/
def statusCode (status : Nat) : String :=
  if status = 401 then "unauthorized" else if status = 403 then "forbidden"
  else if status = 429 then "rate_limited" else "provider_error"

/-- What a reply is reported as. -/
def Reply.answer : Reply → Except Leaving ConnectorAnswer
  | .response status body =>
    if 200 ≤ status ∧ status ≤ 299 then
      pure { ok := true, statusCode := some status, errorCode := none
             body := body.map fun text => String.ofList (text.toList.take maxResponseBytes) }
    else
      pure { ok := false, statusCode := some status,
             errorCode := some (Connector.statusCode status), body := none }
  | .timeout =>
    pure { ok := false, statusCode := none, errorCode := some "timeout", body := none }
  | .httpError =>
    pure { ok := false, statusCode := none, errorCode := some "transport_error", body := none }
  | .raised => .error .raised

/-- A request that may be sent: it can be built and its host is public. -/
def prepare (library : Library) (network : Network) (definition : ConnectorManifest)
    (capability : String) (credential config : Dict String) (arguments : List (PyStr × Json)) :
    Except Leaving HttpRequest := do
  let request ← buildRequest library definition capability credential config arguments
  let target ← requestTarget library request
  resolvablePublicHost library network target.1 target.2
  pure request

/-- Perform one capability call. -/
def invoke (library : Library) (network : Network) (definition : ConnectorManifest)
    (capability : String) (credential config : Dict String) (arguments : List (PyStr × Json)) :
    Except Leaving ConnectorAnswer := do
  let request ← prepare library network definition capability credential config arguments
  (network.request request).answer

/-- A request whose method, path, base URL and placement are those of a definition. -/
structure MadeBy (library : Library) (definition : ConnectorManifest) (capability : String)
    (credential config : Dict String) (request : HttpRequest) : Prop where
  endpoint : ∃ endpoint, definition.endpointFor capability = some endpoint ∧
    request.method = endpoint.method ∧
    ∃ arguments parts, requestParts endpoint config arguments = .ok parts ∧
      ∃ base, baseUrl library definition config = .ok base ∧ request.url = base ++ parts.path
  placement : ∃ authorization, authorize definition credential = .ok authorization ∧
    request.basic = authorization.basic ∧
    (∃ own, request.headers = merged (merged (Authorization.headerEntries authorization) own)
      [("Accept", py "application/json")]) ∧
    ∃ own, request.params = merged (Authorization.paramEntries authorization) own

/-- A request that is built owes its parts to its definition. -/
theorem buildRequest_madeBy {library : Library} {definition : ConnectorManifest}
    {capability : String} {credential config : Dict String} {arguments : List (PyStr × Json)}
    {request : HttpRequest}
    (built : buildRequest library definition capability credential config arguments =
      .ok request) : MadeBy library definition capability credential config request := by
  simp only [buildRequest, bind_eq_ok, pure_eq_ok, orRaise_eq_ok, mapError_eq_ok] at built
  obtain ⟨endpoint, isEndpoint, base, isBase, authorization, authorized, parts, isParts, rfl⟩ :=
    built
  exact ⟨⟨endpoint, isEndpoint, rfl, arguments, parts, isParts, base, isBase, rfl⟩,
    authorization, authorized, rfl, ⟨_, rfl⟩, _, rfl⟩

end Nexora.Connector
