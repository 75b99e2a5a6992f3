import Mathlib
import Nexora.Catalog.Manifest
import Nexora.Data.Dict
import Nexora.Tools.Contracts

/-!
# The connector contract

A connector definition declares how it authenticates, which fields a tenant fills in
and which requests it can make. The definitions below are the manifest's fields and
the validators it passes before it is published, with the texts of their errors.
Python's `re`, `urllib.parse` and `ipaddress` enter through `Library`.
-/

namespace Nexora.Integration

open Nexora.Std Nexora.Tools

/-- The parts `urlsplit` finds in a URL, host name in lower case. Reading the port
raises when it is not a number in range. -/
structure UrlParts where
  scheme : String
  netloc : String
  hostname : Option String
  username : Option String
  password : Option String
  port : Except String (Option Nat)
  query : String
  fragment : String

/-- What the standard library supplies to the connector contract. -/
structure Library where
  regexCompiles : String → Bool
  regexFullmatch : String → String → Bool
  urlsplit : String → Except String UrlParts
  /-- `ipaddress.ip_address(text).is_global`, for a text that is an address. -/
  ipIsGlobal : String → Option Bool

/-- How a connector authenticates. -/
inductive AuthType where
  | apiKey
  | oauth2
  | basic
  | bearerToken
  | webhook
  deriving DecidableEq, Repr

/-- The stored text of an authentication style. -/
def AuthType.text : AuthType → String
  | .apiKey => "api_key"
  | .oauth2 => "oauth2"
  | .basic => "basic"
  | .bearerToken => "bearer_token"
  | .webhook => "webhook"

/-- Whether a published connector may be used. -/
inductive ConnectorStatus where
  | available
  | beta
  | deprecated
  | disabled
  deriving DecidableEq, Repr

/-- Whether a failed request may be sent again. -/
inductive EndpointRetry where
  | safe
  | idempotent
  | never
  deriving DecidableEq, Repr

/-- The HTTP method of an endpoint. -/
inductive Method where
  | get
  | post
  | put
  | patch
  | delete
  deriving DecidableEq, Repr

/-- Where a secret is attached to an outbound request. -/
inductive PlacementKind where
  | bearerHeader
  | header
  | query
  | basic
  deriving DecidableEq, Repr

/-- How the connector runtime attaches a stored secret to an outbound request. -/
structure CredentialPlacement where
  kind : PlacementKind
  valueField : String
  usernameField : Option String
  header : Option String
  queryParameter : Option String
  deriving DecidableEq

/-- One executable connector capability and its governed tool contract. -/
structure ConnectorEndpoint where
  capability : String
  method : Method
  path : String
  description : String
  sideEffect : SideEffect
  retry : EndpointRetry
  inputSchema : Json
  outputSchema : Option Json
  deriving DecidableEq

/-- A field a tenant fills in to connect. -/
structure CredentialField where
  key : String
  label : String
  secret : Bool
  required : Bool
  help : String
  pattern : Option String
  deriving DecidableEq

/-- The OAuth shape of a connector. -/
structure OAuthConfig where
  authorizeUrl : String
  tokenUrl : String
  defaultScopes : List String
  refreshable : Bool
  refreshMarginSeconds : Nat
  deriving DecidableEq

/-- A connector definition. -/
structure ConnectorManifest where
  id : String
  name : String
  description : String
  category : String
  icon : String
  version : Catalog.Version
  status : ConnectorStatus
  auth : AuthType
  capabilities : List String
  scopes : List String
  credentialFields : List CredentialField
  oauth : Option OAuthConfig
  testCapability : Option String
  baseUrl : Option String
  baseUrlField : Option String
  credentialPlacement : Option CredentialPlacement
  endpoints : List ConnectorEndpoint
  deriving DecidableEq

/-- `[a-z]`. -/
def isLower (character : Char) : Bool := 'a' ≤ character && character ≤ 'z'

/-- `[0-9]`. -/
def isDigit (character : Char) : Bool := '0' ≤ character && character ≤ '9'

/-- `[A-Za-z]`. -/
def isLetter (character : Char) : Bool :=
  isLower character || 'A' ≤ character && character ≤ 'Z'

/-- A first character and then bounded many others, each of its own kind. -/
def matchesShape (first rest : Char → Bool) (fewest most : Nat) (text : String) : Bool :=
  match text.toList with
  | [] => false
  | head :: tail => first head && tail.all rest && fewest ≤ tail.length && tail.length ≤ most

/-- Lower-case words of letters and digits between single separators, the first of
them starting with a letter. -/
def isWords (separator : Char → Bool) : List Char → Bool
  | [] => false
  | head :: tail => isLower head && inWord tail
where
  /-- What may follow a character of a word. -/
  inWord : List Char → Bool
    | [] => true
    | next :: rest =>
      if separator next then startsWord rest
      else (isLower next || isDigit next) && inWord rest
  /-- What may follow a separator. -/
  startsWord : List Char → Bool
    | [] => false
    | next :: rest => (isLower next || isDigit next) && inWord rest

/-- The pattern of a slug. -/
def isSlug (text : String) : Bool := isWords (· == '-') text.toList

/-- The pattern of a category or icon. -/
def isLabel : String → Bool :=
  matchesShape isLower (fun c => isLower c || isDigit c || c == '_' || c == '-') 1 39

/-- The pattern of a field key. -/
def isFieldKey : String → Bool :=
  matchesShape isLower (fun c => isLower c || isDigit c || c == '_') 0 63

/-- The pattern of an OAuth scope. -/
def isScope : String → Bool :=
  matchesShape (fun c => isLetter c || isDigit c)
    (fun c => isLetter c || isDigit c || c ∈ ['_', '.', ':', '/', '-']) 0 127

/-- The pattern of a header's name. -/
def isHeaderName : String → Bool :=
  matchesShape isLetter (fun c => isLetter c || isDigit c || c == '-') 0 63

/-- The pattern of a query parameter's name. -/
def isQueryName : String → Bool :=
  matchesShape isLetter (fun c => isLetter c || isDigit c || c == '_' || c == '-') 0 63

/-- The parts of a text between dots. -/
def dotted (text : List Char) : List (List Char) := text.splitOn '.'

/-- The pattern of a capability: at least two dotted identifiers. -/
def isCapability (text : String) : Bool :=
  let segments := dotted text.toList
  2 ≤ segments.length && segments.all (isWords fun c => c == '_' || c == '-')

/-- The names between braces in an endpoint path, from left to right. -/
def placeholders (path : String) : List String :=
  scan none path.toList
where
  /-- `current` holds what was read since the last opening brace, in reverse. -/
  scan (current : Option (List Char)) : List Char → List String
    | [] => []
    | '\x7b' :: rest => scan (some []) rest
    | '\x7d' :: rest =>
      match current with
      | some (last :: name) => String.ofList (last :: name).reverse :: scan none rest
      | _ => scan none rest
    | character :: rest => scan (current.map (character :: ·)) rest

/-- A text contains another one. -/
def isInfix (part text : List Char) : Bool :=
  match text with
  | [] => part.isEmpty
  | _ :: rest => part.isPrefixOf text || isInfix part rest

/-- The text of a Python list of strings, as an f-string formats it. -/
def listText (items : List String) : String :=
  "[" ++ ", ".intercalate (items.map fun item => "'" ++ item ++ "'") ++ "]"

/-- The elements that are not among others, without repetition and in order. -/
def sortedDifference (items others : List String) : List String :=
  ((items.filter fun item => item ∉ others).dedup).insertionSort (· ≤ ·)

/-- Which fields each authentication style expects a tenant to provide. -/
def requiredSecretFields : AuthType → List String
  | .apiKey => ["api_key"]
  | .bearerToken => ["access_token"]
  | .basic => ["password"]
  | .webhook => ["signing_secret"]
  | .oauth2 => []

/-- Reject anything that is not a plain HTTPS endpoint on the public internet. -/
def secureHttpsUrl (library : Library) (value label : String) : Except String String := do
  let refused := label ++ " must be an HTTPS URL on port 443 without credentials or query"
  let parsed ← library.urlsplit value
  raiseIf (parsed.scheme ≠ "https" ∨ parsed.hostname.getD "" = "" ∨ parsed.username ≠ none ∨
    parsed.password ≠ none ∨ parsed.query ≠ "" ∨ parsed.fragment ≠ "") refused
  let port ← parsed.port
  raiseIf (port ∉ [none, some 443] ∨ 500 < value.length) refused
  let hostname := String.ofList ((parsed.hostname.getD "").toList.rdropWhile (· == '.'))
  raiseIf (hostname = "localhost") (label ++ " hostname is not allowed")
  raiseIf (library.ipIsGlobal hostname = some false)
    (label ++ " literal IP must be globally routable")
  pure value

/-- The constraints of a placement's fields, and that its kind has what it needs. -/
def CredentialPlacement.validate (placement : CredentialPlacement) : Except String Unit := do
  raiseIf (¬ isFieldKey placement.valueField = true ∨
      (∃ name ∈ placement.usernameField, isFieldKey name = false) ∨
      (∃ name ∈ placement.header, isHeaderName name = false) ∨
      ∃ name ∈ placement.queryParameter, isQueryName name = false)
    "String should match pattern"
  raiseIf (placement.kind = .header ∧ placement.header.getD "" = "")
    "A header placement must name its header"
  raiseIf (placement.kind = .query ∧ placement.queryParameter.getD "" = "")
    "A query placement must name its parameter"
  raiseIf (placement.kind = .basic ∧ placement.usernameField.getD "" = "")
    "A basic placement must name the field holding the user name"

/-- A schema's error as the endpoint reports it; other exceptions leave the validator
as they are. -/
def contractText : PyError → String
  | .toolContract code => "Invalid connector tool contract: " ++ code
  | .unicodeEncodeError => "UnicodeEncodeError"
  | .typeError => "TypeError"
  | .keyError => "KeyError"
  | .attributeError => "AttributeError"

/-- The constraints of an endpoint. -/
def ConnectorEndpoint.validate (runtime : Runtime) (endpoint : ConnectorEndpoint) :
    Except String Unit := do
  raiseIf (100 < endpoint.capability.length ∨ endpoint.path.length = 0 ∨
      300 < endpoint.path.length ∨ endpoint.description.length = 0 ∨
      1000 < endpoint.description.length)
    "String should have a bounded length"
  raiseIf (isCapability endpoint.capability = false)
    ("Invalid capability: " ++ endpoint.capability)
  raiseIf (endpoint.path.toList.head? ≠ some '/' ∨
      isInfix "://".toList endpoint.path.toList = true ∨
      isInfix "..".toList endpoint.path.toList = true)
    "An endpoint path must be an absolute path under the base URL"
  raiseIf ((placeholders endpoint.path).any (fun item => !isFieldKey item) = true)
    "Endpoint path placeholders must be connector field identifiers"
  raiseIf (endpoint.sideEffect = .read ∧ endpoint.retry ≠ .safe)
    "Read connector endpoints must use safe retry semantics"
  raiseIf (endpoint.sideEffect ≠ .read ∧ endpoint.retry = .safe)
    "Side-effecting connector endpoints cannot use safe retries"
  raiseIf (endpoint.retry = .idempotent ∧
      (match endpoint.inputSchema.get? (py "required") with
        | some (.array names) => names.any (· = .str (py "idempotency_key"))
        | _ => false) = false)
    "Idempotent connector endpoints require idempotency_key"
  (validateRegistrationSchema runtime endpoint.inputSchema (some endpoint.sideEffect)
    false).mapError contractText
  match endpoint.outputSchema with
  | some schema =>
    (validateRegistrationSchema runtime schema none true).mapError contractText
  | none => pure ()

/-- The constraints of a credential field. -/
def CredentialField.validate (library : Library) (field : CredentialField) :
    Except String Unit := do
  raiseIf (isFieldKey field.key = false ∨ field.label.length = 0 ∨ 100 < field.label.length ∨
      300 < field.help.length ∨ 200 < (field.pattern.getD "").length)
    "String should be within its constraints"
  raiseIf (∃ pattern ∈ field.pattern, library.regexCompiles pattern = false)
    ("Credential field " ++ field.key ++ " has an invalid pattern")

/-- The constraints of an OAuth configuration. -/
def OAuthConfig.validate (oauth : OAuthConfig) : Except String Unit := do
  raiseIf (500 < oauth.authorizeUrl.length ∨ 500 < oauth.tokenUrl.length ∨
      50 < oauth.defaultScopes.length ∨ oauth.refreshMarginSeconds < 30 ∨
      2592000 < oauth.refreshMarginSeconds)
    "Value should be within its constraints"
  raiseIf ("https://".toList.isPrefixOf oauth.authorizeUrl.toList = false)
    "authorize_url must be an HTTPS URL"
  raiseIf ("https://".toList.isPrefixOf oauth.tokenUrl.toList = false)
    "token_url must be an HTTPS URL"
  oauth.defaultScopes.forM fun scope =>
    raiseIf (isScope scope = false) ("Invalid OAuth scope: " ++ scope)

namespace ConnectorManifest

variable (manifest : ConnectorManifest)

/-- The keys of the declared credential fields. -/
def fieldKeys : List String := manifest.credentialFields.map CredentialField.key

/-- The keys of the declared secret fields. -/
def secretFieldKeys : List String :=
  (manifest.credentialFields.filter CredentialField.secret).map CredentialField.key

/-- The endpoint that executes a capability. -/
def endpointFor (capability : String) : Option ConnectorEndpoint :=
  manifest.endpoints.find? fun endpoint => endpoint.capability = capability

/-- The fields the placement reads a tenant's submission from. -/
def placementFields : List String :=
  match manifest.credentialPlacement with
  | none => []
  | some placement =>
    (placement.valueField :: placement.usernameField.toList).filter (· ≠ "")

/-- The constraints of the manifest's own fields. -/
def validateFields : Except String Unit := do
  raiseIf (isSlug manifest.id = false ∨ manifest.id.length < 2 ∨ 64 < manifest.id.length ∨
      manifest.name.length = 0 ∨ 100 < manifest.name.length ∨
      manifest.description.length = 0 ∨ 1000 < manifest.description.length ∨
      isLabel manifest.category = false ∨ isLabel manifest.icon = false)
    "String should be within its constraints"
  raiseIf (100 < manifest.capabilities.length ∨ 100 < manifest.scopes.length ∨
      20 < manifest.credentialFields.length ∨ 100 < manifest.endpoints.length)
    "List should be within its constraints"
  raiseIf (100 < (manifest.testCapability.getD "").length ∨
      500 < (manifest.baseUrl.getD "").length ∨
      ∃ key ∈ manifest.baseUrlField, isFieldKey key = false)
    "String should be within its constraints"

/-- Capabilities, scopes, field keys and the test capability are well formed. -/
def coherentLists : Except String Unit := do
  manifest.capabilities.forM fun value =>
    raiseIf (isCapability value = false ∨ 100 < value.length) ("Invalid capability: " ++ value)
  raiseIf (¬ manifest.capabilities.Nodup) "capabilities contains duplicates"
  manifest.scopes.forM fun scope =>
    raiseIf (isScope scope = false) ("Invalid scope: " ++ scope)
  raiseIf (¬ manifest.fieldKeys.Nodup) "credential_fields contains duplicate keys"
  raiseIf (manifest.testCapability.getD "" ≠ "" ∧
      manifest.testCapability.getD "" ∉ manifest.capabilities)
    "test_capability must be one of the declared capabilities"

/-- An OAuth configuration stands exactly beside the `oauth2` style. -/
def coherentOAuth : Except String Unit :=
  match manifest.auth, manifest.oauth with
  | .oauth2, none => .error "An oauth2 connector must declare its oauth configuration"
  | .oauth2, some oauth =>
    let unknown := sortedDifference oauth.defaultScopes manifest.scopes
    raiseIf (unknown ≠ []) ("OAuth default scopes are not declared: " ++ listText unknown)
  | _, none => pure ()
  | _, some _ => .error "Only an oauth2 connector may declare oauth configuration"

/-- The fields the authentication style needs are declared required. -/
def coherentFields : Except String Unit :=
  let declared := (manifest.credentialFields.filter CredentialField.required).map
    CredentialField.key
  let missing := sortedDifference (requiredSecretFields manifest.auth) declared
  raiseIf (missing ≠ [])
    (manifest.auth.text ++ " connector is missing fields: " ++ listText missing)

/-- The base URL is safe, and is stated or read from a declared field. -/
def coherentBaseUrl (library : Library) : Except String Unit := do
  manifest.baseUrl.toList.forM fun url => do
    let _ ← secureHttpsUrl library url "base_url"
    pure ()
  raiseIf (manifest.baseUrl.getD "" ≠ "" ∧ manifest.baseUrlField.getD "" ≠ "")
    "A connector states its base URL or names a field, never both"
  raiseIf (manifest.baseUrlField.getD "" ≠ "" ∧
      manifest.baseUrlField.getD "" ∉ manifest.fieldKeys)
    "base_url_field must be a declared credential field"

/-- A connector with endpoints has what a request to them needs. -/
def coherentEndpoints : Except String Unit :=
  if manifest.endpoints = [] then pure () else do
    raiseIf (manifest.baseUrl.getD "" = "" ∧ manifest.baseUrlField.getD "" = "")
      "A connector with endpoints must have a base URL"
    raiseIf (manifest.credentialPlacement = none)
      "A connector with endpoints must declare credential placement"
    let seen := manifest.endpoints.map ConnectorEndpoint.capability
    raiseIf (¬ seen.Nodup) "endpoints declare the same capability twice"
    let undeclared := sortedDifference seen manifest.capabilities
    raiseIf (undeclared ≠ [])
      ("endpoints reference undeclared capabilities: " ++ listText undeclared)
    manifest.endpoints.forM fun endpoint => do
      raiseIf (64 < (manifest.id ++ "." ++ endpoint.capability).length)
        "connector tool name exceeds the platform tool-name limit"
      raiseIf (128 < 37 + endpoint.capability.length)
        "connector capability is too long for an executable target"

/-- OAuth tokens are minted by the platform; every other style is filled in by the
tenant, so the placement can only use fields the tenant was asked for. -/
def coherentPlacement : Except String Unit :=
  if manifest.auth = .oauth2 then pure () else
    manifest.placementFields.forM fun name =>
      raiseIf (name ∉ manifest.fieldKeys)
        ("credential_placement references unknown field: " ++ name)

/-- The parts of a manifest contradict neither each other nor its authentication style. -/
def coherent (library : Library) : Except String Unit := do
  manifest.coherentLists
  manifest.coherentOAuth
  manifest.coherentFields
  manifest.coherentBaseUrl library
  manifest.coherentEndpoints
  manifest.coherentPlacement

/-- The whole contract: the constraints of every part and their coherence. -/
def validate (library : Library) (runtime : Runtime) : Except String Unit := do
  manifest.validateFields
  manifest.credentialFields.forM (CredentialField.validate library)
  manifest.oauth.toList.forM OAuthConfig.validate
  manifest.credentialPlacement.toList.forM CredentialPlacement.validate
  manifest.endpoints.forM (ConnectorEndpoint.validate runtime)
  manifest.coherent library

end ConnectorManifest

/-- Check a tenant's submission against the declared fields, without storing it. -/
def ConnectorManifest.validateCredential (library : Library) (manifest : ConnectorManifest)
    (values : Dict String) : Except String Unit := do
  let unknown := sortedDifference values.keys manifest.fieldKeys
  raiseIf (unknown ≠ []) ("Unknown credential fields: " ++ listText unknown)
  manifest.credentialFields.forM fun field => do
    raiseIf (field.required = true ∧ (values.get? field.key).getD "" = "")
      ("Missing credential field: " ++ field.key)
    match values.get? field.key with
    | none => pure ()
    | some value => do
        raiseIf (8192 < value.length) ("Credential field " ++ field.key ++ " must be text")
        raiseIf (∃ pattern ∈ field.pattern, pattern ≠ "" ∧
            library.regexFullmatch pattern value = false)
          ("Credential field " ++ field.key ++ " does not match its expected format")

end Nexora.Integration
