import Nexora.Data.Urllib
import Nexora.Std.History
import Nexora.Connector.Storing

/-!
# Signing keys of an identity provider

The API verifies bearer tokens with keys it fetches from its identity provider. One resolver keeps
the latest set it accepted, for a bounded time, and fetches another one early when a token names a
key it does not know. Requests share the resolver: a token that cannot be served at once waits for
the resolver's lock, and the one that holds it may fetch.
-/

namespace Nexora.Auth

open Nexora.Std Nexora.Connector Urllib Json

/-- An exception of the resolver. -/
inductive KeyFault where
  /-- `OidcKeyUnavailable`. -/
  | unavailable (message : String)
  /-- `OidcKeyNotFound`. -/
  | notFound (message : String)
  /-- Any other. -/
  | raised
  deriving DecidableEq, Repr

/-- The settings a resolver reads. -/
structure OidcSettings where
  authIssuer : Option PyStr
  authJwksUrl : Option PyStr
  authJwksCacheSeconds : Nat
  authJwksMinRefreshSeconds : Nat
  authJwksUrl_filled : authJwksUrl ≠ some []
  authJwksCacheSeconds_range : 30 ≤ authJwksCacheSeconds ∧ authJwksCacheSeconds ≤ 86400
  authJwksMinRefreshSeconds_range : 1 ≤ authJwksMinRefreshSeconds ∧ authJwksMinRefreshSeconds ≤ 300

/-- What `jwt.PyJWK.from_dict` makes of a key. -/
inductive Jwk (Key : Type) where
  | key (key : Key)
  /-- `PyJWKError`, `InvalidKeyError`, `ValueError` or `TypeError`. -/
  | invalid
  | raised

/-- The libraries a resolver calls: `urlsplit`'s check of an authority, `str.lower`, `json.loads`
and `jwt`. -/
structure KeyLibrary (Key : Type) where
  netlocFault : PyStr → Option String
  lowered : PyStr → PyStr
  loads : ByteArray → Loaded
  /-- `jwt.get_unverified_header`, none for a malformed token. -/
  header : PyStr → Option (List (PyStr × Json))
  jwk : List (PyStr × Json) → Jwk Key

variable {Key : Type} (library : KeyLibrary Key) (settings : OidcSettings)

/-! ## URLs -/

/-- The text of an authority's port, if it has one. -/
def portText (result : SplitResult) : Option PyStr :=
  let hostinfo := afterLast (mark '@') result.netloc
  let port :=
    if mark '[' ∈ hostinfo then
      (partition (mark ':') (partition (mark ']') (partition (mark '[') hostinfo).2).2).2
    else (partition (mark ':') hostinfo).2
  if port = [] then none else some port

/-- The number a text of decimal digits stands for. -/
def decimal (text : PyStr) : Nat := text.foldl (fun number digit => 10 * number + (digit.val - 48)) 0

/-- `port`. -/
def port (result : SplitResult) : Except KeyFault (Option Nat) :=
  match portText result with
  | none => .ok none
  | some text =>
    if text.all (fun digit => 0x30 ≤ digit.val && digit.val ≤ 0x39) = true ∧ decimal text ≤ 65535
    then .ok (some (decimal text))
    else .error .raised

/-- `urlsplit`. -/
def split (url : PyStr) : Except KeyFault SplitResult :=
  (urlsplit library.netlocFault [] url).mapError fun _ => .raised

/-- `_origin`. -/
def origin (url : PyStr) : Except KeyFault (PyStr × PyStr × Nat) := do
  let parsed ← split library url
  let given ← port parsed
  pure (parsed.scheme, library.lowered parsed.host,
    match given with
    | some (number + 1) => number + 1
    | _ => if parsed.scheme = py "https" then 443 else 80)

/-- `_require_https_url`. -/
def requireHttpsUrl (url : PyStr) (label : String) : Except KeyFault PyStr := do
  let parsed ← split library url
  raiseIf (parsed.scheme ≠ py "https" ∨ parsed.host = [] ∨ parsed.username ≠ none ∨
    parsed.password ≠ none ∨ parsed.fragment ≠ [])
    (.unavailable (label ++ " must be an HTTPS URL without credentials or fragment"))
  pure url

/-- `discovery_url`. -/
def discoveryUrl (issuer : PyStr) : Except KeyFault PyStr := do
  let issuer ← requireHttpsUrl library issuer "OIDC issuer"
  let parsed ← split library issuer
  raiseIf (parsed.query ≠ []) (.unavailable "OIDC issuer must not contain a query")
  pure ((issuer.reverse.dropWhile fun point => point = mark '/').reverse ++
    py "/.well-known/openid-configuration")

/-! ## Answers of the provider -/

/-- What comes of a request: a response, or `httpx.HTTPError`. -/
inductive HttpAnswer where
  | response (status : Nat) (body : ByteArray)
  | failed
  deriving DecidableEq

/-- `DISCOVERY_MAX_BYTES`. -/
def discoveryMaxBytes : Nat := 64 * 1024

/-- `JWKS_MAX_BYTES`. -/
def jwksMaxBytes : Nat := 256 * 1024

/-- `MAX_JWKS_KEYS`. -/
def maxJwksKeys : Nat := 50

/-- `_get_json`, from the answer to its request. -/
def getJson (answer : HttpAnswer) (maxBytes : Nat) (label : String) :
    Except KeyFault (List (PyStr × Json)) :=
  match answer with
  | .failed => .error (.unavailable (label ++ " request failed"))
  | .response status body => do
      raiseIf (status ≠ 200) (.unavailable (label ++ " returned HTTP " ++ toString status))
      raiseIf (maxBytes < body.size) (.unavailable (label ++ " exceeded the response size limit"))
      match library.loads body with
      | .value (.object members) => pure members
      | .value _ => .error (.unavailable (label ++ " must return a JSON object"))
      | .decodeError => .error (.unavailable (label ++ " returned invalid JSON"))
      | .raised => .error .raised

/-- A key id: a text of bounded length. -/
def kid? : Option Json → Option PyStr
  | some (.str kid) => if kid ≠ [] ∧ kid.length ≤ 256 then some kid else none
  | _ => none

/-- A member that is absent, `null` or a given text. -/
def isOptionally (value : Option Json) (text : String) : Bool :=
  match value with
  | none => true
  | some .null => true
  | some (.str given) => given = py text
  | some _ => false

/-- The id of a key of a set, if the key is for RS256 signatures. -/
def signingKid? (item : List (PyStr × Json)) : Option PyStr :=
  if lookup (py "kty") item = some (.str (py "RSA")) ∧
      isOptionally (lookup (py "use") item) "sig" = true ∧
      isOptionally (lookup (py "alg") item) "RS256" = true then
    kid? (lookup (py "kid") item)
  else none

/-- One item of a key set, after those before it were resolved. -/
def resolveItem (resolved : Table PyStr Key) (item : Json) : Except KeyFault (Table PyStr Key) :=
  match item with
  | .object members => do
      raiseIf ((lookup (py "d") members).isSome = true)
        (.unavailable "JWKS must never contain private RSA material")
      match signingKid? members with
      | none => pure resolved
      | some kid => do
          raiseIf ((resolved.find? kid).isSome = true)
            (.unavailable "JWKS contains a duplicate kid")
          match library.jwk members with
          | .key key => pure (resolved.put kid key)
          | .invalid => .error (.unavailable "JWKS contains an invalid RSA signing key")
          | .raised => .error .raised
  | _ => pure resolved

/-- The key set of an answer to a request for it. -/
def jwks (answer : HttpAnswer) : Except KeyFault (Table PyStr Key) := do
  let payload ← getJson library answer jwksMaxBytes "JWKS"
  let items ← match lookup (py "keys") payload with
    | some (.array items) => pure items
    | _ => .error (.unavailable "JWKS must contain a bounded non-empty keys array")
  raiseIf (items = [] ∨ maxJwksKeys < items.length)
    (.unavailable "JWKS must contain a bounded non-empty keys array")
  let resolved ← items.foldlM (resolveItem library) .empty
  raiseIf (resolved.entries = []) (.unavailable "JWKS contains no acceptable RS256 signing keys")
  pure resolved

/-- `_discover_jwks_url`, from the answer to its request. -/
def discovered (issuer : PyStr) (answer : HttpAnswer) : Except KeyFault PyStr := do
  let payload ← getJson library answer discoveryMaxBytes "OIDC discovery"
  raiseIf (lookup (py "issuer") payload ≠ some (.str issuer))
    (.unavailable "OIDC discovery issuer does not match configured issuer")
  let url ← match lookup (py "jwks_uri") payload with
    | some (.str url) => pure url
    | _ => .error (.unavailable "OIDC discovery did not provide jwks_uri")
  let url ← requireHttpsUrl library url "OIDC discovery jwks_uri"
  let own ← origin library url
  let issuers ← origin library issuer
  raiseIf (own ≠ issuers)
    (.unavailable "Cross-origin jwks_uri requires explicit NEXORA_AUTH_JWKS_URL")
  pure url

/-! ## The resolver -/

/-- What a resolver remembers. -/
structure OidcKeyResolver (Key : Type) where
  keys : Table PyStr Key
  expiresAt : ℚ
  fetchedAt : ℚ
  discoveredJwksUrl : Option PyStr

/-- A resolver that has fetched nothing. -/
def OidcKeyResolver.new : OidcKeyResolver Key := ⟨.empty, 0, 0, none⟩

/-- The key under an id, while the set is not expired. -/
def OidcKeyResolver.current (resolver : OidcKeyResolver Key) (kid : PyStr) (now : ℚ) : Option Key :=
  (resolver.keys.find? kid).filter fun _ => now < resolver.expiresAt

/-- There is a set, and it is not expired. -/
def OidcKeyResolver.Serves (resolver : OidcKeyResolver Key) (now : ℚ) : Prop :=
  resolver.keys.entries ≠ [] ∧ now < resolver.expiresAt

instance (resolver : OidcKeyResolver Key) (now : ℚ) : Decidable (resolver.Serves now) :=
  inferInstanceAs (Decidable (¬ resolver.keys.entries = [] ∧ _))

/-- `key_for` up to its first look at the keys: the id its token names. -/
def namedKid (token : PyStr) : Except KeyFault PyStr := do
  let header ← orRaise (library.header token) (.notFound "Malformed token header")
  raiseIf (lookup (py "alg") header ≠ some (.str (py "RS256")))
    (.notFound "Unsupported token algorithm")
  orRaise (kid? (lookup (py "kid") header)) (.notFound "Rotating-key tokens require a bounded kid")

/-- Where a refresh waits for the provider. -/
inductive Awaiting where
  | discovery (issuer : PyStr)
  | jwks (url : PyStr)
  deriving DecidableEq

/-- `_refresh` up to its first request. -/
def beginRefresh (resolver : OidcKeyResolver Key) (rediscover : Bool) :
    Except KeyFault Awaiting :=
  match settings.authJwksUrl with
  | some url => do
      let url ← requireHttpsUrl library url "OIDC JWKS URL"
      pure (.jwks url)
  | none =>
    match resolver.discoveredJwksUrl.filter fun url => !rediscover && url ≠ [] with
    | some url => pure (.jwks url)
    | none => do
        let issuer ← orRaise (settings.authIssuer.filter fun issuer => issuer ≠ [])
          (.unavailable "Authentication issuer is not configured")
        let _ ← discoveryUrl library issuer
        pure (.discovery issuer)

/-- The resolver after it accepted a set. -/
def OidcKeyResolver.accept (resolver : OidcKeyResolver Key) (keys : Table PyStr Key) (now : ℚ) :
    OidcKeyResolver Key :=
  { resolver with
    keys := keys, fetchedAt := now, expiresAt := now + settings.authJwksCacheSeconds }

/-- A call that holds the lock and waits for the provider. -/
structure Refreshing where
  kid : PyStr
  /-- The set could still be served when the call decided to fetch another one. -/
  served : Bool
  awaiting : Awaiting
  deriving DecidableEq

/-- Something that happened to a resolver. -/
inductive KeyEvent (Key : Type) where
  /-- A key set is requested, while the earlier one could still be served or not. -/
  | requested (now : ℚ) (served : Bool)
  | accepted (keys : Table PyStr Key) (now : ℚ)
  | returned (kid : PyStr) (key : Key) (now : ℚ)

/-- A resolver in use: the call that holds its lock, the latest time its clock has shown, and what
happened, the latest first. -/
structure KeySystem (Key : Type) where
  resolver : OidcKeyResolver Key
  refreshing : Option Refreshing
  clock : ℚ
  log : List (KeyEvent Key)

/-- A step of a resolver. -/
inductive KeyStep where
  /-- A call up to the lock. -/
  | call (token : PyStr) (now : ℚ)
  /-- A call takes the lock. -/
  | enter (token : PyStr) (now : ℚ)
  /-- The provider answers the request for its configuration. -/
  | discovered (answer : HttpAnswer) (now : ℚ)
  /-- The provider answers the request for its key set. -/
  | fetched (answer : HttpAnswer) (now : ℚ)
  /-- The call that holds the lock is cancelled. -/
  | cancelled (now : ℚ)
  deriving DecidableEq

/-- The time of a step. -/
def KeyStep.now : KeyStep → ℚ
  | .call _ now | .enter _ now | .discovered _ now | .fetched _ now | .cancelled now => now

/-- A step that cannot be taken. -/
inductive KeyDisabled where
  | disabled

namespace KeySystem

variable (system : KeySystem Key)

/-- A call that found its key returns it, and one that did not raises. -/
def answered (kid : PyStr) (key : Option Key) (now : ℚ) : KeySystem Key :=
  match key with
  | some key => { system with log := .returned kid key now :: system.log }
  | none => system

/-- The call that holds the lock sends the request it waits on. -/
def awaits (kid : PyStr) (served : Bool) (now : ℚ) : Except KeyFault Awaiting → KeySystem Key
  | .error _ => system
  | .ok (.discovery issuer) => { system with refreshing := some ⟨kid, served, .discovery issuer⟩ }
  | .ok (.jwks url) => { system with
      refreshing := some ⟨kid, served, .jwks url⟩
      log := .requested now served :: system.log }

/-- `key_for` from the lock on, up to its first request if it sends one. -/
def enter (kid : PyStr) (now : ℚ) : KeySystem Key :=
  match system.resolver.current kid now with
  | some key => system.answered kid (some key) now
  | none =>
    if system.resolver.expiresAt ≤ now ∨ system.resolver.keys.entries = [] ∨
        settings.authJwksMinRefreshSeconds ≤ now - system.resolver.fetchedAt then
      system.awaits kid (system.resolver.Serves now) now
        (beginRefresh library settings system.resolver (system.resolver.expiresAt ≤ now))
    else system.answered kid (system.resolver.keys.find? kid) now

/-- `_refresh` after the discovery, up to the request for the key set. -/
def discover (refreshing : Refreshing) (issuer : PyStr) (answer : HttpAnswer) (now : ℚ) :
    KeySystem Key :=
  match Auth.discovered library issuer answer with
  | .error _ => { system with refreshing := none }
  | .ok url =>
    { system with resolver := { system.resolver with discoveredJwksUrl := some url } }.awaits
      refreshing.kid refreshing.served now (.ok (.jwks url))

/-- `_refresh` after the request for the key set, and `key_for` after it. -/
def fetch (refreshing : Refreshing) (answer : HttpAnswer) (now : ℚ) : KeySystem Key :=
  match jwks library answer with
  | .error _ => { system with refreshing := none }
  | .ok keys =>
    { system with
      resolver := system.resolver.accept settings keys now
      refreshing := none
      log := .accepted keys now :: system.log }.answered refreshing.kid
        (keys.find? refreshing.kid) now

/-- A step, at a time its clock shows. -/
def move : KeyStep → Except KeyDisabled (KeySystem Key)
  | .call token now =>
    match namedKid library token with
    | .error _ => .ok system
    | .ok kid => .ok (system.answered kid (system.resolver.current kid now) now)
  | .enter token now =>
    match namedKid library token, system.refreshing with
    | .ok kid, none => .ok (system.enter library settings kid now)
    | _, _ => .error .disabled
  | .discovered answer now =>
    match system.refreshing with
    | some ⟨kid, served, .discovery issuer⟩ =>
      .ok (system.discover library ⟨kid, served, .discovery issuer⟩ issuer answer now)
    | _ => .error .disabled
  | .fetched answer now =>
    match system.refreshing with
    | some ⟨kid, served, .jwks url⟩ =>
      .ok (system.fetch library settings ⟨kid, served, .jwks url⟩ answer now)
    | _ => .error .disabled
  | .cancelled _ =>
    match system.refreshing with
    | some _ => .ok { system with refreshing := none }
    | none => .error .disabled

/-- A step of a resolver whose clock does not go backwards. -/
def run (step : KeyStep) : Except KeyDisabled (KeySystem Key) := do
  raiseIf (step.now < system.clock) .disabled
  { system with clock := step.now }.move library settings step

/-- A resolver that has not been called. -/
def opening (clock : ℚ) : KeySystem Key := ⟨.new, none, clock, []⟩

end KeySystem

/-- A resolver under any sequence of calls and answers. -/
def keyMachine : Machine (KeySystem Key) KeyStep :=
  .ofFunction (fun system => ∃ clock, system = .opening clock) (KeySystem.run library settings)

end Nexora.Auth
