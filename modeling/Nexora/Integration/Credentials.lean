import Nexora.Data.Failure
import Nexora.Integration.Manifest

/-!
# From a submission to an authorized request

`splitFields` separates at connect time what is sealed from what may be shown, and
`authorize` reads the sealed document again at call time. The placement names fields
of the submission, not of the sealed document, so a request can be built exactly when
every field the placement uses was declared secret and filled in.
-/

namespace Nexora.Integration

open Nexora.Std Nexora.Tools

/-- `text.rstrip("/")`. -/
def stripSlashes (text : String) : String := String.ofList (text.toList.rdropWhile (· == '/'))

/-- Separate what must be sealed from what may be shown. -/
def splitFields (library : Library) (definition : ConnectorManifest) (values : Dict String) :
    Except Failure (Dict String × Dict String) := do
  (definition.validateCredential library values).mapError fun text => .http 422 (some text)
  let sealedFields := values.filter fun key value => key ∈ definition.secretFieldKeys && value ≠ ""
  let config := values.filter fun key value => key ∉ definition.secretFieldKeys && value ≠ ""
  match definition.baseUrlField.filter (· ≠ "") with
  | none => pure (sealedFields, config)
  | some field =>
    match config.get? field with
    | none => pure (sealedFields, config)
    | some declared => do
        let url ← (secureHttpsUrl library (stripSlashes declared) "base URL").mapError
          fun text => .http 422 (some text)
        pure (sealedFields, config.replace field url)

/-- The authenticated parts of a request: headers, query parameters and basic
credentials. -/
structure Authorization where
  headers : List (String × String)
  params : List (String × String)
  basic : Option (String × String)
  deriving DecidableEq

/-- A request the connector runtime refuses to make, by its code. -/
structure ConnectorError where
  code : String
  deriving DecidableEq

/-- A field of the credential that is present and not empty. -/
def filled (credential : Dict String) (key : String) : Option String :=
  (credential.get? key).filter (· ≠ "")

/-- Build the authenticated parts of a request from the declared placement. -/
def authorize (definition : ConnectorManifest) (credential : Dict String) :
    Except ConnectorError Authorization := do
  let placement ← orRaise definition.credentialPlacement ⟨"capability_not_executable"⟩
  let secret ← orRaise (filled credential placement.valueField) ⟨"credential_missing"⟩
  match placement.kind with
  | .bearerHeader => pure ⟨[("Authorization", "Bearer " ++ secret)], [], none⟩
  | .header => pure ⟨[(placement.header.getD "", secret)], [], none⟩
  | .query => pure ⟨[], [(placement.queryParameter.getD "", secret)], none⟩
  | .basic => do
      let user ← orRaise (filled credential (placement.usernameField.getD ""))
        ⟨"credential_missing"⟩
      pure ⟨[], [], some (user, secret)⟩

/-- A field is declared secret and filled in by the submission. -/
def SecretlyFilled (definition : ConnectorManifest) (values : Dict String) (key : String) :
    Prop :=
  key ∈ definition.secretFieldKeys ∧ filled values key ≠ none

/-- Every field the placement uses is declared secret and filled in: its value field
and, for basic authentication, the one holding the user name. -/
def PlacementSealed (definition : ConnectorManifest) (values : Dict String) : Prop :=
  ∃ placement ∈ definition.credentialPlacement,
    SecretlyFilled definition values placement.valueField ∧
      (placement.kind = .basic →
        SecretlyFilled definition values (placement.usernameField.getD ""))

variable {definition : ConnectorManifest} {library : Library}
  {values sealedFields config : Dict String} {runtime : Runtime}

/-- The sealed document holds the non-empty secret fields of the submission. -/
theorem splitFields_sealed
    (split : splitFields library definition values = .ok (sealedFields, config)) :
    sealedFields =
      values.filter fun key value => key ∈ definition.secretFieldKeys && value ≠ "" := by
  simp only [splitFields, bind_eq_ok] at split
  obtain ⟨_, _, split⟩ := split
  split at split
  · cases split
    rfl
  · split at split
    · cases split
      rfl
    · simp only [bind_eq_ok, pure_eq_ok, Prod.mk.injEq] at split
      obtain ⟨_, _, rfl, _⟩ := split
      rfl

/-- A field can be read back from the sealed document exactly when it was declared
secret and filled in. -/
theorem filled_sealed (split : splitFields library definition values = .ok (sealedFields, config))
    (key : String) :
    filled sealedFields key ≠ none ↔ SecretlyFilled definition values key := by
  rw [splitFields_sealed split, SecretlyFilled, filled, filled, Dict.get?_filter]
  cases found : values.get? key with
  | none => simp
  | some value =>
    by_cases secret : key ∈ definition.secretFieldKeys <;> by_cases empty : value = "" <;>
      simp [secret, empty]

/-- The contract accepts a manifest whose every part it accepts. -/
theorem validate_eq_ok {manifest : ConnectorManifest} :
    manifest.validate library runtime = .ok () ↔
      manifest.validateFields = .ok () ∧
        manifest.credentialFields.forM (CredentialField.validate library) = .ok () ∧
        manifest.oauth.toList.forM OAuthConfig.validate = .ok () ∧
        manifest.credentialPlacement.toList.forM CredentialPlacement.validate = .ok () ∧
        manifest.endpoints.forM (ConnectorEndpoint.validate runtime) = .ok () ∧
        manifest.coherent library = .ok () := by
  simp only [ConnectorManifest.validate, bind_eq_ok, Unique.exists_iff, PUnit.default_eq_unit]

/-- A manifest the contract accepts with at least one endpoint declares a placement. -/
theorem placement_declared (accepted : definition.validate library runtime = .ok ())
    (executable : definition.endpoints ≠ []) :
    ∃ placement, definition.credentialPlacement = some placement := by
  obtain ⟨-, -, -, -, -, coherent⟩ := validate_eq_ok.mp accepted
  simp only [ConnectorManifest.coherent, bind_eq_ok] at coherent
  obtain ⟨_, _, _, _, _, _, _, _, _, coherent, _⟩ := coherent
  rw [ConnectorManifest.coherentEndpoints, if_neg executable] at coherent
  simp only [bind_eq_ok, raiseIf_eq_ok] at coherent
  obtain ⟨_, _, _, declared, _⟩ := coherent
  exact Option.ne_none_iff_exists'.mp declared

/-- The request's credentials can be built from what connecting sealed exactly when
every field the placement uses was declared secret and filled in. -/
theorem authorize_complete_iff (library : Library) (runtime : Runtime)
    (definition : ConnectorManifest) (values sealedFields config : Dict String)
    (accepted : definition.validate library runtime = .ok ())
    (executable : definition.endpoints ≠ [])
    (split : splitFields library definition values = .ok (sealedFields, config)) :
    authorize definition sealedFields ≠ .error ⟨"credential_missing"⟩ ↔
      PlacementSealed definition values := by
  obtain ⟨placement, declared⟩ := placement_declared accepted executable
  have value := filled_sealed split placement.valueField
  have user := filled_sealed split (placement.usernameField.getD "")
  simp only [PlacementSealed, declared, Option.mem_def, Option.some.injEq, exists_eq_left']
  rw [← value, ← user]
  cases secret : filled sealedFields placement.valueField with
  | none => simp [authorize, declared, secret, orRaise, bind, Except.bind]
  | some text =>
    cases kind : placement.kind with
    | basic =>
      cases name : filled sealedFields (placement.usernameField.getD "") <;>
        simp [authorize, declared, secret, kind, name, orRaise, bind, Except.bind, pure,
          Except.pure]
    | bearerHeader | header | query =>
      simp [authorize, declared, secret, kind, orRaise, bind, Except.bind, pure, Except.pure]

/-- A standard library as it behaves on the address `https://example.com`. -/
def exampleLibrary : Library where
  regexCompiles := fun _ => true
  regexFullmatch := fun _ _ => true
  urlsplit := fun _ => .ok
    { scheme := "https", netloc := "example.com", hostname := some "example.com",
      username := none, password := none, port := .ok none, query := "", fragment := "" }
  ipIsGlobal := fun _ => none

/-- An interpreter for schemas without floats; no check below reads a digest. -/
def exampleRuntime : Runtime where
  floatRepr := fun _ => ""
  recursionLimit := 1000
  sha256 := fun _ => 0

/-- The input schema of an endpoint that declares none. -/
def defaultInputSchema : Json :=
  .object [(py "type", .str (py "object")), (py "properties", .object []),
    (py "required", .array []), (py "additionalProperties", .bool false)]

/-- The published WordPress connector, down to one of its read endpoints. -/
def wordpress : ConnectorManifest where
  id := "wordpress"
  name := "WordPress"
  description := "WordPress REST API with application passwords."
  category := "content"
  icon := "document"
  version := ⟨1, 1, 0⟩
  status := .available
  auth := .basic
  capabilities := ["posts.read", "posts.create", "posts.publish", "media.upload", "pages.read"]
  scopes := []
  credentialFields :=
    [{ key := "site_url", label := "Site URL", secret := false, required := true,
       help := "The site root, for example https://example.com", pattern := none },
     { key := "username", label := "User name", secret := false, required := true, help := "",
       pattern := none },
     { key := "password", label := "Application password", secret := true, required := true,
       help := "Generated in the WordPress user profile; never a login password.",
       pattern := none }]
  oauth := none
  testCapability := some "posts.read"
  baseUrl := none
  baseUrlField := some "site_url"
  credentialPlacement := some
    { kind := .basic, valueField := "password", usernameField := some "username",
      header := none, queryParameter := none }
  endpoints :=
    [{ capability := "posts.read", method := .get, path := "/wp-json/wp/v2/posts",
       description := "Connector capability", sideEffect := .read, retry := .safe,
       inputSchema := defaultInputSchema, outputSchema := none }]

/-- A complete submission for the WordPress connector. -/
def wordpressSubmission : Dict String where
  entries := [("site_url", "https://example.com"), ("username", "editor"), ("password", "secret")]
  distinct := by decide

/-- What connecting WordPress seals: the password alone. -/
def wordpressSealed : Dict String where
  entries := [("password", "secret")]
  distinct := by decide

/-- What connecting WordPress shows. -/
def wordpressConfig : Dict String where
  entries := [("site_url", "https://example.com"), ("username", "editor")]
  distinct := by decide

/-- Only the endpoints of a connector are checked by an interpreter. -/
theorem wordpress_valid_under
    (endpoints : wordpress.endpoints.forM (ConnectorEndpoint.validate runtime) = .ok ()) :
    wordpress.validate exampleLibrary runtime = .ok () :=
  validate_eq_ok.mpr ⟨by decide +kernel, by decide +kernel, rfl, by decide +kernel, endpoints,
    by decide +kernel⟩

theorem wordpress_valid : wordpress.validate exampleLibrary exampleRuntime = .ok () :=
  wordpress_valid_under (by decide +kernel)

theorem wordpress_split : splitFields exampleLibrary wordpress wordpressSubmission =
    .ok (wordpressSealed, wordpressConfig) := by
  decide +kernel

/-- `authorize_complete_iff` applies to the WordPress connector. -/
theorem authorize_complete_iff_wordpress :
    authorize wordpress wordpressSealed ≠ .error ⟨"credential_missing"⟩ ↔
      PlacementSealed wordpress wordpressSubmission :=
  authorize_complete_iff exampleLibrary exampleRuntime wordpress wordpressSubmission
    wordpressSealed wordpressConfig wordpress_valid (by decide) wordpress_split

/-- The WordPress connector is accepted and connected, and cannot authorize a request:
its user name is not a secret field, so it is never sealed. -/
theorem wordpress_credential_missing :
    ¬ ∀ (library : Library) (runtime : Runtime) (definition : ConnectorManifest)
        (values sealedFields config : Dict String),
      definition.validate library runtime = .ok () → definition.endpoints ≠ [] →
        definition.auth ≠ .oauth2 →
          splitFields library definition values = .ok (sealedFields, config) →
            sealedFields.entries ≠ [] →
              authorize definition sealedFields ≠ .error ⟨"credential_missing"⟩ := by
  intro complete
  exact complete exampleLibrary exampleRuntime wordpress wordpressSubmission wordpressSealed
    wordpressConfig wordpress_valid (by decide) (by decide) wordpress_split (by decide) (by decide)

end Nexora.Integration
