import Nexora.Data.Urllib
import Nexora.Data.Members
import Nexora.Run.Worker
import Nexora.Connector.Contracts

/-!
# Targets of the browser tools

A standard run keeps the origin of its agent's site. Its browser tools take a path and ask the
browser runtime to open that path on the kept origin.
-/

namespace Nexora.Browser

open Nexora.Std Nexora.Run Urllib Json

/-- A site the browser tools may open: an HTTPS URL with a host and no credentials. -/
def IsPublicSite (parsed : SplitResult) : Prop :=
  parsed.scheme = py "https" ∧ parsed.host ≠ [] ∧ parsed.username.getD [] = [] ∧
    parsed.password.getD [] = []

instance (parsed : SplitResult) : Decidable (IsPublicSite parsed) :=
  inferInstanceAs (Decidable (_ ∧ _))

/-- The origin a run's snapshot keeps of a site it may open. -/
def allowedOrigin (netlocFault : PyStr → Option String) (siteUrl : PyStr) :
    Except String (Option PyStr) := do
  let parsed ← urlsplit netlocFault [] siteUrl
  pure (if IsPublicSite parsed then some (parsed.scheme ++ py "://" ++ parsed.netloc) else none)

/-- An `McpAdapterError` that is not retried. -/
def refused (code : String) : AdapterOutcome := .error (py code) false

/-- `isinstance(value, dict)` with its members. -/
def members? : Json → Option (List (PyStr × Json))
  | .object members => some members
  | _ => none

/-- The origin a snapshot names. -/
def snapshotOrigin (snapshot : Option Json) : Except AdapterOutcome PyStr := do
  let members ← orRaise (snapshot.bind members?) (refused "browser_snapshot_missing")
  let browser ← orRaise ((lookup (py "browser") members).bind members?)
    (refused "browser_snapshot_missing")
  orRaise ((lookup (py "allowed_origin") browser).bind string?) (refused "browser_snapshot_invalid")

/-- `_origin`. -/
def origin (netlocFault : PyStr → Option String) (snapshot : Option Json) :
    Except AdapterOutcome PyStr := do
  let origin ← snapshotOrigin snapshot
  let parsed ← (urlsplit netlocFault [] origin).mapError fun _ => .exception
  raiseIf (¬ IsPublicSite parsed) (refused "browser_snapshot_invalid")
  pure (origin.rdropWhile fun point => point = mark '/')

/-- `arguments.get("path", "/")`. -/
def pathArgument (arguments : List (PyStr × Json)) : Json :=
  (lookup (py "path") arguments).getD (.str (py "/"))

/-- A path without the slashes it starts with. -/
def withoutSlashes (path : PyStr) : PyStr := path.dropWhile fun point => point = mark '/'

/-- The URL of a path on an origin. -/
def target (netlocFault : PyStr → Option String) (origin : PyStr)
    (arguments : List (PyStr × Json)) : Except AdapterOutcome PyStr := do
  let path ← orRaise (string? (pathArgument arguments)) (refused "browser_path_invalid")
  raiseIf (path.take 1 ≠ py "/" ∨ path.take 2 = py "//") (refused "browser_path_invalid")
  let target ← (urljoin netlocFault (origin ++ py "/") (withoutSlashes path)).mapError
    fun _ => .exception
  let reached ← (urlsplit netlocFault [] target).mapError fun _ => .exception
  let allowed ← (urlsplit netlocFault [] origin).mapError fun _ => .exception
  raiseIf (reached.netloc ≠ allowed.netloc) (refused "browser_origin_not_allowed")
  pure target

/-- A click on what a selector finds, or a value to fill it with. -/
structure PageAction where
  selector : PyStr
  fill : Option PyStr
  deriving DecidableEq

/-- The action a call asks for. A list or a dictionary has no place in a set, so looking for one
raises `TypeError`. -/
def pageAction (arguments : List (PyStr × Json)) : Except AdapterOutcome PageAction := do
  let action := lookup (py "action") arguments
  raiseIf (action.any isContainer = true) .exception
  raiseIf (action ∉ [some (.str (py "click")), some (.str (py "fill"))])
    (refused "browser_action_invalid")
  let selector ← orRaise ((lookup (py "selector") arguments).bind string?)
    (refused "browser_action_invalid")
  raiseIf (selector = []) (refused "browser_action_invalid")
  if action = some (.str (py "fill")) then
    let value ← orRaise ((lookup (py "value") arguments).bind string?)
      (refused "browser_action_invalid")
    pure ⟨selector, some value⟩
  else pure ⟨selector, none⟩

/-- The action of a call, none of a call that only inspects a page. -/
def requestedAction (remoteName : PyStr) (arguments : List (PyStr × Json)) :
    Except AdapterOutcome (Option PageAction) :=
  if remoteName = py "page.action" then some <$> pageAction arguments else pure none

/-- What the adapter posts to the browser runtime. -/
structure BrowserRequest where
  endpoint : PyStr
  authorization : PyStr
  url : PyStr
  allowedOrigin : PyStr
  action : Option PageAction
  deriving DecidableEq

/-- The members an action adds to a request. -/
def PageAction.members (action : PageAction) : List (PyStr × Json) :=
  match action.fill with
  | some value => [(py "action", .str (py "fill")), (py "selector", .str action.selector),
      (py "value", .str value)]
  | none => [(py "action", .str (py "click")), (py "selector", .str action.selector)]

/-- The body of a request. -/
def BrowserRequest.payload (request : BrowserRequest) : Json :=
  .object ([(py "url", .str request.url), (py "allowed_origin", .str request.allowedOrigin)] ++
    request.action.elim [] PageAction.members)

/-- What the browser runtime answers, as the HTTP client reports it. -/
inductive Reply where
  /-- `TimeoutException` or `NetworkError`. -/
  | unreachable
  /-- Any other exception. -/
  | failed
  /-- A response, with the value its body holds if it is JSON. -/
  | response (status : Nat) (body : Option Json)

/-- The adapter as a deployment configures it. -/
structure BrowserMcpAdapter where
  baseUrl : PyStr
  token : PyStr

namespace BrowserMcpAdapter

variable (adapter : BrowserMcpAdapter)

/-- `_SUPPORTED`. -/
def supported : List (PyStr × PyStr) :=
  [(py "page.inspect", py "/inspect"), (py "page.action", py "/action")]

/-- What `call_tool_for_context` sends for a call it accepts. A body with an unpaired surrogate
cannot be encoded. -/
def request (netlocFault : PyStr → Option String) (context : ExecutionContext)
    (remoteName : PyStr) (arguments : List (PyStr × Json)) :
    Except AdapterOutcome BrowserRequest := do
  raiseIf (context.agentKind ≠ .standard) (refused "browser_standard_run_required")
  let endpoint ← orRaise (supported.lookup remoteName) (refused "browser_standard_run_required")
  let origin ← origin netlocFault context.agentSnapshot
  let url ← target netlocFault origin arguments
  let action ← requestedAction remoteName arguments
  let request : BrowserRequest :=
    ⟨adapter.baseUrl ++ endpoint, py "Bearer " ++ adapter.token, url, origin, action⟩
  raiseIf (request.payload.hasSurrogate = true) .exception
  pure request

/-- What a reply means to the gateway. Only a call that changes nothing is retried. -/
def outcome (mutation : Bool) : Reply → AdapterOutcome
  | .unreachable => .error (py "browser_runtime_unavailable") !mutation
  | .failed => .exception
  | .response status body =>
    if status = 403 then refused "browser_origin_not_allowed"
    else if 500 ≤ status then .error (py "browser_runtime_error") !mutation
    else if status < 200 ∨ 300 ≤ status then refused "browser_request_rejected"
    else
      match body.bind members? with
      | some members =>
        if lookup (py "ok") members = some (.bool true) then .result (.object members)
        else .error (py "browser_invalid_response") !mutation
      | none => .error (py "browser_invalid_response") !mutation

/-- `call_tool_for_context`. -/
def callToolForContext (netlocFault : PyStr → Option String) (send : BrowserRequest → Reply)
    (context : ExecutionContext) (remoteName : PyStr) (arguments : List (PyStr × Json)) :
    AdapterOutcome :=
  match adapter.request netlocFault context remoteName arguments with
  | .error refusal => refusal
  | .ok request => outcome (remoteName = py "page.action") (send request)

end BrowserMcpAdapter

/-! ## Where a call leads -/

variable {netlocFault : PyStr → Option String} {arguments : List (PyStr × Json)}

/-- A URL stays on an origin: it is an HTTPS URL, and its authority is the origin's. -/
def StaysOn (netlocFault : PyStr → Option String) (allowed url : PyStr) : Prop :=
  ∃ reached expected, urlsplit netlocFault [] url = .ok reached ∧
    urlsplit netlocFault [] allowed = .ok expected ∧ reached.scheme = py "https" ∧
      reached.netloc = expected.netloc

/-- The path of a call names no scheme of its own after its first slashes, or names HTTPS. -/
def PlainPath (arguments : List (PyStr × Json)) : Prop :=
  ∀ path, pathArgument arguments = .str path →
    (parts [] (withoutSlashes path)).scheme ∈ [[], py "https"]

/-- A URL written with the HTTPS scheme has it. -/
theorem https_scheme (after : PyStr) :
    (parts [] (py "https" ++ mark ':' :: after)).scheme = py "https" := by
  have starts : (py "https").head?.any isAlpha = true := by decide
  have allowed : (py "https").all isSchemeChar = true := by decide
  rw [parts_scheme starts allowed]
  decide

/-- The authority of a site, whose origin is that authority under HTTPS. -/
structure Origin (netlocFault : PyStr → Option String) where
  netloc : PyStr
  some_ : netloc ≠ []
  plain : ∀ point ∈ netloc, endsNetloc point = false ∧
    point.val ≠ 0x09 ∧ point.val ≠ 0x0a ∧ point.val ≠ 0x0d
  accepted : netlocFault netloc = none

/-- The origin as it is written. -/
def Origin.text (site : Origin netlocFault) : PyStr := py "https" ++ py "://" ++ site.netloc

/-- Every origin a snapshot keeps is one, with the authority of the site it was made of. -/
theorem exists_origin {siteUrl allowed : PyStr}
    (kept : allowedOrigin netlocFault siteUrl = .ok (some allowed)) :
    ∃ site : Origin netlocFault,
      site.text = allowed ∧ site.netloc = (parts [] siteUrl).netloc := by
  unfold allowedOrigin at kept
  rw [bind_eq_ok] at kept
  obtain ⟨parsed, split, keeps⟩ := kept
  obtain ⟨accepted, rfl⟩ := urlsplit_eq_ok.mp split
  rw [pure_eq_ok] at keeps
  split at keeps
  · rename_i isPublic
    cases keeps
    have hosted : (parts [] siteUrl).netloc ≠ [] := by
      intro empty
      apply isPublic.2.1
      unfold SplitResult.host
      rw [empty]
      rfl
    refine ⟨⟨_, hosted, fun point member => parts_netloc_point member, accepted⟩, ?_, rfl⟩
    rw [isPublic.1]
    rfl
  · cases keeps

namespace Origin

variable (site : Origin netlocFault)

/-- An origin ends with no slash. -/
theorem rstrip : site.text.rdropWhile (fun point => point = mark '/') = site.text := by
  rw [List.rdropWhile_eq_self_iff]
  intro filled
  have last : site.text.getLast filled = site.netloc.getLast site.some_ :=
    List.getLast_append_of_ne_nil _ site.some_
  have ends := (site.plain _ (List.getLast_mem site.some_)).1
  rw [last, decide_eq_true_eq]
  intro slash
  rw [slash] at ends
  cases ends

theorem scheme_append (after : PyStr) : (parts [] (site.text ++ after)).scheme = py "https" := by
  have written : site.text ++ after =
      py "https" ++ mark ':' :: (py "//" ++ site.netloc ++ after) := by
    rw [text, List.append_assoc, List.append_assoc, List.append_assoc]
    rfl
  rw [written]
  exact https_scheme _

/-- A reference has the scheme HTTPS on an origin exactly when it names no other scheme. -/
theorem joined_scheme {url joined : PyStr}
    (ok : urljoin netlocFault (site.text ++ py "/") url = .ok joined) :
    (parts [] joined).scheme = py "https" ↔ (parts [] url).scheme ∈ [[], py "https"] := by
  have base : (parts [] (site.text ++ py "/")).scheme = py "https" := site.scheme_append _
  have filled : py "https" ≠ [] := by decide
  by_cases given : url = []
  · have slash : site.text ++ py "/" ≠ [] := by
      intro empty
      exact absurd (List.append_eq_nil_iff.mp empty).2 (by decide)
    rw [given] at ok ⊢
    unfold urljoin at ok
    rw [if_neg slash, if_pos rfl, pure_eq_ok] at ok
    rw [← ok, base]
    exact iff_of_true rfl (by decide)
  · have relative : py "https" ∈ usesRelative := by decide
    rcases urljoin_scheme (base ▸ filled) (base ▸ relative) given ok with
      ⟨other, same⟩ | ⟨own, after, isJoined⟩
    · rw [base] at other
      rw [same]
      refine iff_of_false ?_ other
      intro https
      exact other (by rw [https]; simp)
    · rw [base] at own isJoined
      rw [isJoined]
      exact iff_of_true (https_scheme after) own

end Origin

/-- What an accepted call sends. -/
theorem BrowserMcpAdapter.request_inv {adapter : BrowserMcpAdapter} {context : ExecutionContext}
    {remoteName : PyStr} {request : BrowserRequest}
    (accepted : adapter.request netlocFault context remoteName arguments = .ok request) :
    origin netlocFault context.agentSnapshot = .ok request.allowedOrigin ∧
      target netlocFault request.allowedOrigin arguments = .ok request.url := by
  unfold BrowserMcpAdapter.request at accepted
  simp only [bind_eq_ok, pure_eq_ok, raiseIf_eq_ok, orRaise_eq_ok] at accepted
  obtain ⟨_, -, _, -, allowed, isOrigin, url, isTarget, _, -, _, -, rfl⟩ := accepted
  exact ⟨isOrigin, isTarget⟩

/-- A target has been compared with its origin. -/
theorem target_inv {allowed url : PyStr} (ok : target netlocFault allowed arguments = .ok url) :
    ∃ path reached expected, pathArgument arguments = .str path ∧
      urljoin netlocFault (allowed ++ py "/") (withoutSlashes path) = .ok url ∧
      urlsplit netlocFault [] url = .ok reached ∧
      urlsplit netlocFault [] allowed = .ok expected ∧ reached.netloc = expected.netloc := by
  unfold target at ok
  simp only [bind_eq_ok, pure_eq_ok, raiseIf_eq_ok, orRaise_eq_ok, mapError_eq_ok] at ok
  obtain ⟨path, isPath, _, -, joined, joins, reached, splits, expected, expects, _, same, rfl⟩ := ok
  refine ⟨path, reached, expected, ?_, joins, splits, expects, not_not.mp same⟩
  cases isArgument : pathArgument arguments with
  | str text =>
    rw [isArgument] at isPath
    exact congrArg Json.str (Option.some.inj isPath)
  | _ =>
    rw [isArgument] at isPath
    cases isPath

/-- The origin a call is made for is the one its snapshot keeps. -/
theorem origin_inv {site : Origin netlocFault} {taken : PyStr} {snapshot : Option Json}
    (named : snapshotOrigin snapshot = .ok site.text)
    (ok : origin netlocFault snapshot = .ok taken) : taken = site.text := by
  unfold origin at ok
  simp only [bind_eq_ok, pure_eq_ok, raiseIf_eq_ok, mapError_eq_ok, named, Except.ok.injEq] at ok
  obtain ⟨_, rfl, _, -, _, -, rfl⟩ := ok
  exact site.rstrip

/-- A call that the adapter accepts stays on the origin its run's snapshot keeps exactly when its
path names no scheme other than HTTPS after its slashes. -/
theorem target_stays_iff (adapter : BrowserMcpAdapter) {siteUrl allowed : PyStr}
    (kept : allowedOrigin netlocFault siteUrl = .ok (some allowed)) {context : ExecutionContext}
    (named : snapshotOrigin context.agentSnapshot = .ok allowed) {remoteName : PyStr}
    {arguments : List (PyStr × Json)} {request : BrowserRequest}
    (accepted : adapter.request netlocFault context remoteName arguments = .ok request) :
    StaysOn netlocFault allowed request.url ↔ PlainPath arguments := by
  obtain ⟨site, rfl, -⟩ := exists_origin kept
  obtain ⟨takesOrigin, takesTarget⟩ := BrowserMcpAdapter.request_inv accepted
  rw [origin_inv named takesOrigin] at takesTarget
  obtain ⟨path, reached, expected, isPath, joins, splits, expects, same⟩ := target_inv takesTarget
  have scheme := site.joined_scheme joins
  obtain ⟨-, rfl⟩ := urlsplit_eq_ok.mp splits
  constructor
  · rintro ⟨other, _, otherSplit, -, https, -⟩ path' isPath'
    obtain ⟨-, rfl⟩ := urlsplit_eq_ok.mp otherSplit
    rw [isPath] at isPath'
    cases isPath'
    exact scheme.mp https
  · intro plain
    exact ⟨_, expected, splits, expects, scheme.mpr (plain path isPath), same⟩

/-! ## The origins runs are created with -/

section Creation

variable {drafting : Connector.Drafting} {host : Connector.Host} {publicName : String}
  {toolId : Uuid} {drafted next : Run.Store × Connector.RunContracts}

end Creation

/-! ## A path that leaves HTTPS -/

/-- A run of an agent whose site is `https://example.com`. -/
def exampleContext : ExecutionContext where
  jobId := 1
  workspaceId := 2
  runId := 3
  agentId := 4
  traceId := 5
  inputText := py "Check the services page"
  instructions := none
  modelProfile := none
  attemptCount := 1
  agentKind := .standard
  agentSnapshot := some (.object [(py "browser",
    .object [(py "allowed_origin", .str (py "https://example.com"))])])
  allowedTools := none
  toolAliases := none

def exampleAdapter : BrowserMcpAdapter := ⟨py "http://browser.internal:8080", py "token"⟩

/-- What the adapter sends for that run to have a page inspected. -/
def exampleRequest (url : PyStr) : BrowserRequest where
  endpoint := py "http://browser.internal:8080/inspect"
  authorization := py "Bearer token"
  url := url
  allowedOrigin := py "https://example.com"
  action := none

theorem target_stays_iff_services :
    StaysOn (fun _ => none) (py "https://example.com") (py "https://example.com/services") ↔
      PlainPath [(py "path", .str (py "/services"))] :=
  @target_stays_iff (fun _ => none) exampleAdapter (py "https://example.com/home")
    (py "https://example.com") rfl exampleContext rfl (py "page.inspect")
    [(py "path", .str (py "/services"))] (exampleRequest (py "https://example.com/services"))
    (by decide +kernel)

/-- A path with a scheme after its slash leaves HTTPS. -/
theorem scheme_path_leaves_https :
    allowedOrigin (fun _ => none) (py "https://example.com") =
        .ok (some (py "https://example.com")) ∧
      snapshotOrigin exampleContext.agentSnapshot = .ok (py "https://example.com") ∧
      exampleAdapter.request (fun _ => none) exampleContext (py "page.inspect")
        [(py "path", .str (py "/http://example.com/login"))] =
        .ok (exampleRequest (py "http://example.com/login")) ∧
      ¬ StaysOn (fun _ => none) (py "https://example.com") (py "http://example.com/login") := by
  have scheme : (parts [] (py "http://example.com/login")).scheme = py "http" := by
    decide +kernel
  refine ⟨by decide +kernel, rfl, by decide +kernel, ?_⟩
  rintro ⟨reached, _, splits, -, https, -⟩
  obtain ⟨-, rfl⟩ := urlsplit_eq_ok.mp splits
  rw [scheme] at https
  exact absurd https (by decide)

end Nexora.Browser
