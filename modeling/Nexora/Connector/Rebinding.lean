import Nexora.Connector.Runtime

/-!
# The addresses a call connects to

The guard of a capability call asks the resolver for the addresses of the host and checks each of
them. The HTTP client is given the name, not an address, and asks the resolver again when it
connects. The addresses of that second answer have been checked only as far as the first answer
named them.
-/

namespace Nexora.Connector

open Nexora.Std Nexora.Integration Nexora.Tenant Json

/-- The addresses an answer names. -/
def Resolution.addresses : Resolution → List String
  | .records addresses => addresses
  | .gaierror | .raised => []

/-- The internet during one call: what the resolver answers to each question in turn, which
addresses accept a connection and what is replied there. -/
structure Internet where
  resolve : Nat → String → Nat → Resolution
  accepts : String → Bool
  reply : String → HttpRequest → Reply

/-- The addresses a client tries, in order, until one of them accepts. -/
def tried (accepts : String → Bool) : List String → List String
  | [] => []
  | address :: rest => if accepts address then [address] else address :: tried accepts rest

namespace Internet

variable (internet : Internet)

/-- The addresses the client connects to when it sends a request: those of a question of its
own. -/
def dialled (library : Library) (request : HttpRequest) : List String :=
  match requestTarget library request with
  | .ok target => tried internet.accepts (internet.resolve 1 target.1 target.2).addresses
  | .error _ => []

/-- What sending a request comes to. -/
def send (library : Library) (request : HttpRequest) : Reply :=
  match (internet.dialled library request).find? internet.accepts with
  | some address => internet.reply address request
  | none => .httpError

/-- The network a call finds: the guard asks first. -/
def network (library : Library) : Network where
  getaddrinfo := internet.resolve 0
  request := internet.send library

end Internet

/-- A capability call with everything it is given. -/
structure CapabilityCall where
  definition : ConnectorManifest
  capability : String
  credential : Dict String
  config : Dict String
  arguments : List (PyStr × Json)

namespace CapabilityCall

variable (library : Library) (internet : Internet) (call : CapabilityCall)

/-- The host and port a call goes to. -/
def target : Except Leaving (String × Nat) := do
  let request ← buildRequest library call.definition call.capability call.credential call.config
    call.arguments
  requestTarget library request

/-- The request a call sends once its guard has passed. -/
def prepared : Except Leaving HttpRequest :=
  prepare library (internet.network library) call.definition call.capability call.credential
    call.config call.arguments

/-- The addresses a call connects to. -/
def connections : List String :=
  match call.prepared library internet with
  | .ok request => internet.dialled library request
  | .error _ => []

/-- `invoke` over the internet. -/
def answer : Except Leaving ConnectorAnswer :=
  invoke library (internet.network library) call.definition call.capability call.credential
    call.config call.arguments

end CapabilityCall

/-- The guard passes exactly when the resolver names public addresses alone. -/
theorem resolvablePublicHost_eq_ok (library : Library) (network : Network) (host : String)
    (port : Nat) :
    resolvablePublicHost library network host port = .ok () ↔
      ∃ checked, network.getaddrinfo host port = .records checked ∧
        ∀ address ∈ checked, library.ipIsGlobal address = some true := by
  unfold resolvablePublicHost
  cases network.getaddrinfo host port with
  | gaierror | raised => simp
  | records addresses =>
    simp only [Resolution.records.injEq, exists_eq_left', List.forM_eq_forM]
    induction addresses with
    | nil => simp
    | cons address rest ih =>
      rw [List.forM_cons, bind_eq_ok, List.forall_mem_cons, ← ih]
      cases library.ipIsGlobal address with
      | none => simp
      | some isGlobal => simp

/-- Every address of a list is tried when none accepts. -/
theorem tried_all (addresses : List String) : tried (fun _ => false) addresses = addresses := by
  induction addresses with
  | nil => rfl
  | cons address rest ih => simp [tried, ih]

/-- Only listed addresses are tried. -/
theorem mem_of_mem_tried {accepts : String → Bool} {address : String} {addresses : List String}
    (member : address ∈ tried accepts addresses) : address ∈ addresses := by
  induction addresses with
  | nil => cases member
  | cons first rest ih =>
    unfold tried at member
    split at member
    · rw [List.mem_singleton.mp member]
      exact List.mem_cons_self ..
    · rcases List.mem_cons.mp member with rfl | later
      · exact List.mem_cons_self ..
      · exact List.mem_cons_of_mem _ (ih later)

/-- Whatever accepts a connection, a call connects only to public addresses that its guard has
checked. -/
def StaysPublic (library : Library) (internet : Internet) (call : CapabilityCall) : Prop :=
  ∀ accepts, ∀ address ∈ call.connections library { internet with accepts := accepts },
    library.ipIsGlobal address = some true ∧
      ∃ target, call.target library = .ok target ∧
        address ∈ (internet.resolve 0 target.1 target.2).addresses

/-- Asked again about a host it has named public addresses for, the resolver names no other. -/
def RepeatsAnswer (library : Library) (internet : Internet) (host : String) (port : Nat) : Prop :=
  ∀ checked, internet.resolve 0 host port = .records checked →
    (∀ address ∈ checked, library.ipIsGlobal address = some true) →
      ∀ address ∈ (internet.resolve 1 host port).addresses, address ∈ checked

/-- A prepared call has built its request, and its guard has passed. -/
theorem CapabilityCall.prepared_eq_ok (library : Library) (internet : Internet)
    (call : CapabilityCall) (request : HttpRequest) :
    call.prepared library internet = .ok request ↔
      buildRequest library call.definition call.capability call.credential call.config
        call.arguments = .ok request ∧
      ∃ target, requestTarget library request = .ok target ∧
        ∃ checked, internet.resolve 0 target.1 target.2 = .records checked ∧
          ∀ address ∈ checked, library.ipIsGlobal address = some true := by
  simp only [CapabilityCall.prepared, prepare, bind_eq_ok, pure_eq_ok, Internet.network]
  constructor
  · rintro ⟨built, isBuilt, target, isTarget, _, passed, rfl⟩
    exact ⟨isBuilt, target, isTarget, (resolvablePublicHost_eq_ok ..).mp passed⟩
  · rintro ⟨isBuilt, target, isTarget, passed⟩
    exact ⟨request, isBuilt, target, isTarget, (), (resolvablePublicHost_eq_ok ..).mpr passed, rfl⟩

/-- A call stays on public addresses exactly when the resolver repeats its answer. -/
theorem connector_egress_public (library : Library) (internet : Internet)
    (call : CapabilityCall) :
    StaysPublic library internet call ↔
      ∀ target, call.target library = .ok target →
        RepeatsAnswer library internet target.1 target.2 := by
  constructor
  · intro public_ target isTarget checked answered global address second
    obtain ⟨request, isBuilt, isHost⟩ := (bind_eq_ok _ _ _).mp isTarget
    have prepared : call.prepared library { internet with accepts := fun _ => false } =
        .ok request :=
      (call.prepared_eq_ok ..).mpr ⟨isBuilt, target, isHost, checked, answered, global⟩
    have connected : address ∈
        call.connections library { internet with accepts := fun _ => false } := by
      simp only [CapabilityCall.connections, prepared, Internet.dialled, isHost, tried_all]
      exact second
    obtain ⟨-, other, isOther, named⟩ := public_ _ address connected
    obtain rfl := Except.ok.inj (isTarget.symm.trans isOther)
    rw [answered] at named
    exact named
  · intro repeats accepts address connected
    unfold CapabilityCall.connections at connected
    split at connected
    · rename_i request isPrepared
      obtain ⟨isBuilt, target, isHost, checked, answered, global⟩ :=
        (call.prepared_eq_ok ..).mp isPrepared
      have isTarget : call.target library = .ok target :=
        (bind_eq_ok _ _ _).mpr ⟨request, isBuilt, isHost⟩
      simp only [Internet.dialled, isHost] at connected
      have named := repeats target isTarget checked answered global address
        (mem_of_mem_tried connected)
      refine ⟨global address named, target, isTarget, ?_⟩
      rw [answered]
      exact named
    · cases connected

/-- A tenant's own interface, reached with a bearer token at the base URL the tenant declares. -/
def customRest : ConnectorManifest where
  id := "custom-rest"
  name := "Custom REST API"
  description := "A tenant-owned HTTPS API reached with a bearer token."
  category := "custom"
  icon := "plug"
  version := ⟨1, 1, 0⟩
  status := .available
  auth := .bearerToken
  capabilities := ["request.read"]
  scopes := []
  credentialFields :=
    [{ key := "base_url", label := "API base URL", secret := false, required := true,
       help := "", pattern := none },
     { key := "access_token", label := "Bearer token", secret := true, required := true,
       help := "", pattern := none }]
  oauth := none
  testCapability := some "request.read"
  baseUrl := none
  baseUrlField := some "base_url"
  credentialPlacement := some
    { kind := .bearerHeader, valueField := "access_token", usernameField := none,
      header := none, queryParameter := none }
  endpoints :=
    [{ capability := "request.read", method := .get, path := "/",
       description := "Connector capability", sideEffect := .read, retry := .safe,
       inputSchema := defaultInputSchema, outputSchema := none }]

/-- A read through the tenant's interface at `https://example.com`. -/
def customRead : CapabilityCall where
  definition := customRest
  capability := "request.read"
  credential := ⟨[("access_token", "token")], by decide⟩
  config := ⟨[("base_url", "https://example.com")], by decide⟩
  arguments := []

/-- The library on two addresses, one public and one of the link-local network. -/
def addressLibrary : Library :=
  { exampleLibrary with
    ipIsGlobal := fun text =>
      if text = "93.184.216.34" then some true
      else if text = "169.254.169.254" then some false
      else none }

/-- A name that points at a public address first and at the link-local network then. -/
def rebound : Internet where
  resolve := fun question _ _ =>
    .records [if question = 0 then "93.184.216.34" else "169.254.169.254"]
  accepts := fun _ => true
  reply := fun _ _ => .response 200 none

/-- The client follows a name to an address that the guard has not seen. -/
theorem rebound_name_reaches_inside :
    ¬ ∀ (library : Library) (runtime : Tools.Runtime) (internet : Internet)
        (call : CapabilityCall), call.definition.validate library runtime = .ok () →
        StaysPublic library internet call := by
  intro always
  have public_ := always addressLibrary exampleRuntime rebound customRead (by decide +kernel)
    (fun _ => true) "169.254.169.254" (by decide +kernel)
  exact absurd public_.1 (by decide)

end Nexora.Connector
