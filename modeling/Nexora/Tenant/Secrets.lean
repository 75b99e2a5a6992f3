import Nexora.Tenant.Writers

/-!
# The stored secret

Every writer of a connection keeps what it knows of the row, because whoever could change it
needs a lock that the writer holds. An agent's call is the exception while it has inserted
its credential and not yet updated the row: another call may replace the same reference.
Where no call comes to that, a connection has at most one credential, and points to it.
-/

namespace Nexora.Tenant.Vault

open Nexora.Std Nexora.Integration Nexora.Workspace

variable {deployment : Deployment} {state next : State} {statement : Statement} {id : Nat}
  {tx changed : Tx} {previous : Option Uuid}

theorem Lock.conflicts_symm (first second : Lock) :
    first.conflicts second = second.conflicts first := by
  cases first <;> cases second <;> rfl

/-- What holds between the transactions in progress and the committed row. -/
structure Sound (state : State) : Prop where
  exclusive : Exclusive Tx.locks Lock.conflicts state.running
  holds : ∀ id tx, state.running.find? id = some tx → Holds tx
  coherent : ∀ id tx, state.running.find? id = some tx → Coherent state.committed.integration tx

theorem Sound.initial (opening : Opening state) : Sound state where
  exclusive := by
    rw [opening.quiet]
    exact .empty
  holds id tx present := by simp [opening.quiet] at present
  coherent id tx present := by simp [opening.quiet] at present

namespace Sound

theorem begun (sound : Sound state) (id : Nat) (work : Work) :
    Sound (state.progress id (.start work)) where
  exclusive := sound.exclusive.put_unlocked Lock.conflicts_symm rfl
  holds other tx present := by
    obtain ⟨rfl, rfl⟩ | ⟨_, present⟩ := (Table.Written.put _ _ _).found present
    · exact .start work
    · exact sound.holds other tx present
  coherent other tx present := by
    obtain ⟨rfl, rfl⟩ | ⟨_, present⟩ := (Table.Written.put _ _ _).found present
    · exact .start _ work
    · exact sound.coherent other tx present

theorem advanced (sound : Sound state) (present : state.running.find? id = some tx)
    (advance : Advance state id tx statement changed) : Sound (state.progress id changed) where
  exclusive := by
    refine sound.exclusive.put Lock.conflicts_symm ?_
    intro other otherTx distinct otherPresent lock own held holds
    rcases advance.locks own with earlier | granted
    · exact sound.exclusive id other tx otherTx distinct.symm present otherPresent lock earlier
        held holds
    · exact not_blocked granted distinct otherPresent holds
  holds other otherTx found := by
    obtain ⟨rfl, rfl⟩ | ⟨_, found⟩ := (Table.Written.put _ _ _).found found
    · exact advance.holds (sound.holds _ _ present)
    · exact sound.holds other otherTx found
  coherent other otherTx found := by
    obtain ⟨rfl, rfl⟩ | ⟨_, found⟩ := (Table.Written.put _ _ _).found found
    · exact advance.coherent (sound.holds _ _ present) (sound.coherent _ _ present)
    · exact sound.coherent other otherTx found

theorem aborted (sound : Sound state) (id : Nat) :
    Sound { state with running := state.running.erase id } where
  exclusive := sound.exclusive.erase id
  holds other tx present := sound.holds other tx (Table.of_find?_erase present).2
  coherent other tx present := sound.coherent other tx (Table.of_find?_erase present).2

end Sound

theorem State.leaves_integration (state : State) (tx : Tx) (unchanged : ¬ tx.changes) :
    (state.leaves tx).integration = state.committed.integration := by
  simp only [Tx.changes, not_or, not_not] at unchanged
  simp [State.leaves, unchanged, State.row]

theorem Tx.workspace_conflict {first second : List Lock}
    (exclusive : ∀ lock ∈ first, ∀ held ∈ second, Lock.conflicts lock held = false)
    (shares : .workspaceUpdate ∈ first ∨ .workspaceKeyShare ∈ first) :
    .workspaceUpdate ∉ second := by
  intro held
  rcases shares with shares | shares
  · exact absurd (exclusive _ shares _ held) (by decide)
  · exact absurd (exclusive _ shares _ held) (by decide)

theorem Tx.row_conflict {first second : List Lock}
    (exclusive : ∀ lock ∈ first, ∀ held ∈ second, Lock.conflicts lock held = false)
    (writes : .rowUpdate ∈ first ∨ .rowNoKeyUpdate ∈ first) :
    ¬ (.rowUpdate ∈ second ∨ .rowNoKeyUpdate ∈ second) := by
  rintro (held | held) <;> rcases writes with writes | writes <;>
    exact absurd (exclusive _ writes _ held) (by decide)

namespace Sound

variable {other : Nat} {otherTx : Tx}

/-- While a transaction changes the row, no other one has its own version of it. -/
theorem others_unread (sound : Sound state) (present : state.running.find? id = some tx)
    (changes : tx.changes) (distinct : other ≠ id)
    (otherPresent : state.running.find? other = some otherTx) : otherTx.row = none := by
  have exclusive := sound.exclusive id other tx otherTx distinct.symm present otherPresent
  have rowFree := Tx.row_conflict exclusive ((sound.holds id tx present).changed changes).2
  by_contra has
  exact rowFree ((sound.holds other otherTx otherPresent).changed (.inl has)).2

/-- While a transaction changes the row, no other one has read it for good. -/
theorem others_blank (sound : Sound state) (present : state.running.find? id = some tx)
    (changes : tx.changes) (distinct : other ≠ id)
    (otherPresent : state.running.find? other = some otherTx) (current : Option IntegrationRow) :
    Coherent current otherTx := by
  have exclusive := sound.exclusive id other tx otherTx distinct.symm present otherPresent
  have ⟨workspace, row⟩ := (sound.holds id tx present).changed changes
  have rowFree := Tx.row_conflict exclusive row
  have workspaceFree := Tx.workspace_conflict exclusive workspace
  have holds := sound.holds other otherTx otherPresent
  have unread := sound.others_unread present changes distinct otherPresent
  refine .blank (fun row isLocked => rowFree (.inl (holds.locked row isLocked))) unread ?_
  intro records
  by_contra early
  rw [not_or] at early
  refine workspaceFree (holds.inScope early.1 ?_)
  cases work : otherTx.work <;> simp_all [Work.recordsRow, Work.caller]

theorem committed (sound : Sound state) (present : state.running.find? id = some tx) :
    Sound { state with committed := state.leaves tx, running := state.running.erase id } where
  exclusive := sound.exclusive.erase id
  holds other otherTx found := sound.holds other otherTx (Table.of_find?_erase found).2
  coherent other otherTx found := by
    have ⟨distinct, otherPresent⟩ := Table.of_find?_erase found
    by_cases changes : tx.changes
    · exact sound.others_blank present changes distinct otherPresent _
    · have same := state.leaves_integration tx changes
      simpa only [same] using sound.coherent other otherTx otherPresent

end Sound

theorem Sound.step (sound : Sound state) (ok : run deployment state statement = .ok next) :
    Sound next := by
  cases effect ok with
  | begun id work => exact sound.begun id work
  | advanced present advance => exact sound.advanced present advance
  | committed present done => exact sound.committed present
  | aborted id => exact sound.aborted id

theorem Sound.ofRuns {history : List (Transition State Statement)}
    (runs : (machine deployment).Runs history state) : Sound state :=
  runs.invariant Sound (fun _ opening => .initial opening)
    (fun _ _ _ sound transition => sound.step transition)

/-- The reference a transaction replaces, once it has written its own over it. -/
def Secret.replaces : Secret → Option (Option Uuid)
  | .referenced _ _ previous | .replaced _ _ previous => some previous
  | _ => none

/-- A writer that replaces the reference has read the one that the row still has. -/
def readsCurrent (transition : Transition State Statement) : Bool :=
  match transition.label with
  | .updateRow id _ =>
    (transition.before.running.find? id).all fun tx =>
      match tx.secret with
      | .read _ _ previous =>
        (transition.before.row tx).all fun row => row.credentialReference = previous
      | _ => true
  | _ => true

/-- What an admitted update of the row has read. -/
theorem readsCurrent_update {now : Instant} {credentialId : Uuid} {credential : CredentialRow}
    {row : IntegrationRow} (admitted : readsCurrent ⟨state, .updateRow id now, next⟩ = true)
    (present : state.running.find? id = some tx)
    (read : tx.secret = .read credentialId credential previous) (sees : state.row tx = some row) :
    row.credentialReference = previous := by
  simpa [readsCurrent, present, read, sees] using admitted

/-- One secret at most, and none of the credentials in progress is the stored one. -/
structure Single (state : State) : Prop where
  sound : Sound state
  oneSecret : OneSecret state.committed
  fresh : ∀ id tx credentialId, state.running.find? id = some tx →
    tx.secret.credentialId = some credentialId →
      state.committed.credentials.find? credentialId = none
  distinct : ∀ first second firstTx secondTx credentialId, first ≠ second →
    state.running.find? first = some firstTx → state.running.find? second = some secondTx →
      firstTx.secret.credentialId = some credentialId →
        secondTx.secret.credentialId ≠ some credentialId
  replaces : ∀ id tx previous, state.running.find? id = some tx →
    tx.secret.replaces = some previous → ∀ row, state.committed.integration = some row →
      row.credentialReference = previous

theorem Single.initial (opening : Opening state) : Single state where
  sound := .initial opening
  oneSecret := opening.oneSecret
  fresh id tx _ present := by simp [opening.quiet] at present
  distinct first _ _ _ _ _ present := by simp [opening.quiet] at present
  replaces id tx _ present := by simp [opening.quiet] at present

namespace Advance

/-- A credential in progress is the one it was, or one nobody has. -/
theorem credentialId (advance : Advance state id tx statement changed) {credentialId : Uuid}
    (inserted : changed.secret.credentialId = some credentialId) :
    tx.secret.credentialId = some credentialId ∨
      state.committed.credentials.find? credentialId = none ∧
        ∀ other otherTx, state.running.find? other = some otherTx →
          otherTx.secret.credentialId ≠ some credentialId := by
  cases advance with
  | inserted fresh credential now writing unwritten granted new unused =>
    cases inserted
    exact .inr ⟨by simpa using new, unused⟩
  | read earlier => exact .inl (by simpa [Secret.credentialId, earlier] using inserted)
  | referenced now earlier => exact .inl (by simpa [Secret.credentialId, earlier] using inserted)
  | replaced earlier => exact .inl (by simpa [Secret.credentialId, earlier] using inserted)
  | _ => exact .inl inserted

/-- A transaction replaces a reference from its update of the row on. -/
theorem replaces (advance : Advance state id tx statement changed)
    (replaced : changed.secret.replaces = some previous) :
    tx.secret.replaces = some previous ∨ ∃ now credentialId credential row,
      statement = .updateRow id now ∧ tx.secret = .read credentialId credential previous ∧
        state.row tx = some row := by
  cases advance with
  | inserted | read => cases replaced
  | referenced now read granted found =>
    cases replaced
    exact .inr ⟨now, _, _, _, rfl, read, found⟩
  | replaced earlier => exact .inl (by simpa [Secret.replaces, earlier] using replaced)
  | _ => exact .inl replaced

end Advance

theorem Secret.reference_of_replaces {secret : Secret}
    (replaces : secret.replaces = some previous) :
    ∃ credentialId, secret.reference = some credentialId := by
  cases secret <;> simp_all [Secret.replaces, Secret.reference]

/-- A transaction leaves no credential but its own and those that are stored. -/
theorem Secret.find?_leaves (secret : Secret) {credentials : Table Uuid CredentialRow}
    {credentialId : Uuid} (absent : credentials.find? credentialId = none)
    (other : secret.credentialId ≠ some credentialId) :
    (secret.leaves credentials).find? credentialId = none := by
  have apart : ∀ own, secret.credentialId = some own → credentialId ≠ own := by
    rintro own same rfl
    exact other same
  cases secret with
  | unwritten => exact absent
  | replaced own credential previous =>
    cases previous with
    | none => simp [Secret.leaves, apart own rfl, absent]
    | some previous =>
      simp [Secret.leaves, apart own rfl, Table.find?_erase, absent]
  | inserted own | read own | referenced own =>
    simp [Secret.leaves, apart own rfl, absent]

namespace Single

theorem begun (single : Single state) (id : Nat) (work : Work) :
    Single (state.progress id (.start work)) where
  sound := single.sound.begun id work
  oneSecret := single.oneSecret
  fresh other tx credentialId present inserted := by
    obtain ⟨rfl, rfl⟩ | ⟨_, present⟩ := (Table.Written.put _ _ _).found present
    · cases inserted
    · exact single.fresh other tx credentialId present inserted
  distinct first second firstTx secondTx credentialId apart present secondPresent inserted := by
    obtain ⟨rfl, rfl⟩ | ⟨_, present⟩ := (Table.Written.put _ _ _).found present
    · cases inserted
    · obtain ⟨rfl, rfl⟩ | ⟨_, secondPresent⟩ := (Table.Written.put _ _ _).found secondPresent
      · simp [Tx.start, Secret.credentialId]
      · exact single.distinct first second firstTx secondTx credentialId apart present
          secondPresent inserted
  replaces other tx previous present replaced := by
    obtain ⟨rfl, rfl⟩ | ⟨_, present⟩ := (Table.Written.put _ _ _).found present
    · cases replaced
    · exact single.replaces other tx previous present replaced

theorem advanced (single : Single state) (present : state.running.find? id = some tx)
    (advance : Advance state id tx statement changed)
    (current : readsCurrent ⟨state, statement, state.progress id changed⟩ = true) :
    Single (state.progress id changed) where
  sound := single.sound.advanced present advance
  oneSecret := single.oneSecret
  fresh other otherTx credentialId found inserted := by
    obtain ⟨rfl, rfl⟩ | ⟨_, found⟩ := (Table.Written.put _ _ _).found found
    · rcases advance.credentialId inserted with earlier | ⟨new, _⟩
      · exact single.fresh _ tx credentialId present earlier
      · exact new
    · exact single.fresh other otherTx credentialId found inserted
  distinct first second firstTx secondTx credentialId apart found secondFound inserted := by
    obtain ⟨rfl, rfl⟩ | ⟨_, firstFound⟩ := (Table.Written.put _ _ _).found found
    · have ⟨_, secondFound⟩ := ((Table.Written.put _ _ _).found secondFound).resolve_left
        fun same => apart same.1.symm
      rcases advance.credentialId inserted with earlier | ⟨_, unused⟩
      · exact single.distinct _ second tx secondTx credentialId apart present secondFound earlier
      · exact unused second secondTx secondFound
    · obtain ⟨rfl, rfl⟩ | ⟨_, secondFound⟩ := (Table.Written.put _ _ _).found secondFound
      · intro same
        rcases advance.credentialId same with earlier | ⟨_, unused⟩
        · exact single.distinct first _ firstTx tx credentialId apart firstFound present inserted
            earlier
        · exact unused first firstTx firstFound inserted
      · exact single.distinct first second firstTx secondTx credentialId apart firstFound
          secondFound inserted
  replaces other otherTx previous found replaced row committed := by
    obtain ⟨rfl, rfl⟩ | ⟨_, found⟩ := (Table.Written.put _ _ _).found found
    · rcases advance.replaces replaced with earlier | ⟨now, _, _, seen, isUpdate, read, sees⟩
      · exact single.replaces _ tx previous present earlier row committed
      · subst isUpdate
        have isCurrent := readsCurrent_update current present read sees
        have ⟨earlier, same, reference⟩ := (single.sound.coherent _ tx present).sees sees
        obtain rfl : earlier = row := Option.some.inj (same.symm.trans committed)
        rw [← reference (by simp [read, Secret.reference]), isCurrent]
    · exact single.replaces other otherTx previous found replaced row committed

/-- A transaction that is done has replaced the secret or left it alone. -/
theorem isDone_secret (holds : Holds tx) (done : tx.isDone = true) :
    tx.secret = .unwritten ∨ ∃ credentialId credential previous,
      tx.secret = .replaced credentialId credential previous := by
  by_cases unwritten : tx.secret = .unwritten
  · exact .inl unwritten
  · refine .inr ?_
    rcases holds.storing unwritten with ⟨document, expiresAt, writing⟩ | ⟨_, replaced⟩
    · cases written : tx.secret with
      | replaced credentialId credential previous => exact ⟨_, _, _, rfl⟩
      | _ => cases work : tx.work <;> simp [Tx.isDone, writing, written, work] at done
    · exact replaced

/-- What a transaction that is done leaves has one secret again. -/
theorem leaves (single : Single state) (present : state.running.find? id = some tx)
    (done : tx.isDone = true) : OneSecret (state.leaves tx) := by
  have coherent := single.sound.coherent id tx present
  have holds := single.sound.holds id tx present
  intro stored
  by_cases removed : tx.stage = .removed
  · simp [State.leaves, removed]
  rw [State.leaves, if_neg removed]
  rcases isDone_secret holds done with unwritten | ⟨credentialId, credential, previous, replaced⟩
  · -- Without a new secret the row keeps its reference.
    simp only [unwritten, Secret.leaves]
    rw [single.oneSecret stored]
    constructor
    · rintro ⟨earlier, committed, refers⟩
      cases own : tx.row with
      | none => exact ⟨earlier, by simp [State.row, own, committed], refers⟩
      | some row =>
        obtain ⟨same, found, reference⟩ := coherent.kept row own
        obtain rfl : same = earlier := Option.some.inj (found.symm.trans committed)
        exact ⟨row, by simp [State.row, own],
          (reference (by simp [unwritten, Secret.reference])).trans refers⟩
    · rintro ⟨row, sees, refers⟩
      obtain ⟨earlier, committed, reference⟩ := coherent.sees sees
      exact ⟨earlier, committed,
        (reference (by simp [unwritten, Secret.reference])).symm.trans refers⟩
  · -- The new secret is the only one, for the old one is the one that was read.
    obtain ⟨row, own, refers⟩ := holds.referenced credentialId
      (by simp [replaced, Secret.reference])
    obtain ⟨earlier, committed, _⟩ := coherent.kept row own
    have was := single.replaces id tx previous present (by simp [replaced, Secret.replaces])
      earlier committed
    have sees : state.row tx = some row := by simp [State.row, own]
    simp only [sees, Option.some.injEq, exists_eq_left', refers, replaced, Secret.leaves,
      Table.find?_put_eq]
    by_cases isNew : stored = credentialId
    · simp [isNew]
    · have old := single.oneSecret stored
      simp only [committed, Option.some.injEq, exists_eq_left', was] at old
      simp only [if_neg isNew, Ne.symm isNew, iff_false, Bool.not_eq_true]
      cases previous with
      | none => simpa using old
      | some former =>
        rw [Table.find?_erase]
        split
        case isTrue => rfl
        case isFalse other => simpa [Ne.symm other] using old

theorem committed (single : Single state) (present : state.running.find? id = some tx)
    (done : tx.isDone = true) :
    Single { state with committed := state.leaves tx, running := state.running.erase id } where
  sound := single.sound.committed present
  oneSecret := single.leaves present done
  fresh other otherTx credentialId found inserted := by
    have ⟨distinct, found⟩ := Table.of_find?_erase found
    have absent := single.fresh other otherTx credentialId found inserted
    have own := single.distinct id other tx otherTx credentialId distinct.symm present found
    simp only [State.leaves]
    split
    · rfl
    · exact tx.secret.find?_leaves absent fun same => own same inserted
  distinct first second firstTx secondTx credentialId apart found secondFound :=
    single.distinct first second firstTx secondTx credentialId apart
      (Table.of_find?_erase found).2 (Table.of_find?_erase secondFound).2
  replaces other otherTx previous found replaced row committed := by
    have ⟨distinct, found⟩ := Table.of_find?_erase found
    have holds := single.sound.holds other otherTx found
    by_cases changes : tx.changes
    · -- The other one would have its own version of the row.
      obtain ⟨credentialId, reference⟩ := Secret.reference_of_replaces replaced
      obtain ⟨mine, own, _⟩ := holds.referenced credentialId reference
      simp [single.sound.others_unread present changes distinct found] at own
    · rw [state.leaves_integration tx changes] at committed
      exact single.replaces other otherTx previous found replaced row committed

theorem aborted (single : Single state) (id : Nat) :
    Single { state with running := state.running.erase id } where
  sound := single.sound.aborted id
  oneSecret := single.oneSecret
  fresh other tx credentialId found := single.fresh other tx credentialId
    (Table.of_find?_erase found).2
  distinct first second firstTx secondTx credentialId apart found secondFound :=
    single.distinct first second firstTx secondTx credentialId apart
      (Table.of_find?_erase found).2 (Table.of_find?_erase secondFound).2
  replaces other tx previous found := single.replaces other tx previous
    (Table.of_find?_erase found).2

theorem step (single : Single state) (ok : run deployment state statement = .ok next)
    (current : readsCurrent ⟨state, statement, next⟩ = true) : Single next := by
  cases effect ok with
  | begun id work => exact single.begun id work
  | advanced present advance => exact single.advanced present advance current
  | committed present done => exact single.committed present done
  | aborted id => exact single.aborted id

end Single

/-- Where no writer replaces a reference that has changed since it was read, the connection
has at most one secret and points to the one it has. -/
theorem oneSecret_of_current (deployment : Deployment)
    (history : List (Transition State Statement)) (state : State)
    (runs : (machine deployment).Runs history state)
    (current : ∀ transition ∈ history, readsCurrent transition = true) :
    OneSecret state.committed :=
  (runs.invariantWhile Single (fun transition => readsCurrent transition = true)
    (fun _ opening => .initial opening)
    (fun _ _ _ single transition admitted => single.step transition admitted) current).oneSecret

/-- The published Search Console connector, down to one of its endpoints. -/
def searchConsole : ConnectorManifest where
  id := "google-search-console"
  name := "Google Search Console"
  description := "Search Console API."
  category := "analytics"
  icon := "search"
  version := ⟨1, 0, 0⟩
  status := .available
  auth := .oauth2
  capabilities := ["search-analytics.read"]
  scopes := ["https://www.googleapis.com/auth/webmasters.readonly"]
  credentialFields := []
  oauth := some
    { authorizeUrl := "https://accounts.google.com/o/oauth2/v2/auth"
      tokenUrl := "https://oauth2.googleapis.com/token"
      defaultScopes := ["https://www.googleapis.com/auth/webmasters.readonly"]
      refreshable := true, refreshMarginSeconds := 300 }
  testCapability := some "search-analytics.read"
  baseUrl := some "https://searchconsole.googleapis.com"
  baseUrlField := none
  credentialPlacement := some
    { kind := .bearerHeader, valueField := "access_token", usernameField := none, header := none,
      queryParameter := none }
  endpoints :=
    [{ capability := "search-analytics.read", method := .get, path := "/webmasters/v3/sites",
       description := "Connector capability", sideEffect := .read, retry := .safe,
       inputSchema := defaultInputSchema, outputSchema := none }]

/-- A deployment registered with that provider. -/
def registeredDeployment : Deployment where
  library := exampleLibrary
  sha256 := fun _ => 0
  vaultAvailable := true
  oauthClients := ["google-search-console"]
  runtimeVersion := ⟨1, 0, 0⟩

/-- The tokens of the first authorization. -/
def firstTokens : TokenAnswer where
  accessToken := "first"
  refreshToken := some "renew"
  expiresAt := some 10
  grantedScopes := none

/-- The tokens of a renewal. -/
def laterTokens : TokenAnswer where
  accessToken := "later"
  refreshToken := none
  expiresAt := some 20
  grantedScopes := none

/-- Who may manage the connection. -/
def manager : Principal := ⟨"nexora", "manager"⟩

/-- A connection as its authorization left it, with an access token about to expire. -/
def authorized : State where
  workspaceId := 7
  integrationId := 20
  memberships := Table.ofList [((7, manager), .admin)]
  committed :=
    { integration := some
        { workspaceId := 7, integrationDefinitionId := "google-search-console"
          displayName := "Site", accountIdentifier := "site", authType := .oauth2
          credentialReference := some 21, status := .connected
          scopes := ["https://www.googleapis.com/auth/webmasters.readonly"]
          grantedScopes := ["https://www.googleapis.com/auth/webmasters.readonly"]
          config := ⟨[], List.nodup_nil⟩, createdAt := 1, updatedAt := 1, lastTestedAt := none
          lastSuccessAt := none, lastError := none }
      credentials := Table.ofList [(21,
        { workspaceId := 7, tenantIntegrationId := 20, document := firstTokens.document
          expiresAt := some 10, createdAt := 1 })] }
  running := .empty

/-- The statements of an agent's call up to the reference it reads. -/
def callUpToRead (id : Nat) (credentialId : Uuid) : List Statement :=
  [.begin id (.call searchConsole (.ok laterTokens)), .readRow id, .openCredential id,
    .refresh id 10, .insertCredential id credentialId 11, .readPrevious id]

/-- The statements of the call from its update of the row on. -/
def callFromUpdate (id : Nat) : List Statement :=
  [.updateRow id 12, .deletePrevious id, .commit id]

theorem opening_authorized : Opening authorized where
  quiet := rfl
  oneSecret credentialId := by
    by_cases stored : credentialId = 21 <;>
      simp [authorized, Table.ofList, stored, eq_comm]
  usable := ⟨_, rfl⟩

/-- `oneSecret_of_current` applies to two calls of which the second begins once the first has
committed. -/
theorem oneSecret_of_current_serial :
    ∃ history state, (machine registeredDeployment).Runs history state ∧
      (history.map Transition.label).length = 18 ∧ OneSecret state.committed := by
  obtain ⟨history, state, runs, checked⟩ := Machine.exists_run_of_trace Opening
    (run registeredDeployment)
    (callUpToRead 1 31 ++ callFromUpdate 1 ++ callUpToRead 2 32 ++ callFromUpdate 2) authorized
    (fun history _ => history.length = 18 && history.all readsCurrent) opening_authorized
    (by decide +kernel)
  rw [Bool.and_eq_true, decide_eq_true_eq, List.all_eq_true] at checked
  exact ⟨history, state, runs, by simp [checked.1],
    oneSecret_of_current registeredDeployment history state runs checked.2⟩

/-- Two agents' calls renew the same token: both read the reference before either updates the
row, and the secret of the first stays stored. -/
theorem renewals_leave_two_secrets :
    ¬ ∀ (deployment : Deployment) (history : List (Transition State Statement)) (state : State),
      (machine deployment).Runs history state → OneSecret state.committed := by
  intro always
  obtain ⟨history, state, runs, checked⟩ := Machine.exists_run_of_trace Opening
    (run registeredDeployment)
    (callUpToRead 1 31 ++ callUpToRead 2 32 ++ callFromUpdate 1 ++ callFromUpdate 2) authorized
    (fun _ state => (state.committed.credentials.find? 31).isSome &&
      (state.committed.credentials.find? 32).isSome) opening_authorized (by decide +kernel)
  rw [Bool.and_eq_true] at checked
  have single := always registeredDeployment history state runs
  obtain ⟨row, found, first⟩ := (single 31).mp checked.1
  obtain ⟨again, foundAgain, second⟩ := (single 32).mp checked.2
  obtain rfl : row = again := Option.some.inj (found.symm.trans foundAgain)
  rw [first] at second
  cases second

end Nexora.Tenant.Vault
