import Nexora.Std.History
import Nexora.Std.Locks
import Nexora.Std.Paging
import Nexora.Catalog.Numbers
import Nexora.Catalog.Repository
import Nexora.Data.Json
import Nexora.Workspace.Members

/-!
# Publishing transactions

`publish_version`, `set_version_release` and the pages of `list_versions`, statement by
statement. A statement reads what is committed when it finishes and what its own transaction
wrote; one that meets a lock of another transaction waits, and is no step until it can finish.
What a transaction writes becomes visible when it commits and disappears when it does not.
-/

namespace Nexora.Publishing

open Nexora.Std Nexora.Workspace Nexora.Catalog

/-- A validated manifest with the document `model_dump` makes of it. -/
structure ManifestDocument extends AgentManifest where
  document : Json
  deriving DecidableEq

/-- A row of `catalog_agent_versions` with every column. -/
structure VersionRecord where
  catalogAgentId : Uuid
  version : String
  major : Nat
  minor : Nat
  patch : Nat
  status : AgentStatus
  channel : Channel
  manifest : ManifestDocument
  minRuntimeVersion : String
  changelog : String
  publishedBy : Principal
  createdAt : Instant
  deriving DecidableEq

/-- The number in the columns the order is by. -/
def VersionRecord.number (record : VersionRecord) : Version :=
  ⟨record.major, record.minor, record.patch⟩

/-- What a transaction is for. -/
inductive Work where
  | publishVersion (principal : Principal) (slug : String) (manifest : ManifestDocument)
  | setVersionRelease (slug : String) (version : String) (body : VersionReleaseInput)

/-- The last statement a transaction finished, with what it read or wrote. -/
inductive Phase where
  | begun
  | agentLocked (agentId : Uuid)
  | highestRead (agentId : Uuid) (previous : Option String)
  | versionLocked (versionId : Uuid)
  | written (versionId : Uuid) (record : VersionRecord)

/-- A row lock. A row that is being inserted is locked too: another insert under its key
waits. -/
inductive Lock where
  | agent (agentId : Uuid)
  | version (versionId : Uuid)
  deriving DecidableEq, Repr

/-- Both statements lock `FOR UPDATE`. -/
def Lock.conflicts (lock held : Lock) : Bool := lock = held

/-- A transaction in progress. -/
structure Tx where
  work : Work
  startedAt : Instant
  phase : Phase
  locks : List Lock

/-- The committed rows, the transactions in progress and the clients that list versions. -/
structure State where
  agents : Table Uuid AgentRow
  committed : Table Uuid VersionRecord
  running : Table Nat Tx
  clients : Table Nat (String × Walk (Uuid × VersionRecord))

/-- Why a statement is no step. -/
inductive Refusal where
  | waits
  | outOfOrder
  | outOfRange
  | failed (failure : Failure)

/-- A statement of a transaction, its end, or a page of a client. -/
inductive Statement where
  | begin (id : Nat) (work : Work) (now : Instant)
  | lockAgent (id : Nat)
  | readHighest (id : Nat)
  | insertVersion (id : Nat) (versionId : Uuid)
  | lockVersion (id : Nat)
  | updateRelease (id : Nat)
  | commit (id : Nat)
  | abort (id : Nat)
  | turnPage (client : Nat) (slug : String) (limit : Nat)

/-- A request's failure as a refusal. -/
def refused {α : Type} (result : Except Failure α) : Except Refusal α := result.mapError .failed

@[simp]
theorem refused_eq_ok {α : Type} (result : Except Failure α) (value : α) :
    refused result = .ok value ↔ result = .ok value :=
  mapError_eq_ok _ _ _

/-- A manifest of another agent is refused before a transaction opens. -/
def Work.check : Work → Except Refusal Unit
  | .publishVersion _ slug manifest =>
    raiseIf (manifest.slug ≠ slug)
      (.failed (.http 422 (some "Manifest slug does not match the catalog entry")))
  | .setVersionRelease _ _ _ => pure ()

namespace State

variable (state : State)

/-- The catalog entry with a slug. -/
def agentNamed (slug : String) : Except Refusal Uuid :=
  refused (found ((state.agents.first? fun _ row => row.slug = slug).map Prod.fst))

/-- The versions of an agent. -/
def versionsOf (agentId : Uuid) : List (Uuid × VersionRecord) :=
  state.committed.select fun _ record => record.catalogAgentId = agentId

/-- The sortable columns of a row. -/
def rank (entry : Uuid × VersionRecord) : ℕ ×ₗ ℕ ×ₗ ℕ := entry.2.number.parts

/-- The version of an agent under a text. -/
def versionNamed (slug version : String) : Except Refusal (Uuid × VersionRecord) := do
  let agentId ← state.agentNamed slug
  refused (found (state.committed.first? fun _ record =>
    record.catalogAgentId = agentId && record.version = version))

/-- A transaction in progress. -/
def running? (id : Nat) : Except Refusal Tx := orRaise (state.running.find? id) .outOfOrder

/-- Store a transaction's progress. -/
def progress (id : Nat) (tx : Tx) : State :=
  { state with running := state.running.put id tx }

/-- Another transaction holds the lock. -/
def isBlocked (id : Nat) (lock : Lock) : Bool :=
  blocked Tx.locks Lock.conflicts state.running id lock

/-- A transaction opens. -/
def beginWork (id : Nat) (work : Work) (now : Instant) : Except Refusal State := do
  raiseIf ((state.running.find? id).isSome) .outOfOrder
  work.check
  pure (state.progress id ⟨work, now, .begun, []⟩)

/-- `_agent_row(…, lock=True)`: `SELECT … FOR UPDATE OF a`. -/
def lockAgent (id : Nat) : Except Refusal State := do
  let tx ← state.running? id
  match tx.work, tx.phase with
  | .publishVersion _ slug _, .begun => do
      let agentId ← state.agentNamed slug
      raiseIf (state.isBlocked id (.agent agentId) = true) .waits
      pure (state.progress id
        { tx with phase := .agentLocked agentId, locks := .agent agentId :: tx.locks })
  | _, _ => .error .outOfOrder

/-- `SELECT version … ORDER BY major DESC,minor DESC,patch DESC LIMIT 1`. -/
def readHighest (id : Nat) : Except Refusal State := do
  let tx ← state.running? id
  match tx.phase with
  | .agentLocked agentId =>
    pure (state.progress id
      { tx with
        phase := .highestRead agentId
          ((highest rank 1 (state.versionsOf agentId)).head?.map fun entry => entry.2.version) })
  | _ => .error .outOfOrder

/-- `INSERT INTO catalog_agent_versions`, once the number is found to be higher. The foreign
key's lock of the agent's row is implied by the one the transaction holds. -/
def insertVersion (id : Nat) (versionId : Uuid) : Except Refusal State := do
  let tx ← state.running? id
  match tx.work, tx.phase with
  | .publishVersion principal _ manifest, .highestRead agentId previous => do
      let released ← refused (Version.ofText manifest.version.text)
      let before ← refused (previous.mapM Version.ofText)
      raiseIf (∃ version ∈ before, released.parts ≤ version.parts)
        (.failed (.http 409
          (some "A published version never changes; publish a higher semantic version")))
      raiseIf (maxInteger < released.major ∨ maxInteger < released.minor ∨
        maxInteger < released.patch) .outOfRange
      raiseIf (state.isBlocked id (.version versionId) = true) .waits
      raiseIf ((state.committed.find? versionId).isSome = true ∨
        (state.versionsOf agentId).any (fun entry => entry.2.version = manifest.version.text) =
          true) (.failed .constraint)
      pure (state.progress id
        { tx with
          phase := .written versionId
            { catalogAgentId := agentId, version := manifest.version.text
              major := released.major, minor := released.minor, patch := released.patch
              status := manifest.status, channel := manifest.channel, manifest := manifest
              minRuntimeVersion := manifest.minRuntimeVersion.text
              changelog := manifest.changelog, publishedBy := principal
              createdAt := tx.startedAt }
          locks := .version versionId :: tx.locks })
  | _, _ => .error .outOfOrder

/-- `_version_row(…, lock=True)`: `SELECT … FOR UPDATE OF v`. -/
def lockVersion (id : Nat) : Except Refusal State := do
  let tx ← state.running? id
  match tx.work, tx.phase with
  | .setVersionRelease slug version _, .begun => do
      let target ← state.versionNamed slug version
      raiseIf (state.isBlocked id (.version target.1) = true) .waits
      pure (state.progress id
        { tx with phase := .versionLocked target.1, locks := .version target.1 :: tx.locks })
  | _, _ => .error .outOfOrder

/-- `UPDATE catalog_agent_versions SET …`: the status, the channel or both. -/
def updateRelease (id : Nat) : Except Refusal State := do
  let tx ← state.running? id
  match tx.work, tx.phase with
  | .setVersionRelease slug version body, .versionLocked _ => do
      let target ← state.versionNamed slug version
      raiseIf (state.isBlocked id (.version target.1) = true) .waits
      pure (state.progress id
        { tx with
          phase := .written target.1 { target.2 with
            status := body.status.getD target.2.status
            channel := body.channel.getD target.2.channel }
          locks := .version target.1 :: tx.locks })
  | _, _ => .error .outOfOrder

/-- A transaction whose statements are done commits. -/
def commit (id : Nat) : Except Refusal State := do
  let tx ← state.running? id
  match tx.phase with
  | .written versionId record =>
    pure { state with
      committed := state.committed.put versionId record, running := state.running.erase id }
  | _ => .error .outOfOrder

/-- `list_versions`: a cursor that is no text means the first page. -/
def listVersions (slug : String) (limit : Nat) (cursor : Option String) :
    Except Refusal (List (Uuid × VersionRecord)) := do
  let agentId ← state.agentNamed slug
  let seen ← refused ((cursor.filter fun text => text ≠ "").mapM Version.ofText)
  raiseIf (∃ version ∈ seen, maxInteger < version.major ∨ maxInteger < version.minor ∨
    maxInteger < version.patch) .outOfRange
  pure (highest rank limit ((state.versionsOf agentId).filter fun entry =>
    seen.all fun version => rank entry < version.parts))

/-- What a client has been shown of an agent's versions; it asks for no page after the last. -/
def walkOf (client : Nat) (slug : String) : Except Refusal (Walk (Uuid × VersionRecord)) :=
  match state.clients.find? client with
  | none => pure .start
  | some (listed, walk) => do
      raiseIf (listed ≠ slug ∨ walk.ended = true) .outOfOrder
      pure walk

/-- A client asks for its next page, below the last row of the one before. -/
def turnPage (client : Nat) (slug : String) (limit : Nat) : Except Refusal State := do
  let walk ← state.walkOf client slug
  raiseIf (limit < 1 ∨ 100 < limit) .outOfOrder
  let rows ← state.listVersions slug (limit + 1) (walk.last.map fun entry => entry.2.version)
  pure { state with
    clients := state.clients.put client (slug, walk.turn (Page.ofRows limit rows)) }

/-- The state after a statement. -/
def run : Statement → Except Refusal State
  | .begin id work now => state.beginWork id work now
  | .lockAgent id => state.lockAgent id
  | .readHighest id => state.readHighest id
  | .insertVersion id versionId => state.insertVersion id versionId
  | .lockVersion id => state.lockVersion id
  | .updateRelease id => state.updateRelease id
  | .commit id => state.commit id
  -- Any transaction may fail at any point: nothing it wrote is kept.
  | .abort id => pure { state with running := state.running.erase id }
  | .turnPage client slug limit => state.turnPage client slug limit

end State

end Nexora.Publishing
