import Nexora.Knowledge.Hybrid
import Nexora.Knowledge.Visibility
import Nexora.Run.Fence
import Nexora.Std.History

/-!
# The evidence a run keeps

`save_retrieval` writes what was retrieved for a run once: the hashes of its query and its
context, the context, and a row for each chunk. `load_retrieval` hands the context out again
while as many of those rows as were written still name a chunk the run's requester may see,
under the same place and content hash. Sources, access lists and the run itself may change
between the two in any way.
-/

namespace Nexora.Knowledge

open Nexora.Std Nexora.Workspace

/-- A row of `agent_run_retrievals`. -/
structure RunRetrieval where
  workspaceId : Uuid
  queryHash : Nat
  contextHash : Nat
  embeddingInputTokens : Nat
  chunkCount : Nat

/-- A row of `agent_run_retrieval_chunks`. -/
structure RetrievalChunk where
  workspaceId : Uuid
  chunkId : Uuid
  sourceId : Uuid
  sourceKey : PyStr
  sourceVersion : PyStr
  chunkIndex : Nat
  contentHash : Nat

/-- `RunRetrievalSnapshot`. -/
structure RunRetrievalSnapshot where
  contextText : PyStr
  embeddingInputTokens : Nat
  chunkCount : Nat

/-- The runs, the knowledge and the evidence kept of runs: its rows, its texts, each with its
workspace, and its chunks by their position. -/
structure ExecutorStore where
  runs : Run.Store
  knowledge : Store
  retrievals : Table Uuid RunRetrieval
  contexts : Table Uuid (Uuid × PyStr)
  chunks : Table (Uuid × Nat) RetrievalChunk

/-- The row of a retrieved chunk. -/
def RetrievedChunk.row (sha256 : PyStr → Nat) (workspaceId : Uuid) (chunk : RetrievedChunk) :
    RetrievalChunk where
  workspaceId := workspaceId
  chunkId := chunk.id
  sourceId := chunk.sourceId
  sourceKey := chunk.sourceKey
  sourceVersion := chunk.sourceVersion
  chunkIndex := chunk.chunkIndex
  contentHash := sha256 chunk.content

/-- The row names a chunk as it is kept. -/
def RetrievalChunk.names (row : RetrievalChunk) (chunk : RagChunk) (source : RagSource) : Bool :=
  chunk.sourceId = row.sourceId && source.sourceKey = row.sourceKey &&
    chunk.sourceVersion = row.sourceVersion && chunk.chunkIndex = row.chunkIndex &&
    chunk.contentHash = row.contentHash

/-- `build_untrusted_context(result.chunks) if result.chunks else ""`. -/
def contextText (chunks : List RetrievedChunk) : PyStr :=
  if chunks = [] then [] else buildUntrustedContext chunks

/-- `ToolContractError("retrieval_snapshot_unavailable")`. -/
def snapshotUnavailable : Run.Raised := .tool "retrieval_snapshot_unavailable"

namespace ExecutorStore

variable (store : ExecutorStore) (sha256 : PyStr → Nat) (context : Run.ExecutionContext)

/-- A requester may see a chunk of the context's workspace, and the row names it. -/
def visible (requester : Principal) (row : RetrievalChunk) : Bool :=
  (store.knowledge.chunks.find? row.chunkId).any fun chunk =>
    chunk.workspaceId = context.workspaceId &&
      (store.knowledge.currentSource requester chunk).any (row.names chunk)

/-- The rows of a run's evidence that its requester may still see. -/
def visibleRows (requester : Principal) : List ((Uuid × Nat) × RetrievalChunk) :=
  store.chunks.select fun key row => key.1 = context.runId &&
    row.workspaceId = context.workspaceId && store.visible context requester row

/-- The row of a run's evidence with its text, if the text is still kept. -/
def retrieval : Option (RunRetrieval × Option PyStr) :=
  ((store.retrievals.find? context.runId).filter fun row =>
    row.workspaceId = context.workspaceId).map fun row =>
      (row, ((store.contexts.find? context.runId).filter fun kept =>
        kept.1 = row.workspaceId).map Prod.snd)

/-- `load_retrieval`. -/
def loadRetrieval (clock : Instant) : Except Run.Raised (Option RunRetrievalSnapshot) := do
  let run ← store.runs.executableRun context clock
  match store.retrieval context with
  | none => pure none
  | some (row, text) => do
    let text ← orRaise text snapshotUnavailable
    raiseIf (row.queryHash ≠ sha256 context.inputText) snapshotUnavailable
    raiseIf (sha256 text ≠ row.contextHash) snapshotUnavailable
    raiseIf (row.chunkCount ≠ 0 ∧
      (store.visibleRows context run.requestedBy).length ≠ row.chunkCount) snapshotUnavailable
    pure (some ⟨text, row.embeddingInputTokens, row.chunkCount⟩)

/-- Insert the row of a chunk at its position: no chunk is kept twice for a run. -/
def insertChunk (kept : Table (Uuid × Nat) RetrievalChunk) (entry : RetrievedChunk × Nat) :
    Except Run.Raised (Table (Uuid × Nat) RetrievalChunk) := do
  raiseIf (kept.any (fun key row => key.1 = context.runId && row.chunkId = entry.1.id) = true)
    .database
  orRaise (kept.insert? (context.runId, entry.2) (entry.1.row sha256 context.workspaceId))
    .database

/-- The rows of a run's evidence, written unless the run has some. At most fifty chunks and
200000 characters are admitted. -/
def insertRetrieval (chunks : List RetrievedChunk) (embeddingInputTokens : Nat) :
    Except Run.Raised ExecutorStore :=
  match store.retrievals.find? context.runId with
  | some _ => pure store
  | none => do
    raiseIf (50 < chunks.length ∨ 200000 < (contextText chunks).length) .database
    let kept ← chunks.zipIdx.foldlM (insertChunk sha256 context) store.chunks
    pure { store with
      retrievals := store.retrievals.put context.runId {
        workspaceId := context.workspaceId, queryHash := sha256 context.inputText
        contextHash := sha256 (contextText chunks), embeddingInputTokens := embeddingInputTokens
        chunkCount := chunks.length }
      contexts := store.contexts.put context.runId (context.workspaceId, contextText chunks)
      chunks := kept }

/-- `save_retrieval`. -/
def saveRetrieval (chunks : List RetrievedChunk) (embeddingInputTokens : Nat) (clock : Instant) :
    Except Run.Raised (ExecutorStore × RunRetrievalSnapshot) := do
  let run ← store.runs.executableRun context clock
  raiseIf (chunks.all (fun chunk => store.visible context run.requestedBy
    (chunk.row sha256 context.workspaceId)) = false) snapshotUnavailable
  let written ← store.insertRetrieval sha256 context chunks embeddingInputTokens
  let (row, text) ← orRaise (written.retrieval context) snapshotUnavailable
  let text ← orRaise text snapshotUnavailable
  raiseIf (row.queryHash ≠ sha256 context.inputText ∨
    row.contextHash ≠ sha256 (contextText chunks) ∨ text ≠ contextText chunks) snapshotUnavailable
  pure (written, ⟨text, row.embeddingInputTokens, row.chunkCount⟩)

end ExecutorStore

/-- What may happen to kept evidence: it is saved, its text is cleared when the run ends, and
everything else changes. -/
inductive EvidenceStep where
  | save (context : Run.ExecutionContext) (chunks : List RetrievedChunk)
      (embeddingInputTokens : Nat) (clock : Instant)
  | clear (runId : Uuid)
  | change (runs : Run.Store) (knowledge : Store)

/-- The histories of kept evidence, from none. -/
def evidence (sha256 : PyStr → Nat) : Machine ExecutorStore EvidenceStep where
  Initial store := store.retrievals = .empty ∧ store.contexts = .empty ∧ store.chunks = .empty
  Step store label next :=
    match label with
    | .save context chunks tokens clock =>
      ∃ snapshot, store.saveRetrieval sha256 context chunks tokens clock = .ok (next, snapshot)
    | .clear runId => next = { store with contexts := store.contexts.erase runId }
    | .change runs knowledge => next = { store with runs := runs, knowledge := knowledge }

section Keeping

variable {store next : ExecutorStore} {sha256 : PyStr → Nat} {context : Run.ExecutionContext}
  {chunks : List RetrievedChunk} {tokens : Nat} {runId : Uuid} {row : RunRetrieval}

/-- The rows of a list of chunks are written at their positions, and no others. -/
theorem find?_insertChunks {offset : Nat} {before after : Table (Uuid × Nat) RetrievalChunk}
    (inserted : (chunks.zipIdx offset).foldlM (ExecutorStore.insertChunk sha256 context) before =
      .ok after) (key : Uuid × Nat) :
    after.find? key = ((if key.1 = context.runId ∧ offset ≤ key.2 then chunks[key.2 - offset]?
      else none).map (RetrievedChunk.row sha256 context.workspaceId)).or (before.find? key) := by
  induction chunks generalizing offset before with
  | nil =>
    simp only [List.zipIdx_nil, List.foldlM_nil, pure_eq_ok] at inserted
    simp [inserted]
  | cons chunk rest ih =>
    simp only [List.zipIdx_cons, List.foldlM_cons, bind_eq_ok, ExecutorStore.insertChunk,
      raiseIf_eq_ok, orRaise_eq_ok, Table.insert?_eq_some, exists_and_left, exists_const]
      at inserted
    obtain ⟨next, ⟨-, free, rfl⟩, later⟩ := inserted
    rw [ih later]
    by_cases first : key = (context.runId, offset)
    · subst first
      simp
    · rw [Table.find?_put_ne _ _ first]
      by_cases inside : key.1 = context.runId ∧ offset ≤ key.2
      · have beyond : offset + 1 ≤ key.2 := by
          rcases Nat.eq_or_lt_of_le inside.2 with same | beyond
          · exact absurd (Prod.ext inside.1 same.symm) first
          · exact beyond
        rw [if_pos inside, if_pos ⟨inside.1, beyond⟩,
          show key.2 - offset = key.2 - (offset + 1) + 1 by omega, List.getElem?_cons_succ]
      · rw [if_neg inside, if_neg (fun both => inside ⟨both.1, by omega⟩)]

/-- What is kept of a run's evidence is what was retrieved. -/
structure KeptFrom (sha256 : PyStr → Nat) (store : ExecutorStore) (runId : Uuid)
    (row : RunRetrieval) (chunks : List RetrievedChunk) : Prop where
  count : row.chunkCount = chunks.length
  rows : ∀ position, store.chunks.find? (runId, position) =
    chunks[position]?.map (RetrievedChunk.row sha256 row.workspaceId)
  text : ∀ kept, store.contexts.find? runId = some kept →
    kept = (row.workspaceId, contextText chunks)

/-- Every run's evidence is kept as it was retrieved; a run without evidence has no chunks. -/
structure Keeps (sha256 : PyStr → Nat) (store : ExecutorStore) : Prop where
  saved : ∀ runId row, store.retrievals.find? runId = some row →
    ∃ chunks, KeptFrom sha256 store runId row chunks
  unsaved : ∀ runId, store.retrievals.find? runId = none →
    ∀ position, store.chunks.find? (runId, position) = none

/-- Writing a run's evidence keeps what is kept. -/
theorem Keeps.insertRetrieval (keeps : Keeps sha256 store)
    (inserted : store.insertRetrieval sha256 context chunks tokens = .ok next) :
    Keeps sha256 next := by
  unfold ExecutorStore.insertRetrieval at inserted
  split at inserted
  · cases inserted
    exact keeps
  next free =>
    simp only [bind_eq_ok, raiseIf_eq_ok, pure_eq_ok, exists_and_left, exists_const] at inserted
    obtain ⟨-, kept, written, rfl⟩ := inserted
    have rows := find?_insertChunks written
    have others {other : Uuid} (distinct : other ≠ context.runId) (position : Nat) :
        kept.find? (other, position) = store.chunks.find? (other, position) := by
      rw [rows, if_neg fun both => distinct both.1]
      rfl
    refine ⟨fun runId row found => ?_, fun runId absent position => ?_⟩
    · rw [Table.find?_put_eq] at found
      split at found
      next same =>
        subst same
        cases found
        refine ⟨chunks, rfl, fun position => ?_, fun text present => ?_⟩
        · rw [rows, if_pos ⟨rfl, Nat.zero_le _⟩, keeps.unsaved _ free, Option.or_none]
          rfl
        · rw [Table.find?_put] at present
          exact (Option.some.inj present).symm
      next distinct =>
        obtain ⟨earlier, count, places, text⟩ := keeps.saved runId row found
        refine ⟨earlier, count, fun position => ?_, fun kept present => ?_⟩
        · rw [others distinct]
          exact places position
        · rw [Table.find?_put_ne _ _ distinct] at present
          exact text kept present
    · rw [Table.find?_put_eq] at absent
      split at absent
      · cases absent
      next distinct =>
        rw [others distinct]
        exact keeps.unsaved runId absent position

/-- Every history keeps evidence as it was retrieved. -/
theorem evidence_keeps {history : List (Transition ExecutorStore EvidenceStep)}
    (runs : (evidence sha256).Runs history store) : Keeps sha256 store := by
  refine runs.invariant _ ?_ ?_
  · rintro store ⟨retrievals, -, chunks⟩
    refine ⟨fun runId row found => ?_, fun runId _ position => ?_⟩
    · rw [retrievals, Table.find?_empty] at found
      cases found
    · rw [chunks, Table.find?_empty]
  intro store label next keeps step
  cases label with
  | save context chunks tokens clock =>
    obtain ⟨snapshot, saved⟩ := step
    simp only [ExecutorStore.saveRetrieval, bind_eq_ok, raiseIf_eq_ok, pure_eq_ok] at saved
    obtain ⟨_, -, _, -, written, inserted, _, -, _, -, _, -, same⟩ := saved
    cases same
    exact keeps.insertRetrieval inserted
  | clear runId =>
    subst step
    refine ⟨fun other row found => ?_, keeps.unsaved⟩
    obtain ⟨chunks, count, rows, text⟩ := keeps.saved other row found
    exact ⟨chunks, count, rows, fun kept present => text kept (Table.of_find?_erase present).2⟩
  | change runs knowledge =>
    subst step
    exact ⟨fun other row found => (keeps.saved other row found).imp fun chunks kept =>
      ⟨kept.count, kept.rows, kept.text⟩, keeps.unsaved⟩

/-- As many positions as there are below a bound are all of them. -/
theorem mem_of_full {keys : List (Uuid × Nat)} {count : Nat} (distinct : keys.Nodup)
    (inside : ∀ key ∈ keys, key.1 = runId ∧ key.2 < count) (full : keys.length = count)
    {position : Nat} (small : position < count) : (runId, position) ∈ keys := by
  have places : (keys.map Prod.snd).Nodup := by
    refine (List.nodup_map_iff_inj_on distinct).mpr fun left leftListed right rightListed same => ?_
    exact Prod.ext ((inside left leftListed).1.trans (inside right rightListed).1.symm) same
  have below : keys.map Prod.snd ⊆ List.range count := by
    intro place listed
    obtain ⟨key, member, rfl⟩ := List.mem_map.mp listed
    exact List.mem_range.mpr (inside key member).2
  have all := (List.subperm_of_subset places below).perm_of_length_le (by simp [full])
  obtain ⟨key, member, same⟩ := List.mem_map.mp (all.mem_iff.mpr (List.mem_range.mpr small))
  rwa [← (inside key member).1, ← same]

/-- A requester may see a retrieved chunk under the place and the content it was retrieved
with. -/
def StillVisible (sha256 : PyStr → Nat) (store : ExecutorStore) (workspaceId : Uuid)
    (requester : Principal) (chunk : RetrievedChunk) : Prop :=
  ∃ kept source, store.knowledge.chunks.find? chunk.id = some kept ∧
    kept.workspaceId = workspaceId ∧
    store.knowledge.currentSource requester kept = some source ∧
    kept.sourceId = chunk.sourceId ∧ source.sourceKey = chunk.sourceKey ∧
    kept.sourceVersion = chunk.sourceVersion ∧ kept.chunkIndex = chunk.chunkIndex ∧
    kept.contentHash = sha256 chunk.content

/-- Evidence is handed out again as it was retrieved, while every chunk of it is visible. -/
theorem Keeps.loadRetrieval (keeps : Keeps sha256 store) {clock : Instant}
    {snapshot : RunRetrievalSnapshot}
    (loaded : store.loadRetrieval sha256 context clock = .ok (some snapshot)) :
    ∃ run chunks, store.runs.executableRun context clock = .ok run ∧
      snapshot.contextText = contextText chunks ∧ snapshot.chunkCount = chunks.length ∧
      ∀ chunk ∈ chunks, StillVisible sha256 store context.workspaceId run.requestedBy chunk := by
  simp only [ExecutorStore.loadRetrieval, bind_eq_ok] at loaded
  obtain ⟨run, held, loaded⟩ := loaded
  cases found : store.retrieval context with
  | none => simp [found] at loaded
  | some entry =>
    obtain ⟨row, text⟩ := entry
    simp only [found, bind_eq_ok, raiseIf_eq_ok, orRaise_eq_ok, pure_eq_ok, exists_and_left,
      exists_const, Option.some.injEq] at loaded
    obtain ⟨text, rfl, -, -, seen, rfl⟩ := loaded
    simp only [ExecutorStore.retrieval, Option.map_eq_some_iff, Option.filter_eq_some_iff,
      decide_eq_true_eq, Prod.mk.injEq] at found
    obtain ⟨_, ⟨present, inside⟩, rfl, ⟨_, text⟩, ⟨kept, -⟩, rfl⟩ := found
    obtain ⟨chunks, count, rows, saved⟩ := keeps.saved _ _ present
    refine ⟨run, chunks, held, congrArg Prod.snd (saved _ kept), count, fun chunk member => ?_⟩
    have nonempty : chunks.length ≠ 0 := fun none => by
      rw [List.length_eq_zero_iff.mp none] at member
      cases member
    have full : (store.visibleRows context run.requestedBy).length = chunks.length := by
      rw [count] at seen
      exact not_not.mp fun short => seen ⟨nonempty, short⟩
    obtain ⟨position, small, rfl⟩ := List.getElem_of_mem member
    have listed : (context.runId, position) ∈
        (store.visibleRows context run.requestedBy).map Prod.fst := by
      have distinct : ((store.visibleRows context run.requestedBy).map Prod.fst).Nodup :=
        store.chunks.nodup_select _
      refine mem_of_full distinct ?_ (by rw [List.length_map, full]) small
      intro key keyListed
      obtain ⟨⟨⟨_, place⟩, kept⟩, listed, rfl⟩ := List.mem_map.mp keyListed
      simp only [ExecutorStore.visibleRows, Table.mem_select, Bool.and_eq_true,
        decide_eq_true_eq] at listed
      obtain ⟨stored, ⟨rfl, -⟩, -⟩ := listed
      rw [rows, Option.map_eq_some_iff] at stored
      obtain ⟨_, at_, -⟩ := stored
      exact ⟨rfl, (List.getElem?_eq_some_iff.mp at_).1⟩
    obtain ⟨⟨_, kept⟩, listed, rfl⟩ := List.mem_map.mp listed
    simp only [ExecutorStore.visibleRows, Table.mem_select, rows, List.getElem?_eq_getElem small,
      Option.map_some, Option.some.injEq, Bool.and_eq_true, ExecutorStore.visible,
      Option.any_eq_true, decide_eq_true_eq, RetrievalChunk.names] at listed
    obtain ⟨rfl, -, stored, found, place, source, current, ⟨⟨⟨same, key⟩, version⟩, index⟩, hash⟩ :=
      listed
    exact ⟨stored, source, found, place, current, same, key, version, index, hash⟩

end Keeping

/-- What a principal may not see does not reach it. The answer of an exact retrieval is the same
in any two stores that agree on the chunks the principal may see; before the answer comes
nothing but the check of the arguments and of the membership. And after any history a run gets
its evidence back only while its requester may see every chunk of it with the same content. -/
theorem retrieval_noninterference {Distance Rank : Type} [LinearOrder Distance] [LinearOrder Rank]
    {engine : Engine Distance Rank} {left right : Store} {principal : Principal}
    {workspaceId : Uuid} {arguments : RetrieveArguments} (unique : left.ChunksUnique)
    (distances : DistinctDistances engine left principal workspaceId arguments)
    (agree : AgreeOnVisible left right principal workspaceId arguments)
    (exact_ : arguments.annDimensions = none) :
    (∃ answer : Query → List RetrievedChunk, ∀ store, store = left ∨ store = right →
      store.retrieve engine principal workspaceId arguments = (do
        let query ← arguments.check
        store.authorizeRetrieve principal workspaceId
        pure (answer query))) ∧
    ∀ history store context clock snapshot, (evidence engine.sha256).Runs history store →
      store.loadRetrieval engine.sha256 context clock = .ok (some snapshot) →
      ∃ run chunks, store.runs.executableRun context clock = .ok run ∧
        snapshot.contextText = contextText chunks ∧ snapshot.chunkCount = chunks.length ∧
        ∀ chunk ∈ chunks,
          StillVisible engine.sha256 store context.workspaceId run.requestedBy chunk :=
  ⟨retrieve_congr unique distances agree exact_,
    fun _ _ _ _ _ runs loaded => (evidence_keeps runs).loadRetrieval loaded⟩

/-- The three chunks of a workspace, and one nearer than all of them that is restricted. -/
def withHidden : Store :=
  { threeChunks with
    chunks := threeChunks.chunks.put 10 { chunkOf 3 unmatched.queryEmbedding with
      accessScope := .restricted } }

/-- `retrieval_noninterference` applies to a chunk that nobody may see. -/
theorem retrieval_noninterference_withHidden :
    ∃ answer : Query → List RetrievedChunk, ∀ store, store = threeChunks ∨ store = withHidden →
      store.retrieve exactEngine ⟨"nexora", "owner"⟩ 7 unmatched = (do
        let query ← unmatched.check
        store.authorizeRetrieve ⟨"nexora", "owner"⟩ 7
        pure (answer query)) := by
  refine (retrieval_noninterference ?_ ?_ ?_ rfl).1
  · intro first second firstChunk secondChunk firstFound secondFound _ sameIndex
    have rows : ∀ one ∈ threeChunks.chunks.entries, ∀ other ∈ threeChunks.chunks.entries,
        one.2.chunkIndex = other.2.chunkIndex → one.1 = other.1 := by decide
    exact rows (first, firstChunk) ((Table.mem_entries ..).mpr firstFound) (second, secondChunk)
      ((Table.mem_entries ..).mpr secondFound) sameIndex
  · unfold DistinctDistances Distinguishes
    decide +kernel
  · have same : threeChunks.visible ⟨"nexora", "owner"⟩ 7 unmatched.embeddingModel
        unmatched.queryEmbedding.length = withHidden.visible ⟨"nexora", "owner"⟩ 7
          unmatched.embeddingModel unmatched.queryEmbedding.length := by decide +kernel
    intro passage
    rw [same]

end Nexora.Knowledge
