import Nexora.Knowledge.Queries
import Nexora.Knowledge.Sources

/-!
# Jobs, commits and deletions over whole runs

A job has succeeded exactly when a step of the run committed its index transaction, under a
lease that was live. A deletion leaves no job of its key that could still be processed, so
the key stays empty up to the next request for it.
-/

namespace Nexora.Knowledge

open Nexora.Std Nexora.Workspace

/-- A step commits the index transaction of a job, while the job's lease is the worker's and has
not expired by the clock of either fence. -/
def CommitsUnderLease (deployment : Deployment) (step : Transition System Label) (jobId : Uuid) :
    Prop :=
  ∃ session embedded drawn, session.jobId = jobId ∧
    CommitsIndex deployment step session embedded drawn ∧
    ∃ job, step.before.store.jobs.find? jobId = some job ∧
      job.heldBy session.workerId drawn.fenceClock = true ∧
      job.heldBy session.workerId drawn.completeClock = true

/-- The invariant of a run. -/
structure Settled (deployment : Deployment) (history : List (Transition System Label))
    (system : System) : Prop where
  sound : Sound system.store
  done : IndexedDone system
  committed : ∀ step ∈ history, ∀ session embedded drawn,
    CommitsIndex deployment step session embedded drawn →
    ∃ job, system.store.jobs.find? session.jobId = some job ∧ job.status = .succeeded
  earned : ∀ id job, system.store.jobs.find? id = some job → job.status = .succeeded →
    ∃ step ∈ history, CommitsUnderLease deployment step id

variable {principal : Principal}

section Invariant

variable {deployment : Deployment} {history : List (Transition System Label)} {system next : System}
  {label : Label} {drawn : Drawn}

/-- The index transaction that commits is the one a step of that kind has committed. -/
theorem indexed_of_commits (ok : system.run deployment label = .ok next) {session : Session}
    {embedded : List Embedding × Nat}
    (commits : CommitsIndex deployment ⟨system, label, next⟩ session embedded drawn) :
    ∃ sourceId, Indexed system.store next.store session.job.requestedBy session.job.workspaceId
      (session.indexArguments deployment.pipeline embedded.1 embedded.2) session.jobId
      session.workerId drawn sourceId := by
  obtain ⟨sessionId, indexed, rfl, found, isEmbedded, commits⟩ := commits
  have same : next.store = indexed.1 := by
    simp only [System.run, bind_eq_ok, orRaise_eq_ok] at ok
    obtain ⟨other, otherFound, otherEmbedded, otherIs, ok⟩ := ok
    rw [found] at otherFound
    cases otherFound
    rw [isEmbedded] at otherIs
    cases otherIs
    rw [commits, pure_eq_ok] at ok
    rw [← ok]
    rfl
  rw [same]
  exact ⟨indexed.2.1, indexSource_ok rfl rfl commits⟩

/-- A job whose index transaction commits has succeeded with it. -/
theorem succeeded_of_indexed {before after : Store} {workspaceId : Uuid}
    {arguments : IndexArguments} {jobId : Uuid} {workerId : String} {sourceId : Uuid}
    (indexed : Indexed before after principal workspaceId arguments jobId workerId drawn
      sourceId) : ∃ job, after.jobs.find? jobId = some job ∧ job.status = .succeeded := by
  obtain ⟨held, found, _⟩ := indexed.job
  obtain ⟨later, present, _, moved⟩ := (indexed_job indexed).1 jobId held found
  rw [if_pos rfl] at moved
  exact ⟨later, present, moved.2⟩

/-- A job that has succeeded after a step had succeeded before, or the step committed it. -/
theorem succeeded_before {step : Transition System Label} (effect : Effect deployment step)
    {id : Uuid} {later : IngestionJob} (found : step.after.store.jobs.find? id = some later)
    (succeeded : later.status = .succeeded) :
    (∃ job, step.before.store.jobs.find? id = some job ∧ job.status = .succeeded) ∨
      CommitsUnderLease deployment step id := by
  cases effect with
  | moved _ jobs =>
    obtain ⟨job, present, follows⟩ := jobs.known id later found
    exact .inl ⟨job, present, follows.succeeds succeeded⟩
  | enqueued _ _ _ _ jobId _ job _ _ _ jobs queued =>
    rw [jobs, Table.find?_put_eq] at found
    split at found
    · cases found
      rw [queued] at succeeded
      cases succeeded
    · exact .inl ⟨later, found, succeeded⟩
  | indexed session embedded drawn _ commits indexed =>
    obtain ⟨job, present⟩ := (indexed_job indexed).2 id later found
    obtain ⟨same, samePresent, _, moved⟩ := (indexed_job indexed).1 id job present
    rw [found] at samePresent
    cases samePresent
    split at moved
    · rename_i isJob
      subst isJob
      obtain ⟨held, heldFound, _, _, _, _, live, stillLive⟩ := indexed.job
      exact .inr ⟨session, embedded, drawn, rfl, commits, held, heldFound, live, stillLive⟩
    · exact .inl ⟨job, present, moved ▸ succeeded⟩
  | deleted _ _ _ _ _ deleted =>
    rw [deleted.jobs, Option.map_eq_some_iff] at found
    obtain ⟨job, present, rfl⟩ := found
    split at succeeded
    · cases succeeded
    · rename_i kept
      exact .inl ⟨job, present, succeeded⟩

/-- Sessions that have indexed their jobs have completed them, after every step. -/
theorem indexedDone_step (done : IndexedDone system)
    (ok : system.run deployment label = .ok next) : IndexedDone next := by
  have effect := run_effect done ok
  intro id session sourceId chunkCount inputTokens found stage
  rcases run_indexed ok found stage with earlier | ⟨embedding, embedded, drawn, same, commits⟩
  · obtain ⟨job, present, succeeded⟩ := done _ _ _ _ _ earlier stage
    exact succeeded_kept effect present succeeded
  · obtain ⟨_, indexed⟩ := indexed_of_commits ok commits
    rw [same]
    exact succeeded_of_indexed indexed

theorem Settled.step (settled : Settled deployment history system)
    (ok : system.run deployment label = .ok next) :
    Settled deployment (history ++ [⟨system, label, next⟩]) next := by
  have effect := run_effect settled.done ok
  refine ⟨settled.sound.ofEffect effect, indexedDone_step settled.done ok, ?_, ?_⟩
  · intro step member session embedded drawn commits
    rcases List.mem_append.mp member with earlier | last
    · obtain ⟨job, present, succeeded⟩ :=
        settled.committed step earlier session embedded drawn commits
      exact succeeded_kept effect present succeeded
    · rw [List.mem_singleton.mp last] at commits
      obtain ⟨_, indexed⟩ := indexed_of_commits ok commits
      exact succeeded_of_indexed indexed
  · intro id later found succeeded
    rcases succeeded_before effect found succeeded with ⟨job, present, earlier⟩ | commits
    · obtain ⟨step, member, commits⟩ := settled.earned id job present earlier
      exact ⟨step, by simp [member], commits⟩
    · exact ⟨_, by simp, commits⟩

theorem settled_of_runs {state : System} (runs : (machine deployment).Runs history state) :
    Settled deployment history state := by
  refine runs.invariantWithHistory (Settled deployment) ?_ ?_
  · rintro state ⟨quiet, memberships, ledger, hnswIndexes, unused⟩
    refine ⟨by rw [unused]; exact .empty .., ?_, by simp, ?_⟩
    · intro id session _ _ _ found
      simp [quiet] at found
    · intro id job found
      simp [unused, Store.empty] at found
  · intro earlier state label later settled step
    exact settled.step step

end Invariant

/-- A source or a chunk is stored under a key of a workspace. -/
def StoredUnder (store : Store) (workspaceId : Uuid) (sourceKey : PyStr) : Prop :=
  (∃ id source, store.sources.find? id = some source ∧ source.workspaceId = workspaceId ∧
    source.sourceKey = sourceKey) ∨
  ∃ id chunk source, store.chunks.find? id = some chunk ∧
    store.sources.find? chunk.sourceId = some source ∧ source.workspaceId = workspaceId ∧
    source.sourceKey = sourceKey

/-- A step queues a new job for a key of a workspace. -/
def Enqueues (step : Transition System Label) (workspaceId : Uuid) (sourceKey : PyStr) : Prop :=
  ∃ principal body idempotencyKey jobId now job,
    step.label = .enqueue principal workspaceId body idempotencyKey jobId now ∧
    body.sourceKey = sourceKey ∧ step.before.store.jobs.find? jobId = none ∧
    step.after.store.jobs.find? jobId = some job

/-- Nothing is stored under a key, and no job of it is pending. -/
structure Vacant (workspaceId : Uuid) (sourceKey : PyStr) (store : Store) : Prop where
  sources : ∀ id source, store.sources.find? id = some source →
    ¬ (source.workspaceId = workspaceId ∧ source.sourceKey = sourceKey)
  jobs : ∀ id job, store.jobs.find? id = some job → job.workspaceId = workspaceId →
    job.sourceKey = sourceKey → job.status.isPending = false

namespace Vacant

variable {workspaceId : Uuid} {sourceKey : PyStr} {deployment : Deployment}

/-- A deletion vacates its key. -/
theorem ofDeleted {before after : Store} (deleted : Deleted before after workspaceId sourceKey) :
    Vacant workspaceId sourceKey after where
  sources := fun id source found => ((deleted.sources id source).mp found).2
  jobs := by
    intro id later found ofWorkspace ofKey
    rw [deleted.jobs, Option.map_eq_some_iff] at found
    obtain ⟨job, _, rfl⟩ := found
    split
    · rfl
    · rename_i kept
      rw [if_neg kept] at ofWorkspace ofKey
      simpa [ofWorkspace, ofKey] using kept

/-- A vacant key stays so through every step that queues no job for it: what a step indexes is
of a job that is being processed. -/
theorem ofEffect {step : Transition System Label}
    (vacant : Vacant workspaceId sourceKey step.before.store) (effect : Effect deployment step)
    (quiet : ¬ Enqueues step workspaceId sourceKey) :
    Vacant workspaceId sourceKey step.after.store := by
  cases effect with
  | moved same jobs =>
    refine ⟨by rw [same.sources]; exact vacant.sources, ?_⟩
    intro id later found ofWorkspace ofKey
    obtain ⟨job, present, follows⟩ := jobs.known id later found
    rw [follows.request] at ofWorkspace ofKey
    have ended := vacant.jobs id job present ofWorkspace ofKey
    rw [JobsFollow.ended follows ended]
    exact ended
  | enqueued principal ofQueue body idempotencyKey jobId now queued label same free jobs _ request =>
    refine ⟨by rw [same.sources]; exact vacant.sources, ?_⟩
    intro id later found ofWorkspace ofKey
    rw [jobs, Table.find?_put_eq] at found
    split at found
    · cases found
      refine absurd ⟨principal, body, idempotencyKey, jobId, now, queued, ?_, ?_, free, ?_⟩ quiet
      · rw [label, ← request.1, ofWorkspace]
      · rw [← request.2, ofKey]
      · rw [jobs, Table.find?_put]
    · exact vacant.jobs id later found ofWorkspace ofKey
  | indexed session embedded drawn sourceId _ indexed =>
    obtain ⟨held, found, ofWorkspace, ofKey, _, _, live, _⟩ := indexed.job
    have other : ¬ (session.job.workspaceId = workspaceId ∧
        session.job.sourceKey = sourceKey) := by
      rintro ⟨sameWorkspace, sameKey⟩
      have ended := vacant.jobs _ held found (ofWorkspace.trans sameWorkspace)
        (ofKey.trans sameKey)
      rw [running_of_heldBy live] at ended
      cases ended
    constructor
    · intro id source present ofSource
      rcases Sound.source_after indexed present with ⟨_, _, rfl⟩ | ⟨_, earlier, before, rfl⟩
      · exact other ofSource
      · have kept := outdate_kept session.job.workspaceId session.job.sourceKey earlier
        exact vacant.sources id earlier before
          ⟨kept.1.symm.trans ofSource.1, kept.2.1.symm.trans ofSource.2⟩
    · intro id later present jobWorkspace jobKey
      obtain ⟨job, before⟩ := (indexed_job indexed).2 id later present
      obtain ⟨same, samePresent, request, moved⟩ := (indexed_job indexed).1 id job before
      rw [present] at samePresent
      cases samePresent
      split at moved
      · rw [moved.2]
        rfl
      · rw [moved] at jobWorkspace jobKey ⊢
        exact vacant.jobs id job before jobWorkspace jobKey
  | deleted _ _ _ _ _ deleted =>
    refine ⟨fun id source found => vacant.sources id source ((deleted.sources ..).mp found).1, ?_⟩
    intro id later found ofWorkspace ofKey
    rw [deleted.jobs, Option.map_eq_some_iff] at found
    obtain ⟨job, present, rfl⟩ := found
    split
    · rfl
    · rename_i kept
      rw [if_neg kept] at ofWorkspace ofKey
      exact vacant.jobs id job present ofWorkspace ofKey

/-- Nothing is stored under a vacant key. -/
theorem not_stored {store : Store} (vacant : Vacant workspaceId sourceKey store) :
    ¬ StoredUnder store workspaceId sourceKey := by
  rintro (⟨id, source, found, same⟩ | ⟨_, chunk, source, _, found, same⟩)
  · exact vacant.sources id source found same
  · exact vacant.sources _ source found same

end Vacant

/-- After a deletion, a key is stored under again only once a later step queued it. -/
theorem stored_again {deployment : Deployment}
    {history earlier later : List (Transition System Label)} {system : System}
    {step : Transition System Label} (runs : (machine deployment).Runs history system)
    (splits : history = earlier ++ step :: later) {workspaceId : Uuid} {sourceKey : PyStr}
    {clock : Instant} (label : step.label = .deleteSource principal workspaceId sourceKey clock)
    (stored : StoredUnder system.store workspaceId sourceKey) :
    ∃ enqueue ∈ later, Enqueues enqueue workspaceId sourceKey := by
  by_contra never
  obtain ⟨before, transition, steps⟩ := runs.split splits
  have transitionRuns : step.before.run deployment step.label = .ok step.after := transition
  have startDone := (settled_of_runs before).done
  have vacated : Vacant workspaceId sourceKey step.after.store := by
    rw [label] at transitionRuns
    simp only [System.run, bind_eq_ok, pure_eq_ok] at transitionRuns
    obtain ⟨deleted, deletes, same⟩ := transitionRuns
    rw [← same]
    exact .ofDeleted (deleteSource_ok deletes)
  have afterDone := ((settled_of_runs before).step transitionRuns).done
  let Inv : System → Prop := fun state =>
    IndexedDone state ∧ Vacant workspaceId sourceKey state.store
  have kept : Inv system := by
    refine steps.invariantWhile Inv (fun step => ¬ Enqueues step workspaceId sourceKey) ?_
      ⟨afterDone, vacated⟩ fun transition member enqueues => never ⟨transition, member, enqueues⟩
    rintro state label next ⟨done, vacant⟩ ok quiet
    exact ⟨indexedDone_step done ok, vacant.ofEffect (run_effect done ok) quiet⟩
  exact kept.2.not_stored stored

/-- The invariant of the knowledge store, in every state a run reaches: one version of a key is
current; a chunk has its source's version and scope; a source has an access list exactly when it
is restricted; a job has succeeded exactly when its index transaction committed under its live
lease; and what was deleted under a key is not stored again before the key is queued again. -/
theorem knowledge_store_sound (deployment : Deployment) (history : List (Transition System Label))
    (system : System) (runs : (machine deployment).Runs history system) :
    (∀ first second left right, system.store.sources.find? first = some left →
      system.store.sources.find? second = some right → left.workspaceId = right.workspaceId →
      left.sourceKey = right.sourceKey → left.isCurrent = true → right.isCurrent = true →
      first = second) ∧
    (∀ id chunk, system.store.chunks.find? id = some chunk →
      ∃ source, system.store.sources.find? chunk.sourceId = some source ∧
        chunk.sourceVersion = source.version ∧ chunk.accessScope = source.accessScope) ∧
    (∀ id source, system.store.sources.find? id = some source →
      (source.accessScope = .restricted ↔
        ∃ identity owner, system.store.sourceAcl.find? (id, identity) = some owner)) ∧
    (∀ id job, system.store.jobs.find? id = some job →
      (job.status = .succeeded ↔ ∃ step ∈ history, CommitsUnderLease deployment step id)) ∧
    ∀ earlier step later principal workspaceId sourceKey clock,
      history = earlier ++ step :: later →
      step.label = .deleteSource principal workspaceId sourceKey clock →
      StoredUnder system.store workspaceId sourceKey →
      ∃ enqueue ∈ later, Enqueues enqueue workspaceId sourceKey := by
  have settled := settled_of_runs runs
  refine ⟨settled.sound.current, ?_, fun id source found => settled.sound.listed_iff found, ?_, ?_⟩
  · intro id chunk found
    obtain ⟨source, present, _, version, scope⟩ := settled.sound.chunkSource id chunk found
    exact ⟨source, present, version, scope⟩
  · intro id job found
    constructor
    · exact settled.earned id job found
    · rintro ⟨step, member, session, embedded, drawn, rfl, commits, _⟩
      obtain ⟨same, present, succeeded⟩ :=
        settled.committed step member session embedded drawn commits
      rw [found] at present
      cases present
      exact succeeded
  · intro earlier step later principal workspaceId sourceKey clock splits label stored
    exact stored_again runs splits label stored

theorem oneDimension : 1 ≤ 1 ∧ 1 ≤ 4096 := by omega

theorem oneText : 1 ≤ 1 ∧ 1 ≤ 256 := by omega

theorem eightChunks : 1 ≤ 8 ∧ 8 ≤ 50 := by omega

theorem scansExactly : false = true → 1 ≤ 2000 := by simp

theorem hundredCandidates : 1 ≤ 100 ∧ 100 ≤ 1000 := by omega

/-- A deployment that embeds into one dimension and prices nothing. -/
def exampleDeployment : Deployment where
  pipeline := {
    modelDimensions := [(py "m", [1])], embeddingModel := py "m", dimensions := 1
    batchSize := 1, retrievalLimit := 8, retrievalStrategy := .vector, annEnabled := false
    hnswEfSearch := 100, spend := none, dimensions_range := oneDimension
    batchSize_range := oneText, retrievalLimit_range := eightChunks
    ann_dimensions := scansExactly, hnswEfSearch_range := hundredCandidates }
  runtime := { floatRepr := fun _ => "0.0", recursionLimit := 1000, sha256 := List.length }

/-- The owner of workspace 1. -/
def exampleOwner : Principal := ⟨"issuer", "owner"⟩

/-- A service in which that workspace has its owner. -/
def exampleOpening : System where
  store := { Store.empty with memberships := Table.empty.put (1, exampleOwner) .owner }
  sessions := .empty

/-- A document of one letter that everyone in its workspace may retrieve. -/
def exampleSource : KnowledgeSourceInput where
  sourceKey := py "k"
  version := py "1"
  title := py "t"
  text := py "a"
  accessScope := .workspace
  acl := []
  metadata := []
  maxChars := 200
  overlapChars := 0
  sourceKey_length := by decide
  version_length := by decide
  title_length := by decide
  text_length := by decide
  maxChars_range := by decide
  overlapChars_lt := by decide
  acl_scope := by decide

/-- Queue that document and index it. -/
def indexExample (jobId sourceId : Uuid) (key : String) (sessionId : Nat) : List Label := [
  .enqueue exampleOwner 1 exampleSource key jobId 0,
  .claim sessionId "worker" 30 jobId 1,
  .authorize sessionId true,
  .embed sessionId fun _ => .body (py "m") [(0, unitVector 1)] 7,
  .index sessionId ⟨sourceId, fun index => sourceId + 1 + index, 2, 3⟩,
  .settle sessionId 0 4]

/-- A check that a step deletes that document. -/
def deletesExample (step : Transition System Label) : Bool :=
  match step.label with
  | .deleteSource principal workspaceId sourceKey clock =>
    principal = exampleOwner && workspaceId = 1 && sourceKey = py "k" && clock = 5
  | _ => false

theorem of_deletesExample {step : Transition System Label} (deletes : deletesExample step = true) :
    step.label = .deleteSource exampleOwner 1 (py "k") 5 := by
  unfold deletesExample at deletes
  split at deletes
  case h_1 principal workspaceId sourceKey clock label =>
    simp only [Bool.and_eq_true, decide_eq_true_eq] at deletes
    obtain ⟨⟨⟨rfl, rfl⟩, rfl⟩, rfl⟩ := deletes
    exact label
  case h_2 => cases deletes

/-- `knowledge_store_sound` applies to a run that indexes a document, deletes it and indexes it
again: the second request stands after the deletion. -/
theorem knowledge_store_sound_deleted :
    ∃ history system, (machine exampleDeployment).Runs history system ∧
      StoredUnder system.store 1 (py "k") ∧
      ∃ earlier step later, history = earlier ++ step :: later ∧
        step.label = .deleteSource exampleOwner 1 (py "k") 5 ∧
        ∃ enqueue ∈ later, Enqueues enqueue 1 (py "k") := by
  obtain ⟨history, system, runs, checked⟩ := Machine.exists_run_of_trace Opening
    (fun system label => System.run system exampleDeployment label)
    (indexExample 10 20 "first" 0 ++ .deleteSource exampleOwner 1 (py "k") 5 ::
      indexExample 11 30 "second" 1) exampleOpening
    (fun history system => (system.store.sources.find? 30).any (fun source =>
      source.workspaceId = 1 && source.sourceKey = py "k") &&
      Machine.splitsAt history 6 fun _ step _ => deletesExample step)
    ⟨rfl, _, _, _, rfl⟩ (by decide +kernel)
  simp only [Bool.and_eq_true, Option.any_eq_true, decide_eq_true_eq] at checked
  obtain ⟨⟨source, found, ofWorkspace, ofKey⟩, splits⟩ := checked
  obtain ⟨earlier, step, later, rfl, deletes⟩ := Machine.exists_split splits
  have label := of_deletesExample deletes
  have stored : StoredUnder system.store 1 (py "k") := .inl ⟨30, source, found, ofWorkspace, ofKey⟩
  have sound := knowledge_store_sound exampleDeployment _ system runs
  have queued := sound.2.2.2.2 earlier step later exampleOwner 1 (py "k") 5 rfl label stored
  exact ⟨_, system, runs, stored, earlier, step, later, rfl, label, queued⟩

end Nexora.Knowledge
