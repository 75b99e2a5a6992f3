import Nexora.Publishing.Listing

/-!
# The catalog publisher

`publish_agent` of `scripts/publish_catalog.py`, against a platform in any state its history has
led to. The platform refuses every version that is not higher than all it holds with one status,
which the script takes for a version that is already published.
-/

namespace Nexora.Publishing

open Nexora.Std Nexora.Workspace Nexora.Catalog

/-- A package's document by the members the script reads, with what the contract of a manifest
makes of it. -/
structure Package where
  slug : String
  name : String
  description : String
  category : String
  icon : String
  status : Option String
  version : String
  manifest : Option ManifestDocument

/-- A request of the script. -/
inductive Request where
  | lookUpAgent (slug : String)
  | createAgent (slug name description category icon status : String)
  | publishVersion (slug : String) (manifest : Option ManifestDocument)

/-- What `_request` returns: a status, and a payload as it is printed. -/
structure Answer where
  status : Nat
  payload : String

/-- How publishing fails: a `PublishError`, or another exception of a request. -/
inductive PublishFailure where
  | publishError (text : String)
  | raised

/-- `_request`. -/
abbrev Send := Request → Except PublishFailure Answer

/-- A catalog entry is looked up, and created where there is none. -/
def ensureEntry (send : Send) (package : Package) : Except PublishFailure Unit := do
  let lookedUp ← send (.lookUpAgent package.slug)
  if lookedUp.status = 404 then do
    let created ← send (.createAgent package.slug package.name package.description
      package.category package.icon (package.status.getD "draft"))
    raiseIf (created.status ≠ 201) (.publishError ("agents/" ++ package.slug ++
      ": catalog entry refused with " ++ toString created.status ++ " " ++ created.payload))
  else
    raiseIf (lookedUp.status ≠ 200) (.publishError ("agents/" ++ package.slug ++
      ": catalog lookup answered " ++ toString lookedUp.status))

/-- The report of a version that was published. -/
def Package.published (package : Package) : String :=
  "agents/" ++ package.slug ++ " " ++ package.version

/-- The report of a version the platform did not take. -/
def Package.alreadyPublished (package : Package) : String :=
  package.published ++ " already published"

/-- `publish_agent`. -/
def publishAgent (send : Send) (package : Package) : Except PublishFailure String := do
  ensureEntry send package
  let answer ← send (.publishVersion package.slug package.manifest)
  if answer.status = 409 then pure package.alreadyPublished
  else do
    raiseIf (answer.status ≠ 201) (.publishError ("agents/" ++ package.slug ++ ": version " ++
      package.version ++ " refused with " ++ toString answer.status ++ " " ++ answer.payload))
    pure package.published

/-- `publish_version` up to its comparison. -/
def State.openVersion (state : State) (id : Nat) (principal : Principal) (slug : String)
    (manifest : ManifestDocument) (now : Instant) : Except Refusal State := do
  let begun ← state.beginWork id (.publishVersion principal slug manifest) now
  let locked ← begun.lockAgent id
  locked.readHighest id

/-- `publish_version` from its first statement to its commit. -/
def State.publishVersion (state : State) (id : Nat) (principal : Principal) (slug : String)
    (manifest : ManifestDocument) (versionId : Uuid) (now : Instant) : Except Refusal State := do
  let read ← state.openVersion id principal slug manifest now
  let inserted ← read.insertVersion id versionId
  inserted.commit id

/-- What may answer a request before its handler does. -/
inductive Stop where
  | unauthenticated
  | notAdministrator
  | malformed
  | limited
  | unavailable

/-- The status of such an answer. -/
def Stop.status : Stop → Nat
  | .unauthenticated => 401
  | .notAdministrator => 404
  | .malformed => 422
  | .limited => 429
  | .unavailable => 503

/-- The status a handler's result is answered with. -/
def statusOf : Except Refusal State → Nat
  | .ok _ => 201
  | .error (.failed (.http status _)) => status
  | .error _ => 500

/-- The platform as the request for a version reaches it. -/
structure Platform where
  state : State
  id : Nat
  principal : Principal
  versionId : Uuid
  now : Instant
  stop : Option Stop

/-- The status the platform answers a version with. -/
def Platform.status (platform : Platform) (package : Package) : Nat :=
  match platform.stop, package.manifest with
  | some stop, _ => stop.status
  | none, none => Stop.malformed.status
  | none, some manifest =>
    statusOf (platform.state.publishVersion platform.id platform.principal package.slug manifest
      platform.versionId platform.now)

/-- The script's request for a version is answered by the platform, or fails. -/
def AnsweredBy (platform : Platform) (package : Package) (send : Send) : Prop :=
  ∀ answer, send (.publishVersion package.slug package.manifest) = .ok answer →
    answer.status = platform.status package

/-- A version of the package's agent. -/
def VersionOf (platform : Platform) (package : Package) (record : VersionRecord) : Prop :=
  platform.state.agentNamed package.slug = .ok record.catalogAgentId ∧
    ∃ id, platform.state.committed.find? id = some record

/-- The platform holds the package's version with exactly its manifest. -/
def Held (platform : Platform) (package : Package) : Prop :=
  ∃ manifest record, package.manifest = some manifest ∧ VersionOf platform package record ∧
    record.version = manifest.version.text ∧ record.manifest = manifest

/-- The content changed without a higher version. -/
def Changed (platform : Platform) (package : Package) : Prop :=
  ∃ manifest record, package.manifest = some manifest ∧ VersionOf platform package record ∧
    record.version = manifest.version.text ∧ record.manifest ≠ manifest

/-- The version was never published and a higher one exists. -/
def Overtaken (platform : Platform) (package : Package) : Prop :=
  ∃ manifest, package.manifest = some manifest ∧
    (∀ record, VersionOf platform package record → record.version ≠ manifest.version.text) ∧
    ∃ record, VersionOf platform package record ∧
      manifest.version.parts < record.number.parts

/-- The publisher hides no change. -/
structure HidesNothing (platform : Platform) (package : Package) (send : Send) : Prop where
  held : publishAgent send package = .ok package.alreadyPublished → Held platform package
  reported : Changed platform package ∨ Overtaken platform package →
    ∃ failure, publishAgent send package = .error failure

/-- The package's catalog entry is there, or is created. -/
inductive Listed (package : Package) (send : Send) : Prop
  | there (answer : Answer) (sent : send (.lookUpAgent package.slug) = .ok answer)
      (known : answer.status = 200)
  | created (answer created : Answer) (sent : send (.lookUpAgent package.slug) = .ok answer)
      (unknown : answer.status = 404)
      (sentNext : send (.createAgent package.slug package.name package.description
        package.category package.icon (package.status.getD "draft")) = .ok created)
      (accepted : created.status = 201)

/-- The platform gets to compare the package's version with those it holds. -/
structure Compared (platform : Platform) (package : Package) (send : Send)
    (manifest : ManifestDocument) : Prop where
  entry : Listed package send
  answered : ∃ answer, send (.publishVersion package.slug package.manifest) = .ok answer
  admitted : platform.stop = none
  valid : package.manifest = some manifest
  sameSlug : manifest.slug = package.slug
  readable : manifest.version.Readable
  idle : platform.state.running.find? platform.id = none
  free : ∃ agentId, platform.state.agentNamed package.slug = .ok agentId ∧
    platform.state.isBlocked platform.id (.agent agentId) = false

/-- Every version the platform holds of the agent is lower. -/
def Lower (platform : Platform) (package : Package) (manifest : ManifestDocument) : Prop :=
  ∀ record, VersionOf platform package record → record.number.parts < manifest.version.parts

variable {status : Nat}

section Handling

variable {state : State} {id : Nat} {principal : Principal} {slug : String}
  {manifest : ManifestDocument} {versionId : Uuid} {now : Instant}

/-- A transaction's own locks do not block it. -/
theorem isBlocked_progress (tx : Tx) (lock : Lock) :
    (state.progress id tx).isBlocked id lock = state.isBlocked id lock := by
  rw [Bool.eq_iff_iff, State.isBlocked, State.isBlocked, blocked, blocked, Table.any_eq_true,
    Table.any_eq_true]
  constructor
  · rintro ⟨other, held, found, conflict⟩
    have distinct : other ≠ id := by
      rintro rfl
      simp at conflict
    rw [State.progress, Table.find?_put_ne _ _ distinct] at found
    exact ⟨other, held, found, conflict⟩
  · rintro ⟨other, held, found, conflict⟩
    have distinct : other ≠ id := by
      rintro rfl
      simp at conflict
    refine ⟨other, held, ?_, conflict⟩
    rw [State.progress, Table.find?_put_ne _ _ distinct]
    exact found

/-- The text of the highest version of an agent. -/
def State.highestText (state : State) (agentId : Uuid) : Option String :=
  (highest State.rank 1 (state.versionsOf agentId)).head?.map fun entry => entry.2.version

@[simp]
theorem find?_progress (tx : Tx) : (state.progress id tx).running.find? id = some tx :=
  Table.find?_put _ _ _

theorem agentNamed_progress (tx : Tx) :
    (state.progress id tx).agentNamed slug = state.agentNamed slug := rfl

theorem lockAgent_begun
    (begun : state.running.find? id =
      some ⟨.publishVersion principal slug manifest, now, .begun, []⟩) :
    state.lockAgent id = (do
      let agentId ← state.agentNamed slug
      raiseIf (state.isBlocked id (.agent agentId) = true) .waits
      pure (state.progress id ⟨.publishVersion principal slug manifest, now, .agentLocked agentId,
        [.agent agentId]⟩)) := by
  rw [State.lockAgent, State.running?, begun]
  rfl

theorem readHighest_locked {work : Work} {agentId : Uuid} {locks : List Lock}
    (locked : state.running.find? id = some ⟨work, now, .agentLocked agentId, locks⟩) :
    state.readHighest id = .ok (state.progress id
      ⟨work, now, .highestRead agentId (state.highestText agentId), locks⟩) := by
  rw [State.readHighest, State.running?, locked]
  rfl

/-- What the statements before the comparison came to. -/
theorem openVersion_eq_ok {read : State} :
    state.openVersion id principal slug manifest now = .ok read ↔
      state.running.find? id = none ∧ manifest.slug = slug ∧
        ∃ agentId, state.agentNamed slug = .ok agentId ∧
          state.isBlocked id (.agent agentId) = false ∧
          read = ((state.progress id
            ⟨.publishVersion principal slug manifest, now, .begun, []⟩).progress id
            ⟨.publishVersion principal slug manifest, now, .agentLocked agentId,
              [.agent agentId]⟩).progress id
            ⟨.publishVersion principal slug manifest, now,
              .highestRead agentId (state.highestText agentId), [.agent agentId]⟩ := by
  have opens (begun : State) :
      state.beginWork id (.publishVersion principal slug manifest) now = .ok begun ↔
        state.running.find? id = none ∧ manifest.slug = slug ∧
          begun = state.progress id ⟨.publishVersion principal slug manifest, now, .begun, []⟩ := by
    simp only [State.beginWork, bind_check_eq_ok, raiseIf_eq_ok, Work.check, pure_eq_ok, ne_eq,
      not_not, Option.not_isSome_iff_eq_none]
    exact and_congr_right fun _ => and_congr_right fun _ => eq_comm
  have locks (locked : State) :
      (state.progress id ⟨.publishVersion principal slug manifest, now, .begun, []⟩).lockAgent id =
        .ok locked ↔ ∃ agentId, state.agentNamed slug = .ok agentId ∧
          state.isBlocked id (.agent agentId) = false ∧
          locked = (state.progress id
            ⟨.publishVersion principal slug manifest, now, .begun, []⟩).progress id
            ⟨.publishVersion principal slug manifest, now, .agentLocked agentId,
              [.agent agentId]⟩ := by
    rw [lockAgent_begun (find?_progress _), bind_eq_ok]
    simp only [agentNamed_progress, bind_check_eq_ok, raiseIf_eq_ok, isBlocked_progress, pure_eq_ok,
      Bool.not_eq_true]
    exact exists_congr fun agentId => and_congr_right fun _ => and_congr_right fun _ => eq_comm
  rw [State.openVersion, bind_eq_ok]
  constructor
  · rintro ⟨begun, begins, rest⟩
    rw [bind_eq_ok] at rest
    obtain ⟨locked, lock, reads⟩ := rest
    obtain ⟨idle, same, rfl⟩ := (opens begun).mp begins
    obtain ⟨agentId, named, free, rfl⟩ := (locks locked).mp lock
    rw [readHighest_locked (find?_progress _), Except.ok.injEq] at reads
    exact ⟨idle, same, agentId, named, free, reads.symm⟩
  · rintro ⟨idle, same, agentId, named, free, rfl⟩
    refine ⟨_, (opens _).mpr ⟨idle, same, rfl⟩, ?_⟩
    rw [bind_eq_ok]
    exact ⟨_, (locks _).mpr ⟨agentId, named, free, rfl⟩, readHighest_locked (find?_progress _)⟩

/-- The refusals a status answers. -/
def Answers (status : Nat) (refusal : Refusal) : Prop :=
  ∃ detail, refusal = .failed (.http status detail)

theorem not_answers {refusal : Refusal}
    (unlike : ∀ detail, refusal ≠ .failed (.http status detail)) : ¬ Answers status refusal := by
  rintro ⟨detail, same⟩
  exact unlike detail same

theorem refused_orRaise_spares {α : Type} {option : Option α} {failure : Failure}
    (unlike : ∀ detail, failure ≠ .http status detail) :
    Spares (Answers status) (refused (orRaise option failure)) := by
  cases option with
  | some value => exact .ok value
  | none => exact .error (not_answers fun detail same => unlike detail (Refusal.failed.inj same))

theorem running?_spares : Spares (Answers status) (state.running? id) :=
  .orRaise (not_answers (by simp))

theorem openVersion_spares (notMissing : status ≠ 404) (notMalformed : status ≠ 422) :
    Spares (Answers status) (state.openVersion id principal slug manifest now) := by
  refine .bind ?_ fun begun _ => .bind ?_ fun locked _ => ?_
  · refine .bind (.raiseIf fun answers => absurd answers (not_answers (by simp))) fun _ _ =>
      .bind ?_ fun _ _ => .pure _
    exact .raiseIf fun answers => absurd answers (not_answers (by simp [Ne.symm notMalformed]))
  · refine .bind running?_spares fun tx _ => ?_
    split
    · refine .bind (refused_orRaise_spares (by simp [Ne.symm notMissing])) fun _ _ =>
        .bind (.raiseIf fun answers => absurd answers (not_answers (by simp))) fun _ _ => .pure _
    · exact .error (not_answers (by simp))
  · refine .bind running?_spares fun tx _ => ?_
    split
    · exact .pure _
    · exact .error (not_answers (by simp))

theorem commit_spares : Spares (Answers status) (state.commit id) := by
  refine .bind running?_spares fun tx _ => ?_
  split
  · exact .pure _
  · exact .error (not_answers (by simp))

/-- The number in a text, and in the text of the version before it. -/
def Refuses (manifest : ManifestDocument) (previous : Option String) : Prop :=
  ∃ released, Version.ofText manifest.version.text = .ok released ∧
    ∃ text ∈ previous, ∃ version, Version.ofText text = .ok version ∧
      released.parts ≤ version.parts

section Inserting

variable {agentId : Uuid} {previous : Option String} {locks : List Lock}
  (read : state.running.find? id =
    some ⟨.publishVersion principal slug manifest, now, .highestRead agentId previous, locks⟩)
include read

/-- An insert is answered with no other status than 409, and with that only where the version is
not higher. -/
theorem insertVersion_spares (higher : status = 409 → ¬ Refuses manifest previous) :
    Spares (Answers status) (state.insertVersion id versionId) := by
  rw [State.insertVersion, State.running?, read]
  refine .bind (.ok _) fun tx same => ?_
  obtain rfl := Except.ok.inj same
  refine .bind (refused_orRaise_spares (by simp)) fun released reads =>
    .bind ?_ fun before readsBefore => .bind (.raiseIf ?_) fun _ _ =>
    .bind (.raiseIf fun answers => absurd answers (not_answers (by simp))) fun _ _ =>
    .bind (.raiseIf fun answers => absurd answers (not_answers (by simp))) fun _ _ =>
    .bind (.raiseIf fun answers => absurd answers (not_answers (by simp))) fun _ _ => .pure _
  · cases previous with
    | none => exact .ok _
    | some text =>
      rw [Option.mapM_some, Version.ofText]
      cases Version.readParts (text.toList.splitOn '.') with
      | none => exact .error (not_answers (by simp))
      | some version => exact .ok _
  · rintro ⟨detail, isConflict⟩ ⟨version, member, above⟩
    have isStatus : status = 409 := by
      injection isConflict with isConflict
      injection isConflict with isConflict
      exact isConflict.symm
    rw [refused_eq_ok] at reads readsBefore
    refine higher isStatus ⟨released, reads, ?_⟩
    cases previous with
    | none =>
      cases readsBefore
      cases member
    | some text =>
      rw [Option.mapM_some, map_eq_pure_bind, bind_eq_ok] at readsBefore
      obtain ⟨found, isFound, same⟩ := readsBefore
      obtain rfl := (pure_eq_ok _ _).mp same
      obtain rfl := Option.some.inj member
      exact ⟨text, rfl, found, isFound, above⟩

/-- An insert is refused with 409 for a version that is not higher. -/
theorem insertVersion_conflict (refuses : Refuses manifest previous) :
    ∃ raised, state.insertVersion id versionId = .error raised ∧ Answers 409 raised := by
  obtain ⟨released, reads, text, isBefore, version, readsBefore, above⟩ := refuses
  rw [Option.mem_def] at isBefore
  subst isBefore
  refine ⟨.failed (.http 409
    (some "A published version never changes; publish a higher semantic version")), ?_, _, rfl⟩
  rw [State.insertVersion, State.running?, read]
  refine (bind_eq_error _ _ _).mpr (.inr ⟨_, rfl, ?_⟩)
  refine (bind_eq_error _ _ _).mpr (.inr ⟨released, (refused_eq_ok _ _).mpr reads, ?_⟩)
  refine (bind_eq_error _ _ _).mpr (.inr ⟨some version, (refused_eq_ok _ _).mpr ?_, ?_⟩)
  · rw [Option.mapM_some, readsBefore]
    rfl
  · exact (bind_eq_error _ _ _).mpr (.inl ((raiseIf_eq_error _ _ _).mpr
      ⟨⟨version, rfl, above⟩, rfl⟩))

end Inserting

/-- No statement of `publish_version` fails with 201. -/
theorem exists_published
    (created : statusOf (state.publishVersion id principal slug manifest versionId now) = 201) :
    ∃ next, state.publishVersion id principal slug manifest versionId now = .ok next := by
  have spares : Spares (Answers 201)
      (state.publishVersion id principal slug manifest versionId now) := by
    refine .bind (openVersion_spares (by decide) (by decide)) fun read opens =>
      .bind ?_ fun _ _ => commit_spares
    obtain ⟨-, -, agentId, -, -, rfl⟩ := openVersion_eq_ok.mp opens
    exact insertVersion_spares (find?_progress _) fun same => absurd same (by decide)
  unfold statusOf at created
  split at created
  case h_1 next ok => exact ⟨next, ok⟩
  case h_2 status detail failed =>
    subst created
    exact absurd ⟨detail, rfl⟩ (spares _ failed)
  case h_3 => cases created

/-- The highest version is not lower exactly where some version is not. -/
theorem refuses_iff (steady : Steady state) {agentId : Uuid} :
    Refuses manifest (state.highestText agentId) ↔ manifest.version.Readable ∧
      ∃ other record, state.committed.find? other = some record ∧
        record.catalogAgentId = agentId ∧ manifest.version.parts ≤ record.number.parts := by
  constructor
  · rintro ⟨released, reads, text, isTop, version, readsTop, above⟩
    obtain ⟨same, readable⟩ := Version.ofText_eq_ok.mp reads
    obtain rfl := Version.text_injective same
    obtain ⟨top, first, rfl⟩ := Option.map_eq_some_iff.mp isTop
    have listed := (mem_orderBy _).mp (List.mem_of_mem_take (List.mem_of_head? first))
    obtain ⟨present, ofAgent⟩ := (Table.mem_select _ _ _ _).mp listed
    rw [steady.sound.ofText present, Except.ok.injEq] at readsTop
    exact ⟨readable, top.1, top.2, present, of_decide_eq_true ofAgent, readsTop ▸ above⟩
  · rintro ⟨readable, other, record, present, ofAgent, above⟩
    have listed : (other, record) ∈ state.versionsOf agentId :=
      (Table.mem_select _ _ _ _).mpr ⟨present, decide_eq_true ofAgent⟩
    obtain ⟨top, first, member, highest⟩ := @exists_highest _ _ _ State.rank _ _ listed
    have there := ((Table.mem_select _ _ _ _).mp member).1
    exact ⟨manifest.version, Version.ofText_eq_ok.mpr ⟨rfl, readable⟩, top.2.version,
      Option.map_eq_some_iff.mpr ⟨top, first, rfl⟩, top.2.number, steady.sound.ofText there,
      above.trans highest⟩

/-- A version is refused with 409 exactly when it is compared with one that is not lower. -/
theorem publishVersion_conflict (steady : Steady state) :
    (∃ raised, state.publishVersion id principal slug manifest versionId now = .error raised ∧
      Answers 409 raised) ↔
      state.running.find? id = none ∧ manifest.slug = slug ∧ manifest.version.Readable ∧
        ∃ agentId, state.agentNamed slug = .ok agentId ∧
          state.isBlocked id (.agent agentId) = false ∧
          ∃ other record, state.committed.find? other = some record ∧
            record.catalogAgentId = agentId ∧ manifest.version.parts ≤ record.number.parts := by
  constructor
  · rintro ⟨raised, failed, answers⟩
    rcases (bind_eq_error _ _ _).mp failed with opening | ⟨read, opens, rest⟩
    · exact absurd answers (openVersion_spares (by decide) (by decide) raised opening)
    obtain ⟨idle, same, agentId, named, free, rfl⟩ := openVersion_eq_ok.mp opens
    rcases (bind_eq_error _ _ _).mp rest with inserting | ⟨inserted, -, commits⟩
    · have refuses : Refuses manifest (state.highestText agentId) := by
        by_contra higher
        exact insertVersion_spares (find?_progress _) (fun _ => higher) raised inserting answers
      obtain ⟨readable, higher⟩ := (refuses_iff steady).mp refuses
      exact ⟨idle, same, readable, agentId, named, free, higher⟩
    · exact absurd answers (commit_spares raised commits)
  · rintro ⟨idle, same, readable, agentId, named, free, higher⟩
    have opens := (@openVersion_eq_ok state id principal slug manifest now _).mpr
      ⟨idle, same, agentId, named, free, rfl⟩
    obtain ⟨raised, inserting, answers⟩ := @insertVersion_conflict _ id _ _ _ versionId _ _ _ _
      (find?_progress _) ((refuses_iff steady).mpr ⟨readable, higher⟩)
    refine ⟨raised, ?_, answers⟩
    exact (bind_eq_error _ _ _).mpr (.inr ⟨_, opens, (bind_eq_error _ _ _).mpr (.inl inserting)⟩)

/-- A version that is published is higher than all of its agent. -/
theorem publishVersion_lower {next : State} (steady : Steady state)
    (ok : state.publishVersion id principal slug manifest versionId now = .ok next) :
    ∃ agentId, state.agentNamed slug = .ok agentId ∧
      ∀ other record, state.committed.find? other = some record →
        record.catalogAgentId = agentId → record.number.parts < manifest.version.parts := by
  obtain ⟨read, opens, rest⟩ := (bind_eq_ok _ _ _).mp ok
  obtain ⟨inserted, inserts, -⟩ := (bind_eq_ok _ _ _).mp rest
  obtain ⟨idle, same, agentId, named, free, rfl⟩ := openVersion_eq_ok.mp opens
  refine ⟨agentId, named, fun other record present ofAgent => ?_⟩
  by_contra notLower
  have readable : manifest.version.Readable := by
    have reads := inserts
    rw [State.insertVersion, State.running?, find?_progress] at reads
    obtain ⟨_, isTx, reads⟩ := (bind_eq_ok _ _ _).mp reads
    obtain rfl := Except.ok.inj isTx
    obtain ⟨released, reads, -⟩ := (bind_eq_ok _ _ _).mp reads
    obtain ⟨isText, readable⟩ := Version.ofText_eq_ok.mp ((refused_eq_ok _ _).mp reads)
    obtain rfl := Version.text_injective isText
    exact readable
  obtain ⟨raised, failed, -⟩ := @insertVersion_conflict _ id _ _ _ versionId _ _ _ _
    (find?_progress _) ((refuses_iff steady).mpr
      ⟨readable, other, record, present, ofAgent, not_lt.mp notLower⟩)
  rw [failed] at inserts
  cases inserts

theorem statusOf_eq {result : Except Refusal State} (isFailure : 201 < status)
    (isKnown : status ≠ 500) :
    statusOf result = status ↔ ∃ raised, result = .error raised ∧ Answers status raised := by
  constructor
  · intro same
    unfold statusOf at same
    split at same
    case h_1 => omega
    case h_2 code detail =>
      subst same
      exact ⟨_, rfl, detail, rfl⟩
    case h_3 => omega
  · rintro ⟨_, rfl, detail, rfl⟩
    rfl

end Handling

section Script

variable {send : Send} {package : Package} {platform : Platform}

theorem ensureEntry_eq_ok : ensureEntry send package = .ok () ↔ Listed package send := by
  unfold ensureEntry
  rw [bind_eq_ok]
  constructor
  · rintro ⟨answer, sent, rest⟩
    split at rest
    · rename_i unknown
      obtain ⟨created, sentNext, accepted⟩ := (bind_eq_ok _ _ _).mp rest
      exact .created answer created sent unknown sentNext
        (not_not.mp ((raiseIf_eq_ok _ _ _).mp accepted))
    · exact .there answer sent (not_not.mp ((raiseIf_eq_ok _ _ _).mp rest))
  · rintro (⟨answer, sent, known⟩ | ⟨answer, created, sent, unknown, sentNext, accepted⟩)
    · refine ⟨answer, sent, ?_⟩
      rw [if_neg (by omega), raiseIf_eq_ok, not_not]
      exact known
    · refine ⟨answer, sent, ?_⟩
      rw [if_pos unknown, bind_eq_ok]
      exact ⟨created, sentNext, (raiseIf_eq_ok _ _ _).mpr (not_not.mpr accepted)⟩

/-- What the script reports stands for one of two statuses. -/
theorem publishAgent_eq_ok {report : String} :
    publishAgent send package = .ok report ↔ Listed package send ∧
      ∃ answer, send (.publishVersion package.slug package.manifest) = .ok answer ∧
        (answer.status = 409 ∧ report = package.alreadyPublished ∨
          answer.status = 201 ∧ report = package.published) := by
  rw [publishAgent, bind_eq_ok, ← ensureEntry_eq_ok]
  constructor
  · rintro ⟨_, listed, rest⟩
    obtain ⟨answer, sent, rest⟩ := (bind_eq_ok _ _ _).mp rest
    refine ⟨listed, answer, sent, ?_⟩
    split at rest
    · rename_i conflict
      exact .inl ⟨conflict, ((pure_eq_ok _ _).mp rest).symm⟩
    · obtain ⟨_, accepted, rest⟩ := (bind_eq_ok _ _ _).mp rest
      exact .inr ⟨not_not.mp ((raiseIf_eq_ok _ _ _).mp accepted), ((pure_eq_ok _ _).mp rest).symm⟩
  · rintro ⟨listed, answer, sent, outcome⟩
    refine ⟨(), listed, (bind_eq_ok _ _ _).mpr ⟨answer, sent, ?_⟩⟩
    rcases outcome with ⟨conflict, rfl⟩ | ⟨accepted, rfl⟩
    · rw [if_pos conflict]
      rfl
    · rw [if_neg (by omega), bind_eq_ok]
      exact ⟨⟨⟩, (raiseIf_eq_ok _ _ _).mpr (not_not.mpr accepted), rfl⟩

theorem published_ne_alreadyPublished (package : Package) :
    package.published ≠ package.alreadyPublished := by
  intro same
  have lengths := congrArg String.length same
  rw [Package.alreadyPublished, String.length_append] at lengths
  have longer : (" already published").length = 18 := rfl
  omega

/-- A status of the handler comes from a version it was given. -/
theorem Platform.handled (isHandler : ∀ stop : Stop, stop.status ≠ status)
    (same : platform.status package = status) :
    platform.stop = none ∧ ∃ manifest, package.manifest = some manifest ∧
      statusOf (platform.state.publishVersion platform.id platform.principal package.slug manifest
        platform.versionId platform.now) = status := by
  unfold Platform.status at same
  split at same
  case h_1 _ _ stop _ => exact absurd same (isHandler stop)
  case h_2 => exact absurd same (isHandler .malformed)
  case h_3 manifest admitted valid => exact ⟨admitted, manifest, valid, same⟩

/-- An agent has one version under a text. -/
theorem VersionOf.unique (steady : Steady platform.state) {first second : VersionRecord}
    (isFirst : VersionOf platform package first) (isSecond : VersionOf platform package second)
    (same : first.version = second.version) : first = second := by
  obtain ⟨named, id, present⟩ := isFirst
  obtain ⟨also, other, there⟩ := isSecond
  rw [named, Except.ok.injEq] at also
  have number : first.number = second.number := by
    apply Version.text_injective
    rw [← steady.sound.text id first present, ← steady.sound.text other second there, same]
  obtain rfl := steady.sound.unique id other first second present there also number
  rw [present] at there
  exact Option.some.inj there

/-- A version that is not higher is reported as published. -/
theorem Compared.conflict (steady : Steady platform.state)
    (answered : AnsweredBy platform package send) {manifest : ManifestDocument}
    (compared : Compared platform package send manifest)
    (notLower : ¬ Lower platform package manifest) :
    publishAgent send package = .ok package.alreadyPublished := by
  obtain ⟨record, ofAgent, above⟩ : ∃ record, VersionOf platform package record ∧
      manifest.version.parts ≤ record.number.parts := by
    by_contra none
    refine notLower fun record ofAgent => ?_
    by_contra above
    exact none ⟨record, ofAgent, not_lt.mp above⟩
  obtain ⟨agentId, named, free⟩ := compared.free
  obtain ⟨also, id, present⟩ := ofAgent
  rw [named, Except.ok.injEq] at also
  have conflicts := (statusOf_eq (by decide) (by decide)).mpr
    ((@publishVersion_conflict _ platform.id platform.principal package.slug manifest
      platform.versionId platform.now steady).mpr ⟨compared.idle, compared.sameSlug,
        compared.readable, agentId, named, free, id, record, present, also.symm, above⟩)
  obtain ⟨answer, sent⟩ := compared.answered
  refine publishAgent_eq_ok.mpr ⟨compared.entry, answer, sent, .inl ⟨?_, rfl⟩⟩
  rw [answered answer sent, Platform.status, compared.admitted, compared.valid]
  exact conflicts

/-- A version reported as published before is one that is not higher. -/
theorem exists_compared (steady : Steady platform.state)
    (answered : AnsweredBy platform package send)
    (reports : publishAgent send package = .ok package.alreadyPublished) :
    ∃ manifest, Compared platform package send manifest ∧ ¬ Lower platform package manifest := by
  obtain ⟨listed, answer, sent, ⟨conflict, -⟩ | ⟨-, same⟩⟩ := publishAgent_eq_ok.mp reports
  · rw [answered answer sent] at conflict
    obtain ⟨admitted, manifest, valid, status⟩ :=
      Platform.handled (by rintro ⟨⟩ <;> decide) conflict
    obtain ⟨idle, sameSlug, readable, agentId, named, free, id, record, present, ofAgent, above⟩ :=
      (publishVersion_conflict steady).mp ((statusOf_eq (by decide) (by decide)).mp status)
    refine ⟨manifest, ⟨listed, ⟨answer, sent⟩, admitted, valid, sameSlug, readable, idle,
      agentId, named, free⟩, fun lower => ?_⟩
    exact absurd (lower record ⟨ofAgent ▸ named, id, present⟩) (not_lt.mpr above)
  · exact absurd same.symm (published_ne_alreadyPublished package)

/-- A version reported as published now is higher than all before it. -/
theorem exists_lower (steady : Steady platform.state)
    (answered : AnsweredBy platform package send)
    (reports : publishAgent send package = .ok package.published) :
    ∃ manifest, package.manifest = some manifest ∧ Lower platform package manifest := by
  obtain ⟨-, answer, sent, ⟨-, same⟩ | ⟨accepted, -⟩⟩ := publishAgent_eq_ok.mp reports
  · exact absurd same (published_ne_alreadyPublished package)
  · rw [answered answer sent] at accepted
    obtain ⟨-, manifest, valid, status⟩ := Platform.handled (by rintro ⟨⟩ <;> decide) accepted
    refine ⟨manifest, valid, ?_⟩
    obtain ⟨next, published⟩ := exists_published status
    obtain ⟨agentId, named, lower⟩ := publishVersion_lower steady published
    rintro record ⟨also, id, present⟩
    rw [named, Except.ok.injEq] at also
    exact lower id record present also.symm

/-- A package whose content changed, or that was overtaken, is neither higher than all versions
nor held. -/
theorem not_hidden (steady : Steady platform.state) {manifest : ManifestDocument}
    (valid : package.manifest = some manifest)
    (hidden : Changed platform package ∨ Overtaken platform package) :
    ¬ Lower platform package manifest ∧ ¬ Held platform package := by
  rcases hidden with
    ⟨other, record, isValid, ofAgent, same, differs⟩ | ⟨other, isValid, never, above⟩
  · obtain rfl := Option.some.inj (valid.symm.trans isValid)
    constructor
    · intro lower
      obtain ⟨id, present⟩ := ofAgent.2
      have number : record.number = manifest.version := by
        apply Version.text_injective
        rw [← steady.sound.text id record present, same]
      have below := lower record ofAgent
      rw [number] at below
      exact lt_irrefl _ below
    · rintro ⟨held, heldRecord, isHeld, heldOf, heldSame, isManifest⟩
      obtain rfl := Option.some.inj (valid.symm.trans isHeld)
      obtain rfl := ofAgent.unique steady heldOf (same.trans heldSame.symm)
      exact differs isManifest
  · obtain rfl := Option.some.inj (valid.symm.trans isValid)
    constructor
    · intro lower
      obtain ⟨record, ofAgent, higher⟩ := above
      exact lt_asymm higher (lower record ofAgent)
    · rintro ⟨held, heldRecord, isHeld, heldOf, heldSame, -⟩
      obtain rfl := Option.some.inj (valid.symm.trans isHeld)
      exact never heldRecord heldOf heldSame

end Script

/-- The publisher hides no change exactly when every version the platform compares the
package's with is lower, or the platform holds the package's very manifest. -/
theorem publisher_hides_nothing_iff (history : List (Transition State Statement))
    (platform : Platform) (runs : machine.Runs history platform.state) (package : Package)
    (send : Send) (answered : AnsweredBy platform package send) :
    HidesNothing platform package send ↔
      ∀ manifest, Compared platform package send manifest →
        Lower platform package manifest ∨ Held platform package := by
  have steady := steady_of_runs runs
  constructor
  · intro hides manifest compared
    by_contra neither
    obtain ⟨notLower, notHeld⟩ := not_or.mp neither
    exact notHeld (hides.held (compared.conflict steady answered notLower))
  · intro condition
    have held (reports : publishAgent send package = .ok package.alreadyPublished) :
        Held platform package := by
      obtain ⟨manifest, compared, notLower⟩ := exists_compared steady answered reports
      exact (condition manifest compared).resolve_left notLower
    refine ⟨held, fun hidden => ?_⟩
    cases outcome : publishAgent send package with
    | error failure => exact ⟨failure, rfl⟩
    | ok report =>
      exfalso
      obtain ⟨-, answer, sent, ⟨-, rfl⟩ | ⟨-, rfl⟩⟩ := publishAgent_eq_ok.mp outcome
      · obtain ⟨manifest, compared, -⟩ := exists_compared steady answered outcome
        exact (not_hidden steady compared.valid hidden).2 (held outcome)
      · obtain ⟨manifest, valid, lower⟩ := exists_lower steady answered outcome
        exact (not_hidden steady valid hidden).1 lower

/-- The package of a manifest. -/
def packageOf (manifest : ManifestDocument) : Package where
  slug := manifest.slug
  name := "SEO"
  description := "Search"
  category := "marketing"
  icon := "search"
  status := none
  version := manifest.version.text
  manifest := some manifest

/-- A network that carries every request of the package to the platform. -/
def Platform.send (platform : Platform) (package : Package) : Send
  | .lookUpAgent _ => .ok ⟨200, ""⟩
  | .createAgent _ _ _ _ _ _ => .ok ⟨201, ""⟩
  | .publishVersion _ _ => .ok ⟨platform.status package, ""⟩

theorem Platform.answeredBy_send (platform : Platform) (package : Package) :
    AnsweredBy platform package (platform.send package) := by
  intro answer sent
  obtain rfl := Except.ok.inj sent
  rfl

/-- A release under way at a platform. -/
def releasing (state : State) : Platform := ⟨state, 2, ⟨"nexora", "owner"⟩, 12, 2, none⟩

/-- The platform holds version 1.0.0 of the agent. -/
def holdsFirst (state : State) : Bool :=
  (state.committed.find? 11).any fun record => record.catalogAgentId = 1 &&
    record.version = "1.0.0" && record.manifest = plainDocument ⟨1, 0, 0⟩

/-- Version 1.0.0 with a changelog. -/
def changedDocument : ManifestDocument :=
  { plainDocument ⟨1, 0, 0⟩ with changelog := "New prompts" }

/-- What the script reports of a manifest. -/
def report (state : State) (manifest : ManifestDocument) : Except PublishFailure String :=
  publishAgent ((releasing state).send (packageOf manifest)) (packageOf manifest)

theorem eq_ok_of_toOption {Error α : Type} {computation : Except Error α} {value : α}
    (succeeds : computation.toOption = some value) : computation = .ok value := by
  cases computation with
  | error raised => cases succeeds
  | ok result => exact congrArg _ (Option.some.inj succeeds)

/-- Version 1.0.0 is published, and what the script then reports of it with and without its
changelog. -/
theorem first_released :
    ∃ history state record, machine.Runs history state ∧ state.agentNamed "seo" = .ok 1 ∧
      state.committed.find? 11 = some record ∧ record.catalogAgentId = 1 ∧
      record.version = "1.0.0" ∧ record.manifest = plainDocument ⟨1, 0, 0⟩ ∧
      report state (plainDocument ⟨1, 0, 0⟩) = .ok "agents/seo 1.0.0 already published" ∧
      report state changedDocument = .ok "agents/seo 1.0.0 already published" := by
  obtain ⟨history, state, runs, checked⟩ := Machine.exists_run_of_trace Opening State.run
    (publishing 1 ⟨1, 0, 0⟩ 11) emptyCatalog
    (fun _ state => (state.agentNamed "seo").toOption = some 1 && holdsFirst state &&
      (report state (plainDocument ⟨1, 0, 0⟩)).toOption =
        some "agents/seo 1.0.0 already published" &&
      (report state changedDocument).toOption = some "agents/seo 1.0.0 already published")
    ⟨rfl, rfl, rfl⟩ (by decide +kernel)
  simp only [Bool.and_eq_true, decide_eq_true_eq] at checked
  obtain ⟨⟨⟨named, holds⟩, same⟩, changed⟩ := checked
  obtain ⟨record, present, facts⟩ := (Option.any_eq_true _ _).mp holds
  simp only [Bool.and_eq_true, decide_eq_true_eq] at facts
  exact ⟨history, state, record, runs, eq_ok_of_toOption named, present, facts.1.1, facts.1.2,
    facts.2, eq_ok_of_toOption same, eq_ok_of_toOption changed⟩

/-- `publisher_hides_nothing_iff` applies to a document that is published again as it is. -/
theorem publisher_hides_nothing_iff_republished :
    ∃ state, HidesNothing (releasing state) (packageOf (plainDocument ⟨1, 0, 0⟩))
        ((releasing state).send (packageOf (plainDocument ⟨1, 0, 0⟩))) ∧
      report state (plainDocument ⟨1, 0, 0⟩) = .ok "agents/seo 1.0.0 already published" := by
  obtain ⟨history, state, record, runs, named, present, ofAgent, isText, isManifest, same, -⟩ :=
    first_released
  refine ⟨state, ?_, same⟩
  refine (publisher_hides_nothing_iff history (releasing state) runs _ _
    (Platform.answeredBy_send _ _)).mpr ?_
  intro manifest compared
  exact .inr ⟨_, record, rfl, ⟨ofAgent ▸ named, 11, present⟩, isText, isManifest⟩

/-- A document whose content changed under its version is reported as already published. -/
theorem changed_document_hidden :
    ∃ history state, machine.Runs history state ∧
      AnsweredBy (releasing state) (packageOf changedDocument)
        ((releasing state).send (packageOf changedDocument)) ∧
      Changed (releasing state) (packageOf changedDocument) ∧
      publishAgent ((releasing state).send (packageOf changedDocument))
        (packageOf changedDocument) = .ok "agents/seo 1.0.0 already published" ∧
      ¬ HidesNothing (releasing state) (packageOf changedDocument)
        ((releasing state).send (packageOf changedDocument)) := by
  obtain ⟨history, state, record, runs, named, present, ofAgent, isText, isManifest, -, changed⟩ :=
    first_released
  have hidden : Changed (releasing state) (packageOf changedDocument) :=
    ⟨_, record, rfl, ⟨ofAgent ▸ named, 11, present⟩, isText, by rw [isManifest]; decide⟩
  refine ⟨history, state, runs, Platform.answeredBy_send _ _, hidden, changed, fun hides => ?_⟩
  obtain ⟨failure, failed⟩ := hides.reported (.inl hidden)
  rw [report] at changed
  rw [changed] at failed
  cases failed

end Nexora.Publishing
