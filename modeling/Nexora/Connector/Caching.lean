import Nexora.Std.History
import Nexora.Tenant.Integrations

/-!
# Cached connector definitions

Every process keeps the manifests it has parsed and uses one as long as the published version
number is the same. A publish holds the row of its definition from its upsert on, writes the
cache of its own process while its transaction is open, and may still fail. A read takes the row
in one statement and compares it with the cache when the answer is back. A process that stops is
never seen again: its open transactions roll back and its reads are not answered.
-/

namespace Nexora.Connector.Caching

open Nexora.Std Nexora.Integration Nexora.Tenant

/-- A publish whose transaction is open, and whether it has written its process's cache. -/
structure Publishing where
  process : Nat
  manifest : ConnectorManifest
  cached : Bool
  deriving DecidableEq

/-- A read whose statement has returned a row. -/
structure Reading where
  process : Nat
  definitionId : String
  row : ConnectorManifest
  deriving DecidableEq

/-- The published definitions, the caches of the processes, and what is under way. -/
structure System where
  definitions : Table String ConnectorManifest
  caches : Table (Nat × String) ConnectorManifest
  publishing : Table Nat Publishing
  reading : Table Nat Reading

/-- What the processes do; publishes and reads under way go by a number. -/
inductive Step where
  /-- `publish_definition` up to its upsert. -/
  | upsert (id process : Nat) (definitionId : String) (manifest : ConnectorManifest)
  /-- A publish writes the cache, before its transaction ends. -/
  | remember (id : Nat)
  | commit (id : Nat)
  /-- A publish fails at any point after its upsert. -/
  | rollback (id : Nat)
  /-- The statement of `_definition`. -/
  | select (id process : Nat) (definitionId : String)
  /-- `_definition` returns. -/
  | answer (id : Nat) (returned : ConnectorManifest)
  deriving DecidableEq

/-- A step that cannot happen in a state. -/
inductive Disabled where
  | waits
  | fails
  deriving DecidableEq

/-- Another publish holds the row of a definition. -/
def System.locked (system : System) (definitionId : String) : Bool :=
  system.publishing.any fun _ publish => publish.manifest.id = definitionId

/-- One step. -/
def run (system : System) : Step → Except Disabled System
  | .upsert id process definitionId manifest => do
      raiseIf (manifest.id ≠ definitionId) .fails
      raiseIf (system.locked manifest.id = true) .waits
      raiseIf (system.publishing.find? id ≠ none) .fails
      pure { system with publishing := system.publishing.put id ⟨process, manifest, false⟩ }
  | .remember id => do
      let publish ← orRaise (system.publishing.find? id) .fails
      pure { system with
        caches := system.caches.put (publish.process, publish.manifest.id) publish.manifest
        publishing := system.publishing.put id { publish with cached := true } }
  | .commit id => do
      let publish ← orRaise (system.publishing.find? id) .fails
      raiseIf (publish.cached = false) .fails
      pure { system with
        definitions := system.definitions.put publish.manifest.id publish.manifest
        publishing := system.publishing.erase id }
  | .rollback id => do
      raiseIf (system.publishing.find? id = none) .fails
      pure { system with publishing := system.publishing.erase id }
  | .select id process definitionId => do
      let row ← orRaise (system.definitions.find? definitionId) .fails
      raiseIf (system.reading.find? id ≠ none) .fails
      pure { system with reading := system.reading.put id ⟨process, definitionId, row⟩ }
  | .answer id returned => do
      let read ← orRaise (system.reading.find? id) .fails
      match (system.caches.find? (read.process, read.definitionId)).filter fun manifest =>
          manifest.version = read.row.version with
      | some cached => do
          raiseIf (returned ≠ cached) .fails
          pure { system with reading := system.reading.erase id }
      | none => do
          raiseIf (returned ≠ read.row) .fails
          pure { system with
            caches := system.caches.put (read.process, read.definitionId) read.row
            reading := system.reading.erase id }

/-- The published definitions before any process has read or published. -/
def opening (definitions : Table String ConnectorManifest) : System where
  definitions := definitions
  caches := .empty
  publishing := .empty
  reading := .empty

/-- The processes, over what is published when they start. -/
def machine (definitions : Table String ConnectorManifest) : Machine System Step :=
  .ofFunction (fun system => system = opening definitions) run

/-- The manifest a step publishes under an id. -/
def published (transition : Transition System Step) (definitionId : String) :
    Option ConnectorManifest :=
  match transition.label with
  | .commit id =>
    ((transition.before.publishing.find? id).filter fun publish =>
      publish.manifest.id = definitionId).map Publishing.manifest
  | _ => none

/-- What the publishes that have committed leave under an id. -/
def lastPublished (definitions : Table String ConnectorManifest)
    (history : List (Transition System Step)) (definitionId : String) : Option ConnectorManifest :=
  history.foldl (fun known transition => (published transition definitionId).or known)
    (definitions.find? definitionId)

/-- A step is the statement of one read. -/
def Selects (id : Nat) (transition : Transition System Step) : Prop :=
  ∃ process definitionId, transition.label = .select id process definitionId

/-- Every read returns the manifest that was stored when its statement ran, which is the one
last published by a transaction that committed. -/
def ReadsCoherently (definitions : Table String ConnectorManifest)
    (history : List (Transition System Step)) : Prop :=
  ∀ prior answered later id returned, history = prior ++ answered :: later →
    answered.label = .answer id returned →
    ∃ earlier selected between process definitionId,
      prior = earlier ++ selected :: between ∧
      selected.label = .select id process definitionId ∧
      (∀ transition ∈ between, ¬ Selects id transition) ∧
      selected.before.definitions.find? definitionId = some returned ∧
      lastPublished definitions earlier definitionId = some returned

/-- A manifest is not another one of the same version. -/
def agree (left right : ConnectorManifest) : Bool := left.version ≠ right.version || left = right

/-- A publish that begins publishes no second manifest of one version: what is stored, what
another process has cached and what a read has been handed under its id and version is the
manifest itself. -/
def keepsVersions (system : System) : Step → Bool
  | .upsert _ process definitionId manifest =>
    (system.definitions.find? definitionId).all (agree manifest) &&
    !(system.caches.any fun key cached =>
      key.1 ≠ process && key.2 = definitionId && !agree manifest cached) &&
    !(system.reading.any fun _ read =>
      read.definitionId = definitionId && !agree manifest read.row)
  | _ => true

variable {definitions : Table String ConnectorManifest} {system next : System} {label : Step}
  {id process : Nat} {manifest : ConnectorManifest} {definitionId : String}
  {history : List (Transition System Step)} {read : Reading} {publish : Publishing}

/-- What each step does. -/
inductive Stepped (system : System) : Step → System → Prop where
  | upsert {id process : Nat} {manifest : ConnectorManifest}
      (free : system.locked manifest.id = false) (unused : system.publishing.find? id = none) :
      Stepped system (.upsert id process manifest.id manifest)
        { system with publishing := system.publishing.put id ⟨process, manifest, false⟩ }
  | remember {id : Nat} {publish : Publishing}
      (begun : system.publishing.find? id = some publish) :
      Stepped system (.remember id)
        { system with
          caches := system.caches.put (publish.process, publish.manifest.id) publish.manifest
          publishing := system.publishing.put id { publish with cached := true } }
  | commit {id : Nat} {publish : Publishing}
      (begun : system.publishing.find? id = some publish) (cached : publish.cached = true) :
      Stepped system (.commit id)
        { system with
          definitions := system.definitions.put publish.manifest.id publish.manifest
          publishing := system.publishing.erase id }
  | rollback {id : Nat} :
      Stepped system (.rollback id)
        { system with publishing := system.publishing.erase id }
  | select {id process : Nat} {definitionId : String} {row : ConnectorManifest}
      (stored : system.definitions.find? definitionId = some row)
      (unused : system.reading.find? id = none) :
      Stepped system (.select id process definitionId)
        { system with reading := system.reading.put id ⟨process, definitionId, row⟩ }
  | answerCached {id : Nat} {read : Reading} {cached : ConnectorManifest}
      (begun : system.reading.find? id = some read)
      (known : system.caches.find? (read.process, read.definitionId) = some cached)
      (same : cached.version = read.row.version) :
      Stepped system (.answer id cached) { system with reading := system.reading.erase id }
  | answerRow {id : Nat} {read : Reading} (begun : system.reading.find? id = some read) :
      Stepped system (.answer id read.row)
        { system with
          caches := system.caches.put (read.process, read.definitionId) read.row
          reading := system.reading.erase id }

theorem stepped_of_run (ran : run system label = .ok next) : Stepped system label next := by
  cases label with
  | upsert id process definitionId manifest =>
    simp only [run, bind_eq_ok, raiseIf_eq_ok, pure_eq_ok] at ran
    obtain ⟨_, named, _, free, _, unused, rfl⟩ := ran
    obtain rfl := not_not.mp named
    exact .upsert (by simpa using free) (not_not.mp unused)
  | remember id =>
    simp only [run, bind_eq_ok, orRaise_eq_ok, pure_eq_ok] at ran
    obtain ⟨publish, begun, rfl⟩ := ran
    exact .remember begun
  | commit id =>
    simp only [run, bind_eq_ok, orRaise_eq_ok, raiseIf_eq_ok, pure_eq_ok] at ran
    obtain ⟨publish, begun, _, cached, rfl⟩ := ran
    exact .commit begun (by simpa using cached)
  | rollback id =>
    simp only [run, bind_eq_ok, raiseIf_eq_ok, pure_eq_ok] at ran
    obtain ⟨_, _, rfl⟩ := ran
    exact .rollback
  | select id process definitionId =>
    simp only [run, bind_eq_ok, orRaise_eq_ok, raiseIf_eq_ok, pure_eq_ok] at ran
    obtain ⟨row, stored, _, unused, rfl⟩ := ran
    exact .select stored (not_not.mp unused)
  | answer id returned =>
    simp only [run, bind_eq_ok, orRaise_eq_ok] at ran
    obtain ⟨read, begun, ran⟩ := ran
    split at ran
    case h_1 cached known =>
      simp only [bind_eq_ok, raiseIf_eq_ok, pure_eq_ok] at ran
      obtain ⟨_, same, rfl⟩ := ran
      obtain rfl := not_not.mp same
      obtain ⟨known, version⟩ := Option.filter_eq_some_iff.mp known
      exact .answerCached begun known (by simpa using version)
    case h_2 =>
      simp only [bind_eq_ok, raiseIf_eq_ok, pure_eq_ok] at ran
      obtain ⟨_, same, rfl⟩ := ran
      obtain rfl := not_not.mp same
      exact .answerRow begun

/-- Where a manifest of a definition is held. -/
inductive Place where
  | table
  | cache (process : Nat)
  | read (id : Nat)
  | publish (id : Nat)
  deriving DecidableEq

/-- The manifest of a definition that is held at a place. -/
def System.held (system : System) (definitionId : String) : Place → Option ConnectorManifest
  | .table => system.definitions.find? definitionId
  | .cache process => system.caches.find? (process, definitionId)
  | .read id =>
    ((system.reading.find? id).filter fun read => read.definitionId = definitionId).map
      Reading.row
  | .publish id =>
    ((system.publishing.find? id).filter fun publish =>
      publish.manifest.id = definitionId).map Publishing.manifest

/-- A publish and the cache of its own process, before the one has written the other. -/
def System.Unwritten (system : System) (publisher cache : Place) : Prop :=
  ∃ id publish, system.publishing.find? id = some publish ∧ publish.cached = false ∧
    publisher = .publish id ∧ cache = .cache publish.process

/-- At most one publish of a definition is under way, and one version of it is one manifest
wherever it is held, except in a cache that is about to be written. -/
structure Coherent (system : System) : Prop where
  alone : ∀ first second left right, system.publishing.find? first = some left →
    system.publishing.find? second = some right → left.manifest.id = right.manifest.id →
    first = second
  agrees : ∀ definitionId left right leftManifest rightManifest,
    system.held definitionId left = some leftManifest →
    system.held definitionId right = some rightManifest →
    ¬ system.Unwritten left right → ¬ system.Unwritten right left →
    leftManifest.version = rightManifest.version → leftManifest = rightManifest

/-- A step keeps coherence if every manifest it leaves was held somewhere before, and no pair of
places is released from the exception by it. -/
theorem Coherent.copied (coherent : Coherent system) (source : String → Place → Place)
    (alone : ∀ first second left right, next.publishing.find? first = some left →
      next.publishing.find? second = some right → left.manifest.id = right.manifest.id →
      first = second)
    (held : ∀ definitionId place manifest, next.held definitionId place = some manifest →
      system.held definitionId (source definitionId place) = some manifest)
    (unwritten : ∀ definitionId left right, next.held definitionId left ≠ none →
      next.held definitionId right ≠ none →
      system.Unwritten (source definitionId left) (source definitionId right) →
      next.Unwritten left right) : Coherent next where
  alone := alone
  agrees definitionId left right leftManifest rightManifest isLeft isRight written written' := by
    have leftHeld : next.held definitionId left ≠ none := by simp [isLeft]
    have rightHeld : next.held definitionId right ≠ none := by simp [isRight]
    refine coherent.agrees definitionId _ _ _ _ (held _ _ _ isLeft) (held _ _ _ isRight) ?_ ?_
    · intro exempt
      exact written (unwritten _ _ _ leftHeld rightHeld exempt)
    · intro exempt
      exact written' (unwritten _ _ _ rightHeld leftHeld exempt)

theorem held_publish_eq_some :
    system.held definitionId (.publish id) = some manifest ↔
      ∃ publish, system.publishing.find? id = some publish ∧
        publish.manifest.id = definitionId ∧ publish.manifest = manifest := by
  simp [System.held, Option.filter_eq_some_iff, and_assoc]

theorem held_read_eq_some :
    system.held definitionId (.read id) = some manifest ↔
      ∃ read, system.reading.find? id = some read ∧ read.definitionId = definitionId ∧
        read.row = manifest := by
  simp [System.held, Option.filter_eq_some_iff, and_assoc]

/-- No row satisfies a condition that none does. -/
theorem of_any_eq_false {Key Row : Type} [DecidableEq Key] {table : Table Key Row}
    {condition : Key → Row → Bool} (none : table.any condition = false) {key : Key} {row : Row}
    (present : table.find? key = some row) : condition key row = false := by
  by_contra holds
  have found := (table.any_eq_true condition).mpr ⟨key, row, present, by simpa using holds⟩
  rw [none] at found
  cases found

/-- A publish that begins is coherent with everything but its own process's cache. -/
theorem Coherent.upsert (coherent : Coherent system) (free : system.locked manifest.id = false)
    (unused : system.publishing.find? id = none)
    (keeps : ∀ place other, system.held manifest.id place = some other → place ≠ .cache process →
      manifest.version = other.version → manifest = other) :
    Coherent { system with
      publishing := system.publishing.put id ⟨process, manifest, false⟩ } := by
  have others : ∀ other publish, system.publishing.find? other = some publish →
      publish.manifest.id ≠ manifest.id := by
    intro other publish begun same
    have unlocked := of_any_eq_false free begun
    simp [same] at unlocked
  have added := Table.Written.put system.publishing id ⟨process, manifest, false⟩
  have kept : ∀ definitionId place, place ≠ .publish id →
      System.held { system with
        publishing := system.publishing.put id ⟨process, manifest, false⟩ } definitionId place =
      system.held definitionId place := by
    intro definitionId place elsewhere
    cases place with
    | publish other =>
      have distinct : other ≠ id := by
        intro same
        exact elsewhere (by rw [same])
      simp only [System.held, added.other distinct]
    | table | cache | read => rfl
  have new : ∀ definitionId other, System.held { system with
      publishing := system.publishing.put id ⟨process, manifest, false⟩ } definitionId
        (.publish id) = some other → definitionId = manifest.id ∧ other = manifest := by
    intro definitionId other held
    obtain ⟨publish, begun, named, rfl⟩ := held_publish_eq_some.mp held
    obtain rfl := Option.some.inj (added.self.symm.trans begun)
    exact ⟨named.symm, rfl⟩
  constructor
  · intro first second left right isLeft isRight same
    rcases added.found isLeft with ⟨rfl, rfl⟩ | ⟨_, leftBegun⟩ <;>
      rcases added.found isRight with ⟨isNew, isPublish⟩ | ⟨_, rightBegun⟩
    · exact isNew.symm
    · exact absurd same.symm (others _ _ rightBegun)
    · rw [isPublish] at same
      exact absurd same (others _ _ leftBegun)
    · exact coherent.alone first second left right leftBegun rightBegun same
  · intro definitionId left right leftManifest rightManifest isLeft isRight written written' same
    by_cases leftNew : left = .publish id <;> by_cases rightNew : right = .publish id
    · rw [leftNew] at isLeft
      rw [rightNew] at isRight
      rw [(new _ _ isLeft).2, (new _ _ isRight).2]
    · rw [leftNew] at isLeft
      obtain ⟨rfl, rfl⟩ := new _ _ isLeft
      rw [kept _ _ rightNew] at isRight
      refine keeps right _ isRight ?_ same
      intro own
      exact written ⟨id, _, added.self, rfl, leftNew, own⟩
    · rw [rightNew] at isRight
      obtain ⟨rfl, rfl⟩ := new _ _ isRight
      rw [kept _ _ leftNew] at isLeft
      refine (keeps left _ isLeft ?_ same.symm).symm
      intro own
      exact written' ⟨id, _, added.self, rfl, rightNew, own⟩
    · rw [kept _ _ leftNew] at isLeft
      rw [kept _ _ rightNew] at isRight
      have exempt : ∀ publisher cache, system.Unwritten publisher cache →
          System.Unwritten { system with
            publishing := system.publishing.put id ⟨process, manifest, false⟩ }
            publisher cache := by
        rintro publisher cache ⟨other, publish, begun, open', isPublish, isCache⟩
        refine ⟨other, publish, ?_, open', isPublish, isCache⟩
        rw [added.other (by rintro rfl; rw [unused] at begun; cases begun)]
        exact begun
      exact coherent.agrees definitionId left right _ _ isLeft isRight
        (fun unwritten => written (exempt _ _ unwritten))
        (fun unwritten => written' (exempt _ _ unwritten)) same

/-- A publish that ends without a trace is no longer under way. -/
theorem Coherent.rollback (coherent : Coherent system) (id : Nat) :
    Coherent { system with publishing := system.publishing.erase id } := by
  refine coherent.copied (fun _ place => place) ?_ ?_ ?_
  · intro first second left right isLeft isRight same
    exact coherent.alone first second left right (Table.of_find?_erase isLeft).2
      (Table.of_find?_erase isRight).2 same
  · intro definitionId place manifest held
    cases place with
    | publish other =>
      obtain ⟨publish, begun, named⟩ := held_publish_eq_some.mp held
      exact held_publish_eq_some.mpr ⟨publish, (Table.of_find?_erase begun).2, named⟩
    | table | cache | read => exact held
  · rintro definitionId left right leftHeld rightHeld ⟨other, publish, begun, unwritten, rfl, rfl⟩
    obtain ⟨manifest, held⟩ := Option.ne_none_iff_exists'.mp leftHeld
    obtain ⟨still, present, -⟩ := held_publish_eq_some.mp held
    have distinct := (Table.of_find?_erase present).1
    refine ⟨other, publish, ?_, unwritten, rfl, rfl⟩
    rw [Table.find?_erase, if_neg distinct]
    exact begun

/-- A publish writes its process's cache. -/
theorem Coherent.remember (coherent : Coherent system)
    (begun : system.publishing.find? id = some publish) :
    Coherent { system with
      caches := system.caches.put (publish.process, publish.manifest.id) publish.manifest
      publishing := system.publishing.put id { publish with cached := true } } := by
  have cached := Table.Written.put system.caches (publish.process, publish.manifest.id)
    publish.manifest
  have moved := Table.Written.put system.publishing id { publish with cached := true }
  have before : ∀ other after, (system.publishing.put id { publish with cached := true }).find?
      other = some after → ∃ earlier, system.publishing.find? other = some earlier ∧
        after.manifest = earlier.manifest := by
    intro other after present
    rcases moved.found present with ⟨rfl, rfl⟩ | ⟨_, same⟩
    · exact ⟨publish, begun, rfl⟩
    · exact ⟨after, same, rfl⟩
  refine coherent.copied (fun definitionId place =>
    if place = .cache publish.process ∧ definitionId = publish.manifest.id then .publish id
    else place) ?_ ?_ ?_
  · intro first second left right isLeft isRight same
    obtain ⟨earlierLeft, isLeft, leftSame⟩ := before first left isLeft
    obtain ⟨earlierRight, isRight, rightSame⟩ := before second right isRight
    rw [leftSame, rightSame] at same
    exact coherent.alone first second _ _ isLeft isRight same
  · intro definitionId place manifest held
    split
    case isTrue own =>
      obtain ⟨rfl, rfl⟩ := own
      have same : publish.manifest = manifest := Option.some.inj (cached.self.symm.trans held)
      exact held_publish_eq_some.mpr ⟨publish, begun, rfl, same⟩
    case isFalse other =>
      cases place with
      | cache process =>
        have elsewhere : (process, definitionId) ≠ (publish.process, publish.manifest.id) := by
          rintro ⟨⟩
          exact other ⟨rfl, rfl⟩
        exact (cached.other elsewhere).symm.trans held
      | publish number =>
        obtain ⟨after, present, named, rfl⟩ := held_publish_eq_some.mp held
        obtain ⟨earlier, present, same⟩ := before _ _ present
        exact held_publish_eq_some.mpr ⟨earlier, present, by rw [← same, named], same.symm⟩
      | table | read => exact held
  · rintro definitionId left right leftHeld - ⟨other, earlier, present, unwritten, isLeft, isRight⟩
    split at isRight
    case isTrue => cases isRight
    case isFalse elsewhere =>
      subst isRight
      split at isLeft
      case isTrue own =>
        obtain rfl := Place.publish.inj isLeft
        obtain rfl := Option.some.inj (begun.symm.trans present)
        exact absurd ⟨rfl, own.2⟩ elsewhere
      case isFalse =>
        subst isLeft
        have distinct : other ≠ id := by
          rintro rfl
          obtain rfl := Option.some.inj (begun.symm.trans present)
          obtain ⟨manifest, held⟩ := Option.ne_none_iff_exists'.mp leftHeld
          obtain ⟨after, found, named, -⟩ := held_publish_eq_some.mp held
          obtain rfl := Option.some.inj (moved.self.symm.trans found)
          exact elsewhere ⟨rfl, named.symm⟩
        exact ⟨other, earlier, (moved.other distinct).trans present, unwritten, rfl, rfl⟩

/-- A publish that commits stores what its process has cached. -/
theorem Coherent.commit (coherent : Coherent system)
    (begun : system.publishing.find? id = some publish) (cached : publish.cached = true) :
    Coherent { system with
      definitions := system.definitions.put publish.manifest.id publish.manifest
      publishing := system.publishing.erase id } := by
  have stored := Table.Written.put system.definitions publish.manifest.id publish.manifest
  refine coherent.copied (fun definitionId place =>
    if place = .table ∧ definitionId = publish.manifest.id then .publish id else place) ?_ ?_ ?_
  · intro first second left right isLeft isRight same
    exact coherent.alone first second left right (Table.of_find?_erase isLeft).2
      (Table.of_find?_erase isRight).2 same
  · intro definitionId place manifest held
    split
    case isTrue own =>
      obtain ⟨rfl, rfl⟩ := own
      have same : publish.manifest = manifest := Option.some.inj (stored.self.symm.trans held)
      exact held_publish_eq_some.mpr ⟨publish, begun, rfl, same⟩
    case isFalse other =>
      cases place with
      | table =>
        have elsewhere : definitionId ≠ publish.manifest.id := by
          intro same
          exact other ⟨rfl, same⟩
        exact (stored.other elsewhere).symm.trans held
      | publish number =>
        obtain ⟨after, present, named⟩ := held_publish_eq_some.mp held
        exact held_publish_eq_some.mpr ⟨after, (Table.of_find?_erase present).2, named⟩
      | cache | read => exact held
  · rintro definitionId left right leftHeld - ⟨other, earlier, present, unwritten, isLeft, isRight⟩
    have distinct : other ≠ id := by
      rintro rfl
      obtain rfl := Option.some.inj (begun.symm.trans present)
      rw [cached] at unwritten
      cases unwritten
    split at isRight
    case isTrue => cases isRight
    case isFalse =>
      split at isLeft
      case isTrue => exact absurd (Place.publish.inj isLeft).symm distinct
      case isFalse =>
        refine ⟨other, earlier, ?_, unwritten, isLeft, isRight⟩
        rw [Table.find?_erase, if_neg distinct]
        exact present

/-- A read takes what is stored. -/
theorem Coherent.select (coherent : Coherent system) {row : ConnectorManifest}
    (stored : system.definitions.find? definitionId = some row) :
    Coherent { system with
      reading := system.reading.put id ⟨process, definitionId, row⟩ } := by
  have added := Table.Written.put system.reading id ⟨process, definitionId, row⟩
  refine coherent.copied (fun _ place => if place = .read id then .table else place)
    coherent.alone ?_ ?_
  · intro other place manifest held
    split
    case isTrue new =>
      subst new
      obtain ⟨read, present, named, rfl⟩ := held_read_eq_some.mp held
      obtain rfl := Option.some.inj (added.self.symm.trans present)
      obtain rfl : definitionId = other := named
      exact stored
    case isFalse old =>
      cases place with
      | read number =>
        obtain ⟨read, present, named⟩ := held_read_eq_some.mp held
        have distinct : number ≠ id := by
          rintro rfl
          exact old rfl
        exact held_read_eq_some.mpr ⟨read, (added.other distinct).symm.trans present, named⟩
      | table | cache | publish => exact held
  · rintro other left right - - ⟨number, publish, present, unwritten, isLeft, isRight⟩
    split at isLeft
    case isTrue => cases isLeft
    case isFalse =>
      split at isRight
      case isTrue => cases isRight
      case isFalse => exact ⟨number, publish, present, unwritten, isLeft, isRight⟩

/-- A read that has returned is no longer under way. -/
theorem Coherent.answered (coherent : Coherent system) (id : Nat) :
    Coherent { system with reading := system.reading.erase id } := by
  refine coherent.copied (fun _ place => place) coherent.alone ?_ (fun _ _ _ _ _ unwritten =>
    unwritten)
  intro definitionId place manifest held
  cases place with
  | read other =>
    obtain ⟨read, present, named⟩ := held_read_eq_some.mp held
    exact held_read_eq_some.mpr ⟨read, (Table.of_find?_erase present).2, named⟩
  | table | cache | publish => exact held

/-- A read writes the row it was handed into its process's cache. -/
theorem Coherent.answerRow (coherent : Coherent system)
    (begun : system.reading.find? id = some read) :
    Coherent { system with
      caches := system.caches.put (read.process, read.definitionId) read.row
      reading := system.reading.erase id } := by
  suffices written : Coherent { system with
      caches := system.caches.put (read.process, read.definitionId) read.row } from
    written.answered id
  have cached := Table.Written.put system.caches (read.process, read.definitionId) read.row
  refine coherent.copied (fun definitionId place =>
    if place = .cache read.process ∧ definitionId = read.definitionId then .read id else place)
    coherent.alone ?_ ?_
  · intro definitionId place manifest held
    split
    case isTrue own =>
      obtain ⟨rfl, rfl⟩ := own
      exact held_read_eq_some.mpr
        ⟨read, begun, rfl, Option.some.inj (cached.self.symm.trans held)⟩
    case isFalse other =>
      cases place with
      | cache process =>
        have elsewhere : (process, definitionId) ≠ (read.process, read.definitionId) := by
          rintro ⟨⟩
          exact other ⟨rfl, rfl⟩
        exact (cached.other elsewhere).symm.trans held
      | table | read | publish => exact held
  · rintro definitionId left right - - ⟨number, publish, present, unwritten, isLeft, isRight⟩
    split at isLeft
    case isTrue => cases isLeft
    case isFalse =>
      split at isRight
      case isTrue => cases isRight
      case isFalse => exact ⟨number, publish, present, unwritten, isLeft, isRight⟩

/-- One step keeps coherence, if it publishes no second manifest of one version. -/
theorem Coherent.step (coherent : Coherent system) (stepped : Stepped system label next)
    (keeps : keepsVersions system label = true) : Coherent next := by
  cases stepped with
  | @upsert id process manifest free unused =>
    simp only [keepsVersions, Bool.and_eq_true, Bool.not_eq_true'] at keeps
    obtain ⟨⟨stored, caches⟩, reading⟩ := keeps
    have equal : ∀ other, agree manifest other = true →
        manifest.version = other.version → manifest = other := by
      intro other agreed same
      simpa [agree, same] using agreed
    refine coherent.upsert free unused ?_
    intro place other held elsewhere
    apply equal
    by_contra differs
    cases place with
    | table => exact differs (Option.all_eq_true _ _ |>.mp stored other held)
    | cache process' =>
      have distinct : process' ≠ process := by
        rintro rfl
        exact elsewhere rfl
      have none := of_any_eq_false caches held
      simp [distinct, differs] at none
    | read number =>
      obtain ⟨read, present, named, rfl⟩ := held_read_eq_some.mp held
      have none := of_any_eq_false reading present
      simp [named, differs] at none
    | publish number =>
      obtain ⟨publish, present, named, -⟩ := held_publish_eq_some.mp held
      have unlocked := of_any_eq_false free present
      simp [named] at unlocked
  | remember begun => exact coherent.remember begun
  | commit begun cached => exact coherent.commit begun cached
  | rollback => exact coherent.rollback _
  | select stored => exact coherent.select stored
  | answerCached => exact coherent.answered _
  | answerRow begun => exact coherent.answerRow begun

/-- Before anything happens there is one place that holds a manifest of a definition. -/
theorem coherent_opening (definitions : Table String ConnectorManifest) :
    Coherent (opening definitions) where
  alone first second left right isLeft := by
    simp [opening] at isLeft
  agrees definitionId left right leftManifest rightManifest isLeft isRight := by
    have tables : ∀ place manifest, (opening definitions).held definitionId place = some manifest →
        place = .table := by
      intro place manifest held
      cases place <;> simp [System.held, opening] at held ⊢
    obtain rfl := tables left _ isLeft
    obtain rfl := tables right _ isRight
    intro _ _ _
    exact Option.some.inj (isLeft.symm.trans isRight)

/-- A read that returns gives back the row it was handed. -/
theorem Coherent.returned_eq (coherent : Coherent system) {returned : ConnectorManifest}
    (stepped : Stepped system (.answer id returned) next) :
    ∃ read, system.reading.find? id = some read ∧ returned = read.row := by
  cases stepped with
  | @answerCached id read cached begun known same =>
    refine ⟨read, begun, ?_⟩
    refine coherent.agrees read.definitionId (.cache read.process) (.read id) _ _ known
      (held_read_eq_some.mpr ⟨read, begun, rfl, rfl⟩) ?_ ?_ same
    · rintro ⟨_, _, _, _, isPublish, _⟩
      cases isPublish
    · rintro ⟨_, _, _, _, isPublish, _⟩
      cases isPublish
  | answerRow begun => exact ⟨_, begun, rfl⟩

/-- The row of a read is what was stored, and last published, when its statement ran. -/
def Selected (definitions : Table String ConnectorManifest)
    (history : List (Transition System Step)) (id : Nat) (read : Reading) : Prop :=
  ∃ earlier selected between, history = earlier ++ selected :: between ∧
    selected.label = .select id read.process read.definitionId ∧
    (∀ transition ∈ between, ¬ Selects id transition) ∧
    selected.before.definitions.find? read.definitionId = some read.row ∧
    lastPublished definitions earlier read.definitionId = some read.row

theorem Selected.append (selected : Selected definitions history id read)
    {transition : Transition System Step} (other : ¬ Selects id transition) :
    Selected definitions (history ++ [transition]) id read := by
  obtain ⟨earlier, first, between, rfl, named, none, stored⟩ := selected
  refine ⟨earlier, first, between ++ [transition], by simp, named, ?_, stored⟩
  intro later member
  rcases List.mem_append.mp member with inside | last
  · exact none later inside
  · rw [List.mem_singleton.mp last]
    exact other

/-- What holds in every state of a run, together with its history. -/
structure Followed (definitions : Table String ConnectorManifest)
    (history : List (Transition System Step)) (system : System) : Prop where
  coherent : Coherent system
  stored : ∀ definitionId,
    system.definitions.find? definitionId = lastPublished definitions history definitionId
  selected : ∀ id read, system.reading.find? id = some read → Selected definitions history id read
  reads : ReadsCoherently definitions history

theorem lastPublished_append (history : List (Transition System Step))
    (transition : Transition System Step) (definitionId : String) :
    lastPublished definitions (history ++ [transition]) definitionId =
      (published transition definitionId).or (lastPublished definitions history definitionId) := by
  simp [lastPublished]

/-- What is stored changes by the publishes that commit. -/
theorem stored_step (stepped : Stepped system label next) (definitionId : String) :
    next.definitions.find? definitionId =
      (published ⟨system, label, next⟩ definitionId).or
        (system.definitions.find? definitionId) := by
  cases stepped with
  | @commit id publish begun cached =>
    rw [published]
    simp only [begun, Table.find?_put_eq]
    by_cases same : publish.manifest.id = definitionId
    · simp [Option.filter, same]
    · simp [Option.filter, same, Ne.symm same]
  | upsert | remember | rollback | select | answerCached | answerRow => rfl

/-- A read under way began with this step or was under way before it. -/
theorem reading_step (stepped : Stepped system label next)
    (present : next.reading.find? id = some read) :
    (label = .select id read.process read.definitionId ∧
      system.definitions.find? read.definitionId = some read.row) ∨
    (system.reading.find? id = some read ∧ ¬ Selects id ⟨system, label, next⟩) := by
  cases stepped with
  | @select number process definitionId row stored unused =>
    rcases (Table.Written.put system.reading number ⟨process, definitionId, row⟩).found present
      with ⟨rfl, rfl⟩ | ⟨distinct, before⟩
    · exact .inl ⟨rfl, stored⟩
    · refine .inr ⟨before, ?_⟩
      rintro ⟨_, _, same⟩
      injection same with same
      exact distinct same.symm
  | upsert | remember | commit | rollback =>
    refine .inr ⟨present, ?_⟩
    rintro ⟨_, _, ⟨⟩⟩
  | answerCached | answerRow =>
    refine .inr ⟨(Table.of_find?_erase present).2, ?_⟩
    rintro ⟨_, _, ⟨⟩⟩

theorem Followed.step (followed : Followed definitions history system)
    (stepped : Stepped system label next) (keeps : keepsVersions system label = true) :
    Followed definitions (history ++ [⟨system, label, next⟩]) next where
  coherent := followed.coherent.step stepped keeps
  stored definitionId := by
    rw [stored_step stepped, lastPublished_append, followed.stored]
  selected id read present := by
    rcases reading_step stepped present with ⟨rfl, stored⟩ | ⟨before, other⟩
    · refine ⟨history, _, [], rfl, rfl, by simp, stored, ?_⟩
      rw [← followed.stored, stored]
    · exact (followed.selected id read before).append other
  reads := by
    intro prior answered later id returned splits isAnswer
    rcases List.eq_nil_or_concat later with rfl | ⟨between, last, rfl⟩
    · obtain ⟨same, isLast⟩ := List.append_inj' splits rfl
      cases isLast
      subst same
      simp only at isAnswer
      subst isAnswer
      obtain ⟨read, begun, rfl⟩ := followed.coherent.returned_eq stepped
      obtain ⟨earlier, first, between, splits, named, none, stored⟩ := followed.selected id read begun
      exact ⟨earlier, first, between, _, _, splits, named, none, stored⟩
    · have regrouped : history ++ [⟨system, label, next⟩] =
          (prior ++ answered :: between) ++ [last] := by simpa using splits
      obtain ⟨same, -⟩ := List.append_inj' regrouped rfl
      exact followed.reads prior answered between id returned same isAnswer

/-- **Reads are coherent in every run in which a version number stands for one manifest.** -/
theorem definitions_read_coherently (definitions : Table String ConnectorManifest)
    (history : List (Transition System Step)) (system : System)
    (runs : (machine definitions).Runs history system)
    (keeps : ∀ transition ∈ history,
      keepsVersions transition.before transition.label = true) :
    ReadsCoherently definitions history := by
  refine (Machine.Runs.invariantWithHistoryWhile (Followed definitions)
    (fun transition => keepsVersions transition.before transition.label = true) ?_ ?_ runs
    keeps).reads
  · rintro state rfl
    exact
      { coherent := coherent_opening definitions
        stored := fun _ => rfl
        selected := by simp [opening]
        reads := by simp [ReadsCoherently] }
  · intro history state label next _ followed transition kept
    exact followed.step (stepped_of_run transition) kept

/-- The WordPress connector is published when the processes start. -/
def wordpressPublished : Table String ConnectorManifest :=
  .ofList [("wordpress", wordpress)]

/-- Process 2 reads before and after process 1 has published another manifest. -/
def readAround (manifest returned : ConnectorManifest) : List Step :=
  [.select 1 2 "wordpress", .answer 1 wordpress, .upsert 1 1 "wordpress" manifest, .remember 1,
    .commit 1, .select 2 2 "wordpress", .answer 2 returned]

/-- `definitions_read_coherently` applies where the other manifest has another version. -/
theorem definitions_read_coherently_versioned :
    ∃ history system, (machine wordpressPublished).Runs history system ∧
      history.length = 7 ∧ ReadsCoherently wordpressPublished history := by
  obtain ⟨history, system, runs, checked⟩ := Machine.exists_run_of_trace
    (fun system => system = opening wordpressPublished) run
    (readAround { wordpress with version := ⟨1, 2, 0⟩ } { wordpress with version := ⟨1, 2, 0⟩ })
    (opening wordpressPublished)
    (fun history _ => history.length = 7 && history.all fun transition =>
      keepsVersions transition.before transition.label) rfl (by decide +kernel)
  rw [Bool.and_eq_true, decide_eq_true_eq, List.all_eq_true] at checked
  exact ⟨history, system, runs, checked.1,
    definitions_read_coherently wordpressPublished history system runs checked.2⟩

/-- A step is not the statement of a read that is handed a manifest. -/
def handsOther (id : Nat) (manifest : ConnectorManifest) (transition : Transition System Step) :
    Bool :=
  match transition.label with
  | .select number _ definitionId =>
    number ≠ id || transition.before.definitions.find? definitionId ≠ some manifest
  | _ => true

/-- The version is published again with another name, and the other process keeps the old one. -/
theorem republished_version_stale :
    ¬ ∀ (definitions : Table String ConnectorManifest) (history : List (Transition System Step))
        (system : System), (machine definitions).Runs history system →
        ReadsCoherently definitions history := by
  intro always
  obtain ⟨history, system, runs, checked⟩ := Machine.exists_run_of_trace
    (fun system => system = opening wordpressPublished) run
    (readAround { wordpress with name := "WordPress 2" } wordpress) (opening wordpressPublished)
    (fun history _ => Machine.splitsAt history 6 fun prior answered _ =>
      answered.label = .answer 2 wordpress && prior.all (handsOther 2 wordpress)) rfl
    (by decide +kernel)
  obtain ⟨prior, answered, later, splits, both⟩ := Machine.exists_split checked
  rw [Bool.and_eq_true, decide_eq_true_eq, List.all_eq_true] at both
  obtain ⟨earlier, selected, between, process, definitionId, isPrior, isSelect, _, stored, _⟩ :=
    always wordpressPublished history system runs prior answered later 2 wordpress splits both.1
  have other := both.2 selected (by simp [isPrior])
  simp [handsOther, isSelect, stored] at other

end Nexora.Connector.Caching
