import Nexora.Publishing.Transactions

/-!
# What a commit may change

A transaction that publishes holds the row of its agent from before it reads the highest
version until it commits, so that version is still the highest then: a commit adds a version
above every other of its agent, or changes where one stands.
-/

namespace Nexora.Publishing

open Nexora.Std Nexora.Workspace Nexora.Catalog

/-- A version after it was moved between statuses and channels. -/
def SameRelease (before after : VersionRecord) : Prop :=
  after = { before with status := after.status, channel := after.channel }

theorem SameRelease.refl (record : VersionRecord) : SameRelease record record := rfl

theorem SameRelease.trans {first second third : VersionRecord}
    (one : SameRelease first second) (two : SameRelease second third) : SameRelease first third := by
  rw [SameRelease, two, one]

variable {before after : VersionRecord}

theorem SameRelease.number (same : SameRelease before after) :
    after.number = before.number := by
  rw [same]
  rfl

theorem SameRelease.agent (same : SameRelease before after) :
    after.catalogAgentId = before.catalogAgentId := by
  rw [same]

theorem SameRelease.version (same : SameRelease before after) :
    after.version = before.version := by
  rw [same]

/-- A number that fits the columns. -/
def Fits (version : Version) : Prop :=
  version.major ≤ maxInteger ∧ version.minor ≤ maxInteger ∧ version.patch ≤ maxInteger

/-- Stored rows: the text and the columns tell one number, and an agent has one row of each. -/
structure Sound (rows : Table Uuid VersionRecord) : Prop where
  text : ∀ id record, rows.find? id = some record → record.version = record.number.text
  fits : ∀ id record, rows.find? id = some record → Fits record.number
  unique : ∀ id other record otherRecord, rows.find? id = some record →
    rows.find? other = some otherRecord → record.catalogAgentId = otherRecord.catalogAgentId →
      record.number = otherRecord.number → id = other

theorem readable_of_fits {version : Version} (fits : Fits version) : version.Readable := by
  have short : ∀ number, number ≤ maxInteger →
      (Nat.toDigits 10 number).length ≤ maxIntDigits := by
    intro number bound
    refine le_trans ((Nat.length_toDigits_le_iff (by decide) (by decide)).mpr ?_)
      (by decide : 10 ≤ maxIntDigits)
    have small : maxInteger < 10 ^ 10 := by decide
    omega
  intro part member
  simp only [Version.digits, List.mem_cons, List.not_mem_nil, or_false] at member
  rcases member with rfl | rfl | rfl
  · exact short _ fits.1
  · exact short _ fits.2.1
  · exact short _ fits.2.2

variable {rows : Table Uuid VersionRecord} {record : VersionRecord} {versionId : Uuid}
  {slug : String} {statement : Statement}

/-- A stored text is read as the number in the columns. -/
theorem Sound.ofText (sound : Sound rows) {id : Uuid} (present : rows.find? id = some record) :
    Version.ofText record.version = .ok record.number :=
  Version.ofText_eq_ok.mpr ⟨sound.text id record present, readable_of_fits (sound.fits id record present)⟩

/-- A row above every other of its agent. -/
structure Tops (rows : Table Uuid VersionRecord) (id : Uuid) (record : VersionRecord) : Prop where
  absent : rows.find? id = none
  text : record.version = record.number.text
  fits : Fits record.number
  above : ∀ other otherRecord, rows.find? other = some otherRecord →
    otherRecord.catalogAgentId = record.catalogAgentId → otherRecord.number.parts < record.number.parts

/-- What a commit may write. -/
inductive Writes (rows : Table Uuid VersionRecord) (id : Uuid) (record : VersionRecord) : Prop
  | publishes (tops : Tops rows id record)
  | moves (before : VersionRecord) (present : rows.find? id = some before)
      (same : SameRelease before record)

theorem Writes.sound (sound : Sound rows) {id : Uuid} (writes : Writes rows id record) :
    Sound (rows.put id record) := by
  have written := Table.Written.put rows id record
  cases writes with
  | publishes tops =>
    have other : ∀ one row, rows.find? one = some row → row.catalogAgentId = record.catalogAgentId →
        row.number ≠ record.number := by
      intro one row present agent same
      have above := tops.above one row present agent
      rw [same] at above
      exact lt_irrefl _ above
    constructor
    case text =>
      intro one row present
      obtain ⟨rfl, rfl⟩ | ⟨_, earlier⟩ := written.found present
      · exact tops.text
      · exact sound.text one row earlier
    case fits =>
      intro one row present
      obtain ⟨rfl, rfl⟩ | ⟨_, earlier⟩ := written.found present
      · exact tops.fits
      · exact sound.fits one row earlier
    case unique =>
      intro one two first second isFirst isSecond agent number
      obtain ⟨rfl, rfl⟩ | ⟨_, before⟩ := written.found isFirst
      · obtain ⟨rfl, rfl⟩ | ⟨_, also⟩ := written.found isSecond
        · rfl
        · exact absurd number.symm (other two second also agent.symm)
      · obtain ⟨rfl, rfl⟩ | ⟨_, also⟩ := written.found isSecond
        · exact absurd number (other one first before agent)
        · exact sound.unique one two first second before also agent number
  | moves before present same =>
    have earlier : ∀ one row, (rows.put id record).find? one = some row →
        ∃ was, rows.find? one = some was ∧ SameRelease was row := by
      intro one row there
      obtain ⟨rfl, rfl⟩ | ⟨_, kept⟩ := written.found there
      · exact ⟨before, present, same⟩
      · exact ⟨row, kept, .refl row⟩
    constructor
    case text =>
      intro one row there
      obtain ⟨was, kept, alike⟩ := earlier one row there
      rw [alike.version, alike.number]
      exact sound.text one was kept
    case fits =>
      intro one row there
      obtain ⟨was, kept, alike⟩ := earlier one row there
      rw [alike.number]
      exact sound.fits one was kept
    case unique =>
      intro one two first second isFirst isSecond agent number
      obtain ⟨wasFirst, keptFirst, alikeFirst⟩ := earlier one first isFirst
      obtain ⟨wasSecond, keptSecond, alikeSecond⟩ := earlier two second isSecond
      rw [alikeFirst.agent, alikeSecond.agent] at agent
      rw [alikeFirst.number, alikeSecond.number] at number
      exact sound.unique one two wasFirst wasSecond keptFirst keptSecond agent number

/-- A published row stays what it was. -/
theorem Writes.kept {id : Uuid} (writes : Writes rows id record) {other : Uuid}
    {was : VersionRecord} (present : rows.find? other = some was) :
    ∃ now, (rows.put id record).find? other = some now ∧ SameRelease was now := by
  rw [Table.find?_put_eq]
  split
  case isTrue same =>
    subst same
    cases writes with
    | publishes tops =>
      rw [tops.absent] at present
      cases present
    | moves before there alike =>
      rw [there, Option.some.injEq] at present
      subst present
      exact ⟨record, rfl, alike⟩
  case isFalse => exact ⟨was, present, .refl was⟩

/-- Where a transaction stands, by what it has locked and read. -/
def Tx.Stands (rows : Table Uuid VersionRecord) (tx : Tx) : Prop :=
  match tx.phase with
  | .begun => True
  | .agentLocked agentId => .agent agentId ∈ tx.locks
  | .highestRead agentId previous => .agent agentId ∈ tx.locks ∧
      ∀ id record, rows.find? id = some record → record.catalogAgentId = agentId →
        ∃ text version, previous = some text ∧ Version.ofText text = .ok version ∧
          record.number.parts ≤ version.parts
  | .versionLocked versionId => .version versionId ∈ tx.locks
  | .written versionId record => .version versionId ∈ tx.locks ∧ Writes rows versionId record ∧
      (rows.find? versionId = none → .agent record.catalogAgentId ∈ tx.locks)

/-- A transaction stands where it did after a commit of another one. -/
theorem Tx.Stands.commit {tx other : Tx} (stands : tx.Stands rows) (otherStands : other.Stands rows)
    (isWritten : other.phase = .written versionId record)
    (apart : ∀ lock ∈ tx.locks, ∀ held ∈ other.locks, lock ≠ held) :
    tx.Stands (rows.put versionId record) := by
  rw [Tx.Stands, isWritten] at otherStands
  obtain ⟨otherVersion, writes, otherAgent⟩ := otherStands
  -- What the commit leaves of an agent whose row the transaction holds.
  have unmoved : ∀ agentId, .agent agentId ∈ tx.locks → ∀ id row,
      (rows.put versionId record).find? id = some row → row.catalogAgentId = agentId →
        ∃ was, rows.find? id = some was ∧ SameRelease was row := by
    intro agentId locked id row present agent
    obtain ⟨rfl, rfl⟩ | ⟨_, earlier⟩ := (Table.Written.put rows versionId record).found present
    · cases writes with
      | publishes tops =>
        exact absurd (by rw [agent]) (apart _ locked _ (otherAgent tops.absent))
      | moves before there same => exact ⟨before, there, same⟩
    · exact ⟨row, earlier, .refl row⟩
  unfold Tx.Stands at stands ⊢
  split
  case h_1 => trivial
  case h_2 agentId phase =>
    rw [phase] at stands
    exact stands
  case h_3 agentId previous phase =>
    rw [phase] at stands
    refine ⟨stands.1, ?_⟩
    intro id row present agent
    obtain ⟨was, earlier, same⟩ := unmoved agentId stands.1 id row present agent
    rw [same.number]
    exact stands.2 id was earlier (same.agent ▸ agent)
  case h_4 ownId phase =>
    rw [phase] at stands
    exact stands
  case h_5 ownId own phase =>
    rw [phase] at stands
    obtain ⟨ownVersion, ownWrites, ownAgent⟩ := stands
    have distinct : ownId ≠ versionId := by
      rintro rfl
      exact apart _ ownVersion _ otherVersion rfl
    have unread : (rows.put versionId record).find? ownId = rows.find? ownId :=
      Table.find?_put_ne _ _ distinct
    refine ⟨ownVersion, ?_, fun absent => ownAgent (unread ▸ absent)⟩
    cases ownWrites with
    | moves before there same => exact .moves before (unread.trans there) same
    | publishes tops =>
      refine .publishes ⟨unread.trans tops.absent, tops.text, tops.fits, ?_⟩
      intro id row present agent
      obtain ⟨was, earlier, same⟩ := unmoved _ (ownAgent tops.absent) id row present agent
      rw [same.number]
      exact tops.above id was earlier (same.agent ▸ agent)

/-- What holds between any two statements. -/
structure Steady (state : State) : Prop where
  exclusive : Exclusive Tx.locks Lock.conflicts state.running
  sound : Sound state.committed
  stands : ∀ id tx, state.running.find? id = some tx → tx.Stands state.committed

/-- What a statement does: a transaction goes on, commits or ends, or a client is shown a page. -/
inductive Effect (state : State) (statement : Statement) (next : State) : Prop
  | goesOn (id : Nat) (tx : Tx) (notCommit : ∀ other, statement ≠ .commit other)
      (notPage : ∀ client slug limit, statement ≠ .turnPage client slug limit)
      (same : next = state.progress id tx)
      (exclusive : Exclusive Tx.locks Lock.conflicts next.running)
      (stands : tx.Stands state.committed)
  | ends (id : Nat) (isAbort : statement = .abort id)
      (same : next = { state with running := state.running.erase id })
  | commits (id : Nat) (tx : Tx) (versionId : Uuid) (record : VersionRecord)
      (isCommit : statement = .commit id) (found : state.running.find? id = some tx)
      (isWritten : tx.phase = .written versionId record)
      (same : next = { state with
        committed := state.committed.put versionId record, running := state.running.erase id })
  | lists (client : Nat) (slug : String) (limit : Nat)
      (isPage : statement = .turnPage client slug limit)
      (turned : state.turnPage client slug limit = .ok next)

theorem conflicts_symm (lock held : Lock) : lock.conflicts held = held.conflicts lock := by
  simp [Lock.conflicts, eq_comm]

section Statements

variable {state next : State} {id : Nat}

theorem acquired (steady : Steady state) {tx changed : Tx} {lock : Lock}
    (found : state.running.find? id = some tx) (locks : changed.locks = lock :: tx.locks)
    (free : ¬ state.isBlocked id lock = true) :
    Exclusive Tx.locks Lock.conflicts (state.progress id changed).running :=
  steady.exclusive.put_acquired conflicts_symm found locks free

theorem beginWork_effect (steady : Steady state) {work : Work} {now : Instant}
    (ok : state.beginWork id work now = .ok next) : Effect state (.begin id work now) next := by
  simp only [State.beginWork, bind_eq_ok, pure_eq_ok] at ok
  obtain ⟨_, -, _, -, rfl⟩ := ok
  exact .goesOn id _ (by simp) (by simp) rfl
    (steady.exclusive.put_unlocked conflicts_symm rfl) trivial

theorem lockAgent_effect (steady : Steady state) (ok : state.lockAgent id = .ok next) :
    Effect state (.lockAgent id) next := by
  simp only [State.lockAgent, bind_eq_ok, State.running?, orRaise_eq_ok] at ok
  obtain ⟨tx, found, ok⟩ := ok
  split at ok
  case h_1 =>
    simp only [bind_eq_ok, raiseIf_eq_ok, pure_eq_ok] at ok
    obtain ⟨agentId, -, _, free, rfl⟩ := ok
    exact .goesOn id _ (by simp) (by simp) rfl (acquired steady found rfl free)
      List.mem_cons_self
  case h_2 => cases ok

theorem readHighest_effect (steady : Steady state) (ok : state.readHighest id = .ok next) :
    Effect state (.readHighest id) next := by
  simp only [State.readHighest, bind_eq_ok, State.running?, orRaise_eq_ok] at ok
  obtain ⟨tx, found, ok⟩ := ok
  split at ok
  case h_1 agentId phase =>
    rw [pure_eq_ok] at ok
    subst ok
    have locked := steady.stands id tx found
    rw [Tx.Stands, phase] at locked
    refine .goesOn id _ (by simp) (by simp) rfl
      (steady.exclusive.put_subset conflicts_symm found (List.Subset.refl _)) ⟨locked, ?_⟩
    intro versionId record present agent
    have listed : (versionId, record) ∈ state.versionsOf agentId :=
      (Table.mem_select _ _ _ _).mpr ⟨present, decide_eq_true agent⟩
    obtain ⟨top, first, member, above⟩ := @exists_highest _ _ _ State.rank _ _ listed
    have there := ((Table.mem_select _ _ _ _).mp member).1
    exact ⟨top.2.version, top.2.number, by rw [first]; rfl, steady.sound.ofText there, above⟩
  case h_2 => cases ok

theorem insertVersion_effect (steady : Steady state)
    (ok : state.insertVersion id versionId = .ok next) :
    Effect state (.insertVersion id versionId) next := by
  simp only [State.insertVersion, bind_eq_ok, State.running?, orRaise_eq_ok] at ok
  obtain ⟨tx, found, ok⟩ := ok
  split at ok
  case h_1 principal slug manifest agentId previous work phase =>
    simp only [bind_eq_ok, raiseIf_eq_ok, pure_eq_ok, refused_eq_ok, not_exists, not_and,
      not_le, not_or, Option.not_isSome_iff_eq_none, Option.mem_def] at ok
    obtain ⟨released, reads, before, readBefore, _, higher, _, fits, _, free, _, ⟨absent, -⟩, rfl⟩ := ok
    have stands := steady.stands id tx found
    rw [Tx.Stands, phase] at stands
    obtain ⟨locked, highest⟩ := stands
    have isNumber := (Version.ofText_eq_ok.mp reads).1
    refine .goesOn id _ (by simp) (by simp) rfl (acquired steady found rfl free)
      ⟨List.mem_cons_self, .publishes ⟨absent, ?_, ?_, ?_⟩, fun _ => List.mem_cons_of_mem _ locked⟩
    · exact isNumber
    · exact ⟨not_lt.mp fits.1, not_lt.mp fits.2.1, not_lt.mp fits.2.2⟩
    · intro other record present agent
      obtain ⟨text, version, rfl, isVersion, below⟩ := highest other record present agent
      have same : before = some version := by
        simpa [isVersion] using readBefore.symm
      exact lt_of_le_of_lt below (higher version same)
  case h_2 => cases ok

theorem versionNamed_ok {version : String} {target : Uuid × VersionRecord}
    (ok : state.versionNamed slug version = .ok target) :
    state.committed.find? target.1 = some target.2 := by
  simp only [State.versionNamed, bind_eq_ok, refused_eq_ok, found_eq_ok] at ok
  obtain ⟨agentId, -, first⟩ := ok
  exact (Table.of_first? first).1

theorem lockVersion_effect (steady : Steady state) (ok : state.lockVersion id = .ok next) :
    Effect state (.lockVersion id) next := by
  simp only [State.lockVersion, bind_eq_ok, State.running?, orRaise_eq_ok] at ok
  obtain ⟨tx, found, ok⟩ := ok
  split at ok
  case h_1 =>
    simp only [bind_eq_ok, raiseIf_eq_ok, pure_eq_ok] at ok
    obtain ⟨target, -, _, free, rfl⟩ := ok
    exact .goesOn id _ (by simp) (by simp) rfl (acquired steady found rfl free)
      List.mem_cons_self
  case h_2 => cases ok

theorem updateRelease_effect (steady : Steady state) (ok : state.updateRelease id = .ok next) :
    Effect state (.updateRelease id) next := by
  simp only [State.updateRelease, bind_eq_ok, State.running?, orRaise_eq_ok] at ok
  obtain ⟨tx, found, ok⟩ := ok
  split at ok
  case h_1 =>
    simp only [bind_eq_ok, raiseIf_eq_ok, pure_eq_ok] at ok
    obtain ⟨target, named, _, free, rfl⟩ := ok
    have present := versionNamed_ok named
    refine .goesOn id _ (by simp) (by simp) rfl (acquired steady found rfl free)
      ⟨List.mem_cons_self, .moves target.2 present rfl, fun absent => ?_⟩
    rw [present] at absent
    cases absent
  case h_2 => cases ok

theorem commit_effect (ok : state.commit id = .ok next) : Effect state (.commit id) next := by
  simp only [State.commit, bind_eq_ok, State.running?, orRaise_eq_ok] at ok
  obtain ⟨tx, found, ok⟩ := ok
  split at ok
  case h_1 versionId record phase =>
    rw [pure_eq_ok] at ok
    exact .commits id tx versionId record rfl found phase ok.symm
  case h_2 => cases ok

end Statements

theorem run_effect {state next : State} (steady : Steady state)
    (ok : state.run statement = .ok next) : Effect state statement next := by
  cases statement with
  | begin id work now => exact beginWork_effect steady ok
  | lockAgent id => exact lockAgent_effect steady ok
  | readHighest id => exact readHighest_effect steady ok
  | insertVersion id versionId => exact insertVersion_effect steady ok
  | lockVersion id => exact lockVersion_effect steady ok
  | updateRelease id => exact updateRelease_effect steady ok
  | commit id => exact commit_effect ok
  | abort id => exact .ends id rfl (Except.ok.inj ok).symm
  | turnPage client slug limit => exact .lists client slug limit rfl ok

/-- A page changes what its client has been shown, and nothing else. -/
theorem turnPage_others {state next : State} {client : Nat} {limit : Nat}
    (ok : state.turnPage client slug limit = .ok next) :
    next.committed = state.committed ∧ next.running = state.running ∧ next.agents = state.agents := by
  simp only [State.turnPage, bind_eq_ok, pure_eq_ok] at ok
  obtain ⟨_, -, _, -, _, -, rfl⟩ := ok
  exact ⟨rfl, rfl, rfl⟩

theorem Steady.step {state next : State} (steady : Steady state)
    (ok : state.run statement = .ok next) : Steady next := by
  cases run_effect steady ok with
  | goesOn id tx _ _ same exclusive stands =>
    subst same
    refine ⟨exclusive, steady.sound, fun other row present => ?_⟩
    rw [State.progress, Table.find?_put_eq] at present
    split at present
    · obtain rfl := Option.some.inj present
      exact stands
    · exact steady.stands other row present
  | ends id _ same =>
    subst same
    refine ⟨steady.exclusive.erase id, steady.sound, fun other row present => ?_⟩
    exact steady.stands other row (Table.of_find?_erase present).2
  | commits id tx versionId record _ found isWritten same =>
    subst same
    have stands := steady.stands id tx found
    have writes := stands
    rw [Tx.Stands, isWritten] at writes
    refine ⟨steady.exclusive.erase id, writes.2.1.sound steady.sound, fun other row present => ?_⟩
    obtain ⟨distinct, earlier⟩ := Table.of_find?_erase present
    refine (steady.stands other row earlier).commit stands isWritten ?_
    intro lock own held holds
    have free := steady.exclusive other id row tx distinct earlier found lock own held holds
    simpa [Lock.conflicts] using free
  | lists client slug limit _ turned =>
    obtain ⟨committed, running, _⟩ := turnPage_others turned
    constructor
    case exclusive => exact running ▸ steady.exclusive
    case sound => exact committed ▸ steady.sound
    case stands =>
      rw [running, committed]
      exact steady.stands

end Nexora.Publishing
