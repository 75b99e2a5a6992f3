import Nexora.Knowledge.Resurrection

/-!
# How often a document is indexed

A failed attempt puts its job back only while attempts are left. A claim that finds an expired
lease counts another attempt without asking how many there were, so the bound holds exactly as
long as no last attempt loses its lease.
-/

namespace Nexora.Knowledge

open Nexora.Std Nexora.Workspace

/-- The session a step claims a job for, and the job. -/
def Label.claims : Label → Option (Nat × Uuid)
  | .claim sessionId _ _ jobId _ => some (sessionId, jobId)
  | _ => none

/-- The session a step embeds the text of. -/
def Label.embeds : Label → Option Nat
  | .embed sessionId _ => some sessionId
  | _ => none

/-- When a step claims a job. -/
def Label.claimedAt : Label → Option Instant
  | .claim _ _ _ _ now => some now
  | _ => none

/-- The sessions a job was claimed for, one for each attempt. -/
def claimsOf (jobId : Uuid) (history : List (Transition System Label)) : List Nat :=
  history.filterMap fun step =>
    (step.label.claims.filter fun claimed => claimed.2 = jobId).map Prod.fst

/-- The sessions that had the text of a job embedded, one for each time it was paid for. -/
def embeddingsOf (jobId : Uuid) (history : List (Transition System Label)) : List Nat :=
  history.filterMap fun step => step.label.embeds.filter fun sessionId =>
    (step.before.sessions.find? sessionId).any fun session => session.jobId = jobId

/-- The provider has not been asked for anything yet. -/
def Stage.isUnpaid : Stage → Bool
  | .claimed | .authorized => true
  | _ => false

/-- A worker may still be processing a job. -/
def IngestionJob.leased (job : IngestionJob) (now : Instant) : Bool :=
  job.lease.any fun lease => now ≤ lease.expiresAt

/-- When a step claims a job, no last attempt has lost its lease. -/
def KeepsLastLease (step : Transition System Label) : Prop :=
  ∀ now ∈ step.label.claimedAt, ∀ id job, step.before.store.jobs.find? id = some job →
    job.status = .running → job.usedUp = true → job.leased now = true

/-- What a step does to the attempts of the jobs. -/
inductive Counted (before after : Store) (label : Label) : Prop where
  | kept (notClaim : label.claims = none)
      (rows : ∀ id, (after.jobs.find? id).isSome = (before.jobs.find? id).isSome)
      (counts : ∀ id job later, before.jobs.find? id = some job →
        after.jobs.find? id = some later → job.Counts later)
  | queued (notClaim : label.claims = none) (jobId : Uuid) (job : IngestionJob)
      (free : before.jobs.find? jobId = none) (jobs : after.jobs = before.jobs.put jobId job)
      (fresh : job.attemptCount = 0)
  | claimed (sessionId : Nat) (jobId : Uuid) (now : Instant) (job later : IngestionJob)
      (claims : label.claims = some (sessionId, jobId)) (at_ : label.claimedAt = some now)
      (due : before.jobs.find? jobId = some job) (isDue : Store.isDue job now = true)
      (written : Table.Written before.jobs after.jobs jobId later)
      (attempts : later.attemptCount = job.attemptCount + 1) (running : later.status = .running)

variable {sessionId : Nat}

section Steps

variable {deployment : Deployment} {system next : System} {store : Store} {label : Label}
  {after : Store} {now : Instant} {workerId : String} {jobId : Uuid}

/-- Rows rewritten in place, each counting on. -/
theorem Counted.ofMap (notClaim : label.claims = none)
    (rewrite : Uuid → IngestionJob → IngestionJob)
    (same : ∀ id, after.jobs.find? id = (store.jobs.find? id).map (rewrite id))
    (counts : ∀ id job, store.jobs.find? id = some job → job.Counts (rewrite id job)) :
    Counted store after label := by
  apply Counted.kept notClaim
  · intro id
    rw [same, Option.isSome_map]
  · intro id job later found isLater
    rw [same, found, Option.map_some, Option.some.injEq] at isLater
    subst isLater
    exact counts id job found

theorem Counted.ofSame (notClaim : label.claims = none) (same : after.jobs = store.jobs) :
    Counted store after label :=
  .ofMap notClaim (fun _ job => job) (by simp [same]) fun _ job _ => .refl job

theorem Counted.modify (notClaim : label.claims = none) (jobId : Uuid)
    (change : IngestionJob → IngestionJob) (same : after.jobs = store.jobs.modify jobId change)
    (counts : ∀ job, store.jobs.find? jobId = some job → job.Counts (change job)) :
    Counted store after label := by
  apply Counted.ofMap notClaim fun id job => if id = jobId then change job else job
  · intro id
    rw [same, Table.find?_modify]
    by_cases isJob : id = jobId <;> simp [isJob]
  · intro id job found
    by_cases isJob : id = jobId
    · subst isJob
      simpa using counts job found
    · simpa [isJob] using IngestionJob.Counts.refl job

theorem succeed_counted {sourceId : Uuid} {chunkCount inputTokens : Nat}
    (notClaim : label.claims = none)
    (ok : store.succeed workerId jobId sourceId chunkCount inputTokens now = .ok after) :
    Counted store after label := by
  unfold Store.succeed at ok
  split at ok
  · cases ok
    exact .ofSame notClaim rfl
  · rw [Store.updateJob_eq_ok] at ok
    obtain ⟨_, rfl⟩ := ok
    exact .modify notClaim jobId _ rfl fun row _ => .ofNotQueued rfl (by simp)

theorem heartbeat_counted (notClaim : label.claims = none) (workerId : String)
    (leaseSeconds : Nat) (jobId : Uuid) (now : Instant) :
    Counted store (store.heartbeat workerId leaseSeconds jobId now) label := by
  apply Counted.ofMap notClaim _ fun id => Table.find?_updateWhere ..
  intro id job _
  split
  · exact ⟨rfl, .inl⟩
  · exact .refl job

/-- Every step counts the attempts it starts, and puts a job back only while some are left. -/
theorem run_counted (ok : system.run deployment label = .ok next) :
    Counted system.store next.store label := by
  cases label with
  | setMember principal workspaceId subject role =>
    simp only [System.run, bind_eq_ok, pure_eq_ok] at ok
    obtain ⟨_, _, rfl⟩ := ok
    exact .ofSame rfl rfl
  | enqueue principal workspaceId body idempotencyKey jobId now =>
    simp only [System.run, bind_eq_ok, pure_eq_ok] at ok
    obtain ⟨queued, queues, rfl⟩ := ok
    simp only [Store.enqueueIngestion, bind_eq_ok] at queues
    obtain ⟨_, _, _, _, queues⟩ := queues
    split at queues
    · simp only [bind_eq_ok, pure_eq_ok] at queues
      obtain ⟨_, _, rfl⟩ := queues
      exact .ofSame rfl rfl
    · simp only [bind_eq_ok, pure_eq_ok, ofRequest_eq_ok, inserted_eq_ok,
        Table.insert?_eq_some] at queues
      obtain ⟨_, _, _, ⟨free, rfl⟩, rfl⟩ := queues
      exact .queued rfl jobId _ free rfl rfl
  | deleteSource principal workspaceId sourceKey clock =>
    simp only [System.run, bind_eq_ok, pure_eq_ok] at ok
    obtain ⟨deleted, deletes, rfl⟩ := ok
    apply Counted.ofMap rfl _ (deleteSource_ok deletes).jobs
    intro id job _
    split
    · exact .ofNotQueued rfl (by simp)
    · exact .refl job
  | claim sessionId workerId leaseSeconds jobId now =>
    simp only [System.run, bind_eq_ok, pure_eq_ok] at ok
    obtain ⟨_, _, claimed, claims, rfl⟩ := ok
    obtain ⟨jobs, job, later, same, found, due, written, _, attempts, running⟩ := claim_ok claims
    rw [same]
    exact .claimed sessionId jobId now job later rfl rfl found due written attempts running
  | heartbeat sessionId now =>
    simp only [System.run, bind_eq_ok, pure_eq_ok] at ok
    obtain ⟨session, _, _, _, rfl⟩ := ok
    exact heartbeat_counted rfl ..
  | authorize | embed =>
    simp only [System.run, bind_eq_ok, pure_eq_ok] at ok
    obtain ⟨session, _, _, _, rfl⟩ := ok
    exact .ofSame rfl rfl
  | index sessionId drawn =>
    simp only [System.run, bind_eq_ok, orRaise_eq_ok] at ok
    obtain ⟨session, found, embedded, isEmbedded, ok⟩ := ok
    split at ok
    · rename_i indexed commits
      rw [pure_eq_ok] at ok
      subst ok
      obtain ⟨chunkCount, jobs⟩ := (indexSource_ok rfl rfl commits).jobs
      exact .modify rfl _ _ jobs fun job _ => .ofNotQueued rfl (by simp)
    · rw [pure_eq_ok] at ok
      subst ok
      exact .ofSame rfl rfl
  | settle sessionId delay now =>
    simp only [System.run, bind_eq_ok, orRaise_eq_ok, pure_eq_ok] at ok
    obtain ⟨session, found, store, settles, rfl⟩ := ok
    unfold Session.settle at settles
    split at settles
    · exact succeed_counted rfl settles
    · rcases fail_ok settles with rfl | ⟨job, change, present, rfl, _, counts⟩
      · exact .ofSame rfl rfl
      · refine .modify rfl session.jobId change rfl fun row found => ?_
        cases present.symm.trans found
        exact counts
    · cases settles

/-- What a step does to the workers' sessions. -/
inductive SessionsMoved (system next : System) (label : Label) : Prop where
  | kept (notClaim : label.claims = none) (notEmbed : label.embeds = none)
      (same : next.sessions = system.sessions)
  | opened (sessionId : Nat) (session : Session)
      (claims : label.claims = some (sessionId, session.jobId)) (notEmbed : label.embeds = none)
      (fresh : system.sessions.find? sessionId = none)
      (sessions : next.sessions = system.sessions.put sessionId session)
  | moved (sessionId : Nat) (session : Session) (stage : Stage) (notClaim : label.claims = none)
      (found : system.sessions.find? sessionId = some session)
      (sessions : next.sessions = system.sessions.put sessionId (session.at_ stage))
      (notEmbed : label.embeds = none)
      (unpaid : stage.isUnpaid = true → session.stage.isUnpaid = true)
  | embedded (sessionId : Nat) (session : Session) (stage : Stage)
      (notClaim : label.claims = none) (embeds : label.embeds = some sessionId)
      (found : system.sessions.find? sessionId = some session)
      (sessions : next.sessions = system.sessions.put sessionId (session.at_ stage))
      (unpaid : session.stage.isUnpaid = true) (paid : stage.isUnpaid = false)

theorem Raised.recorded_paid (raised : Raised) : raised.recorded.isUnpaid = false := by
  unfold Raised.recorded
  split <;> rfl

/-- The stage after a computation is the one it leads to, or a failure. -/
theorem Session.after_eq {α : Type} (session : Session) (computation : Except Raised α)
    (continues : α → Stage) :
    ∃ stage, session.after computation continues = session.at_ stage ∧
      ((∃ value, stage = continues value) ∨ stage.isUnpaid = false) := by
  cases computation with
  | ok value => exact ⟨_, rfl, .inl ⟨value, rfl⟩⟩
  | error raised => exact ⟨_, rfl, .inr raised.recorded_paid⟩

/-- Every step opens a session for the job it claims, or moves one session on. -/
theorem run_sessions (ok : system.run deployment label = .ok next) :
    SessionsMoved system next label := by
  cases label with
  | setMember | enqueue | deleteSource =>
    simp only [System.run, bind_eq_ok, pure_eq_ok] at ok
    obtain ⟨_, _, rfl⟩ := ok
    exact .kept rfl rfl rfl
  | heartbeat sessionId now =>
    simp only [System.run, bind_eq_ok, pure_eq_ok] at ok
    obtain ⟨session, _, _, _, rfl⟩ := ok
    exact .kept rfl rfl rfl
  | claim sessionId workerId leaseSeconds jobId now =>
    simp only [System.run, bind_eq_ok, raiseIf_eq_ok, pure_eq_ok, Bool.not_eq_true,
      Option.isSome_eq_false_iff, Option.isNone_iff_eq_none] at ok
    obtain ⟨_, fresh, claimed, _, rfl⟩ := ok
    exact .opened sessionId _ rfl rfl fresh rfl
  | authorize sessionId budgetAllows =>
    simp only [System.run, bind_eq_ok, orRaise_eq_ok, raiseIf_eq_ok, pure_eq_ok] at ok
    obtain ⟨session, found, _, claimed, rfl⟩ := ok
    obtain ⟨stage, same, _⟩ := session.after_eq
      (session.authorize deployment.pipeline system.store budgetAllows) fun _ => .authorized
    refine .moved sessionId session stage rfl found ?_ rfl fun _ => ?_
    · simp only [System.resume, same]
    · simp [not_not.mp claimed, Stage.isUnpaid]
  | embed sessionId replies =>
    simp only [System.run, bind_eq_ok, orRaise_eq_ok, raiseIf_eq_ok, pure_eq_ok] at ok
    obtain ⟨session, found, _, authorized, rfl⟩ := ok
    obtain ⟨stage, same, reached⟩ := session.after_eq
      (session.embed deployment.pipeline deployment.runtime.sha256 replies) fun embedded =>
        .embedded embedded.1 embedded.2
    refine .embedded sessionId session stage rfl rfl found ?_ ?_ ?_
    · simp only [System.resume, same]
    · simp [not_not.mp authorized, Stage.isUnpaid]
    · rcases reached with ⟨value, rfl⟩ | paid
      · rfl
      · exact paid
  | index sessionId drawn =>
    simp only [System.run, bind_eq_ok, orRaise_eq_ok] at ok
    obtain ⟨session, found, embedded, isEmbedded, ok⟩ := ok
    split at ok
    · rw [pure_eq_ok] at ok
      subst ok
      exact .moved sessionId session _ rfl found rfl rfl (by simp [Stage.isUnpaid])
    · rename_i raised _
      rw [pure_eq_ok] at ok
      subst ok
      exact .moved sessionId session _ rfl found rfl rfl (by simp [raised.recorded_paid])
  | settle sessionId delay now =>
    simp only [System.run, bind_eq_ok, orRaise_eq_ok, pure_eq_ok] at ok
    obtain ⟨session, found, store, _, rfl⟩ := ok
    exact .moved sessionId session _ rfl found rfl rfl (by simp [Stage.isUnpaid])

end Steps

/-- What a run has counted: each job's attempts are the sessions it was claimed for, they are
within the limit, and each session has the text embedded at most once. -/
structure Tallied (history : List (Transition System Label)) (system : System) : Prop where
  bounded : ∀ id job, system.store.jobs.find? id = some job →
    job.attemptCount ≤ maxIngestionAttempts ∧ (job.status = .queued → job.usedUp = false)
  counted : ∀ id, (claimsOf id history).length =
    ((system.store.jobs.find? id).map IngestionJob.attemptCount).getD 0
  opened : ∀ sessionId session, system.sessions.find? sessionId = some session →
    sessionId ∈ claimsOf session.jobId history
  embedded : ∀ id sessionId, sessionId ∈ embeddingsOf id history →
    ∃ session, system.sessions.find? sessionId = some session ∧ session.jobId = id ∧
      session.stage.isUnpaid = false
  distinct : ∀ id, (embeddingsOf id history).Nodup

section Tallies

variable {deployment : Deployment} {history : List (Transition System Label)}
  {system next : System} {label : Label}

/-- What one more element adds to a partial map of a list. -/
theorem filterMap_concat {Item Result : Type} (select : Item → Option Result) (items : List Item)
    (item : Item) :
    (items ++ [item]).filterMap select = items.filterMap select ++ (select item).toList := by
  rw [List.filterMap_append]
  cases selected : select item <;> simp [selected]

theorem claimsOf_append (id : Uuid) :
    claimsOf id (history ++ [⟨system, label, next⟩]) =
      claimsOf id history ++
        ((label.claims.filter fun claimed => claimed.2 = id).map Prod.fst).toList :=
  filterMap_concat ..

theorem embeddingsOf_append (id : Uuid) :
    embeddingsOf id (history ++ [⟨system, label, next⟩]) =
      embeddingsOf id history ++ (label.embeds.filter fun sessionId =>
        (system.sessions.find? sessionId).any fun session => session.jobId = id).toList :=
  filterMap_concat ..

theorem Tallied.initial (opening : Opening system) : Tallied [] system := by
  obtain ⟨quiet, memberships, ledger, hnswIndexes, unused⟩ := opening
  constructor
  · intro id job found
    rw [unused] at found
    cases found
  · intro id
    rw [unused]
    rfl
  · intro sessionId session found
    rw [quiet] at found
    cases found
  · intro id sessionId member
    cases member
  · intro id
    exact List.nodup_nil

/-- The limit holds of every job after a step that takes no used-up job up again. -/
theorem Tallied.bounded_step (tallied : Tallied history system)
    (ok : system.run deployment label = .ok next) (keeps : KeepsLastLease ⟨system, label, next⟩)
    (id : Uuid) (later : IngestionJob) (found : next.store.jobs.find? id = some later) :
    later.attemptCount ≤ maxIngestionAttempts ∧
      (later.status = .queued → later.usedUp = false) := by
  cases run_counted ok with
  | kept notClaim rows counts =>
    have present := rows id
    rw [found, Option.isSome_some] at present
    obtain ⟨job, earlier⟩ := Option.isSome_iff_exists.mp present.symm
    obtain ⟨attempts, requeued⟩ := counts id job later earlier found
    obtain ⟨within, queued⟩ := tallied.bounded id job earlier
    refine ⟨by omega, fun isQueued => ?_⟩
    have unused : job.usedUp = false := (requeued isQueued).elim queued fun left => left
    simpa [IngestionJob.usedUp, attempts] using unused
  | queued notClaim jobId job free jobs fresh =>
    rw [jobs, Table.find?_put_eq] at found
    split at found
    · cases found
      simp [IngestionJob.usedUp, fresh, maxIngestionAttempts]
    · exact tallied.bounded id later found
  | claimed sessionId jobId now job row claims at_ due isDue written attempts running =>
    rcases written.found found with ⟨rfl, rfl⟩ | ⟨_, earlier⟩
    · -- A due job is queued, with attempts left, or has lost its lease before its last attempt.
      have left : job.usedUp = false := by
        simp only [Store.isDue, Bool.or_eq_true, Bool.and_eq_true, decide_eq_true_eq] at isDue
        rcases isDue with ⟨isQueued, _⟩ | ⟨isRunning, expired⟩
        · exact (tallied.bounded _ job due).2 isQueued
        · by_contra used
          have leased := keeps now at_ _ job due isRunning (Bool.of_not_eq_false used)
          unfold IngestionJob.leased at leased
          cases lease : job.lease with
          | none =>
            rw [lease] at leased
            cases leased
          | some held =>
            simp only [lease, Option.any_some, decide_eq_true_eq] at leased expired
            exact absurd leased (not_le.mpr expired)
      simp only [IngestionJob.usedUp, decide_eq_false_iff_not] at left
      refine ⟨by omega, fun isQueued => ?_⟩
      rw [running] at isQueued
      cases isQueued
    · exact tallied.bounded id later earlier

/-- A job's attempts are the sessions it was claimed for, after every step. -/
theorem Tallied.counted_step (tallied : Tallied history system)
    (ok : system.run deployment label = .ok next) (id : Uuid) :
    (claimsOf id (history ++ [⟨system, label, next⟩])).length =
      ((next.store.jobs.find? id).map IngestionJob.attemptCount).getD 0 := by
  have before := tallied.counted id
  rw [claimsOf_append, List.length_append, before]
  cases run_counted ok with
  | kept notClaim rows counts =>
    have present := rows id
    rw [notClaim]
    cases earlier : system.store.jobs.find? id with
    | none =>
      rw [earlier] at present
      cases found : next.store.jobs.find? id with
      | none => rfl
      | some later =>
        rw [found] at present
        cases present
    | some job =>
      rw [earlier] at present
      obtain ⟨later, found⟩ := Option.isSome_iff_exists.mp present
      rw [found]
      exact (counts id job later earlier found).attempts.symm
  | queued notClaim jobId job free jobs fresh =>
    rw [notClaim, jobs, Table.find?_put_eq]
    by_cases same : id = jobId
    · subst same
      simp [free, fresh]
    · simp [same]
  | claimed sessionId jobId now job row claims at_ due isDue written attempts running =>
    rw [claims]
    by_cases same : id = jobId
    · subst same
      simp [due, written.self, attempts, Option.filter]
    · have other : next.store.jobs.find? id = system.store.jobs.find? id := written.other same
      simp [other, Ne.symm same, Option.filter]

/-- Every session is one its job was claimed for, after every step. -/
theorem Tallied.opened_step (tallied : Tallied history system)
    (ok : system.run deployment label = .ok next) (sessionId : Nat) (session : Session)
    (found : next.sessions.find? sessionId = some session) :
    sessionId ∈ claimsOf session.jobId (history ++ [⟨system, label, next⟩]) := by
  rw [claimsOf_append, List.mem_append]
  cases run_sessions ok with
  | kept notClaim notEmbed same =>
    rw [same] at found
    exact .inl (tallied.opened sessionId session found)
  | opened openedId fresh claims notEmbed free sessions =>
    rw [sessions, Table.find?_put_eq] at found
    split at found
    · rename_i isNew
      cases found
      exact .inr (by simp [claims, isNew, Option.filter])
    · exact .inl (tallied.opened sessionId session found)
  | moved movedId before stage notClaim earlier sessions notEmbed unpaid =>
    rw [sessions, Table.find?_put_eq] at found
    split at found
    · rename_i isMoved
      cases found
      subst isMoved
      exact .inl (tallied.opened _ before earlier)
    · exact .inl (tallied.opened sessionId session found)
  | embedded movedId before stage notClaim embeds earlier sessions unpaid paid =>
    rw [sessions, Table.find?_put_eq] at found
    split at found
    · rename_i isMoved
      cases found
      subst isMoved
      exact .inl (tallied.opened _ before earlier)
    · exact .inl (tallied.opened sessionId session found)

/-- A session that has been embedded stays so. -/
theorem Tallied.paid_step (ok : system.run deployment label = .ok next) {session : Session}
    (found : system.sessions.find? sessionId = some session)
    (paid : session.stage.isUnpaid = false) :
    ∃ later, next.sessions.find? sessionId = some later ∧ later.jobId = session.jobId ∧
      later.stage.isUnpaid = false := by
  have written : ∀ (movedId : Nat) (before : Session) (stage : Stage),
      system.sessions.find? movedId = some before →
      next.sessions = system.sessions.put movedId (before.at_ stage) →
      (stage.isUnpaid = true → before.stage.isUnpaid = true) →
      ∃ later, next.sessions.find? sessionId = some later ∧ later.jobId = session.jobId ∧
        later.stage.isUnpaid = false := by
    intro movedId before stage earlier sessions unpaid
    rw [sessions, Table.find?_put_eq]
    by_cases same : sessionId = movedId
    · subst same
      rw [found, Option.some.injEq] at earlier
      subst earlier
      refine ⟨_, if_pos rfl, rfl, ?_⟩
      by_contra notPaid
      rw [unpaid (Bool.of_not_eq_false notPaid)] at paid
      cases paid
    · exact ⟨session, by rw [if_neg same, found], rfl, paid⟩
  cases run_sessions ok with
  | kept notClaim notEmbed same => exact ⟨session, by rw [same, found], rfl, paid⟩
  | opened openedId fresh claims notEmbed free sessions =>
    have other : sessionId ≠ openedId := by
      rintro rfl
      rw [found] at free
      cases free
    exact ⟨session, by rw [sessions, Table.find?_put_ne _ _ other, found], rfl, paid⟩
  | moved movedId before stage notClaim earlier sessions notEmbed unpaid =>
    exact written movedId before stage earlier sessions unpaid
  | embedded movedId before stage notClaim embeds earlier sessions unpaid isPaid =>
    exact written movedId before stage earlier sessions fun _ => unpaid

/-- Each session's text is embedded at most once, after every step. -/
theorem Tallied.embedded_step (tallied : Tallied history system)
    (ok : system.run deployment label = .ok next) (id : Uuid) :
    (∀ sessionId ∈ embeddingsOf id (history ++ [⟨system, label, next⟩]),
      ∃ session, next.sessions.find? sessionId = some session ∧ session.jobId = id ∧
        session.stage.isUnpaid = false) ∧
      (embeddingsOf id (history ++ [⟨system, label, next⟩])).Nodup := by
  have kept : ∀ sessionId ∈ embeddingsOf id history,
      ∃ session, next.sessions.find? sessionId = some session ∧ session.jobId = id ∧
        session.stage.isUnpaid = false := by
    intro sessionId member
    obtain ⟨session, found, rfl, paid⟩ := tallied.embedded id sessionId member
    exact paid_step ok found paid
  rw [embeddingsOf_append]
  cases added : label.embeds.filter fun sessionId =>
      (system.sessions.find? sessionId).any fun session => session.jobId = id with
  | none => simpa using ⟨kept, tallied.distinct id⟩
  | some embeddedId =>
    rw [Option.filter_eq_some_iff] at added
    obtain ⟨isEmbed, ofJob⟩ := added
    cases run_sessions ok with
    | kept _ notEmbed _ | opened _ _ _ notEmbed _ _ | moved _ _ _ _ _ _ notEmbed _ =>
      rw [notEmbed] at isEmbed
      cases isEmbed
    | embedded movedId before stage notClaim embeds earlier sessions unpaid paid =>
      rw [embeds, Option.some.injEq] at isEmbed
      subst isEmbed
      simp only [earlier, Option.any_some, decide_eq_true_eq] at ofJob
      constructor
      · intro sessionId member
        rcases List.mem_append.mp member with old | new
        · exact kept sessionId old
        · rw [Option.toList_some, List.mem_singleton] at new
          subst new
          exact ⟨before.at_ stage, by rw [sessions, Table.find?_put], ofJob, paid⟩
      · refine List.nodup_append.mpr ⟨tallied.distinct id, by simp, ?_⟩
        intro old member new isNew same
        rw [Option.toList_some, List.mem_singleton] at isNew
        subst isNew
        subst same
        obtain ⟨session, found, _, isPaid⟩ := tallied.embedded id _ member
        rw [earlier, Option.some.injEq] at found
        subst found
        rw [unpaid] at isPaid
        cases isPaid

/-- The tally of every run in which no last attempt has lost its lease when a job is claimed. -/
theorem tallied_of_runs (runs : (machine deployment).Runs history system)
    (keeps : ∀ step ∈ history, KeepsLastLease step) : Tallied history system := by
  refine runs.invariantWithHistoryWhile Tallied KeepsLastLease (fun _ => .initial) ?_ keeps
  intro earlier before label after _ tallied ok admitted
  exact {
    bounded := tallied.bounded_step ok admitted
    counted := tallied.counted_step ok
    opened := tallied.opened_step ok
    embedded := fun id => (tallied.embedded_step ok id).1
    distinct := fun id => (tallied.embedded_step ok id).2 }

end Tallies

/-- As long as no last attempt has lost its lease when a job is claimed, no job is attempted more
often than the limit admits, one whose attempts are used up has ended once no worker holds it,
and no document is embedded more often than it is attempted. -/
theorem ingestion_attempts_bounded (deployment : Deployment)
    (history : List (Transition System Label)) (system : System)
    (runs : (machine deployment).Runs history system)
    (keeps : ∀ step ∈ history, KeepsLastLease step) :
    (∀ id job, system.store.jobs.find? id = some job →
      job.attemptCount ≤ maxIngestionAttempts ∧ (job.usedUp = true → job.status ≠ .queued)) ∧
    (∀ step ∈ history, ∀ now ∈ step.label.claimedAt, ∀ id job,
      step.before.store.jobs.find? id = some job → job.usedUp = true → job.leased now = false →
        job.status = .failed ∨ job.status = .succeeded ∨ job.status = .cancelled) ∧
    ∀ id, (embeddingsOf id history).length ≤ maxIngestionAttempts := by
  have tallied := tallied_of_runs runs keeps
  have notQueued : ∀ {history : List (Transition System Label)} {system : System},
      Tallied history system → ∀ id job, system.store.jobs.find? id = some job →
        job.usedUp = true → job.status ≠ .queued := by
    intro history system tallied id job found used queued
    rw [(tallied.bounded id job found).2 queued] at used
    cases used
  refine ⟨fun id job found => ⟨(tallied.bounded id job found).1, notQueued tallied id job found⟩,
    ?_, ?_⟩
  · intro step member now claimed id job found used lapsed
    obtain ⟨earlier, later, splits⟩ := List.append_of_mem member
    have before : Tallied earlier step.before := by
      apply tallied_of_runs (runs.split splits).1
      intro other isEarlier
      apply keeps
      rw [splits]
      exact List.mem_append_left _ isEarlier
    cases status : job.status with
    | queued => exact absurd status (notQueued before id job found used)
    | running =>
      have leased := keeps step member now claimed id job found status used
      rw [lapsed] at leased
      cases leased
    | failed => exact .inl rfl
    | succeeded => exact .inr (.inl rfl)
    | cancelled => exact .inr (.inr rfl)
  · intro id
    have inside : embeddingsOf id history ⊆ claimsOf id history := by
      intro sessionId member
      obtain ⟨session, found, rfl, _⟩ := tallied.embedded id sessionId member
      exact tallied.opened sessionId session found
    calc (embeddingsOf id history).length
      _ ≤ (claimsOf id history).length := ((tallied.distinct id).subperm inside).length_le
      _ = ((system.store.jobs.find? id).map IngestionJob.attemptCount).getD 0 := tallied.counted id
      _ ≤ maxIngestionAttempts := by
        cases found : system.store.jobs.find? id with
        | none => exact Nat.zero_le _
        | some job => exact (tallied.bounded id job found).1

/-- A check that no last attempt has lost its lease when a step claims a job. -/
def keepsLastLease (step : Transition System Label) : Bool :=
  step.label.claimedAt.all fun now => !step.before.store.jobs.any fun _ job =>
    job.status = .running && job.usedUp && !job.leased now

theorem of_keepsLastLease {step : Transition System Label} (keeps : keepsLastLease step = true) :
    KeepsLastLease step := by
  intro now claimed id job found running used
  by_contra lapsed
  rw [Option.mem_def] at claimed
  simp only [keepsLastLease, claimed, Option.all_some, Bool.not_eq_true'] at keeps
  have some_ : step.before.store.jobs.any (fun _ job =>
      job.status = .running && job.usedUp && !job.leased now) = true := by
    rw [Table.any_eq_true]
    exact ⟨id, job, found, by simp [running, used, Bool.of_not_eq_true lapsed]⟩
  rw [some_] at keeps
  cases keeps

/-- A worker claims the example's job, pays for its embedding and dies. -/
def diesAfterEmbedding (sessionId : Nat) (now : Instant) : List Label := [
  .claim sessionId "worker" 30 10 now,
  .authorize sessionId true,
  .embed sessionId fun _ => .body (py "m") [(0, unitVector 1)] 7]

/-- The bounds apply to a job whose first two workers die and whose third is refused by the
provider. -/
theorem ingestion_attempts_bounded_refused :
    ∃ history system job, (machine exampleDeployment).Runs history system ∧
      system.store.jobs.find? 10 = some job ∧ job.status = .failed ∧
      job.attemptCount ≤ maxIngestionAttempts ∧
      (embeddingsOf 10 history).length ≤ maxIngestionAttempts := by
  obtain ⟨history, system, runs, checked⟩ := Machine.exists_run_of_trace Opening
    (fun system label => System.run system exampleDeployment label)
    (.enqueue exampleOwner 1 exampleSource "key" 10 0 :: diesAfterEmbedding 0 1 ++
      diesAfterEmbedding 1 100000000 ++ [
        .claim 2 "worker" 30 10 200000000,
        .authorize 2 true,
        .embed 2 fun _ => .failed (.provider "embedding_unavailable" true),
        .settle 2 0 200000001]) exampleOpening
    (fun history system => history.all keepsLastLease &&
      (system.store.jobs.find? 10).any fun job => job.status = .failed)
    ⟨rfl, _, _, _, rfl⟩ (by decide +kernel)
  simp only [Bool.and_eq_true, List.all_eq_true, Option.any_eq_true, decide_eq_true_eq] at checked
  obtain ⟨keeps, job, found, failed⟩ := checked
  have bounded := ingestion_attempts_bounded exampleDeployment history system runs
    fun step member => of_keepsLastLease (keeps step member)
  exact ⟨history, system, job, runs, found, failed, (bounded.1 10 job found).1, bounded.2.2 10⟩

/-- A document whose workers die is embedded a fourth time. -/
theorem dying_workers_exceed_limit :
    ¬ ∀ (deployment : Deployment) (history : List (Transition System Label)) (system : System),
      (machine deployment).Runs history system →
        ∀ id job, system.store.jobs.find? id = some job →
          job.attemptCount ≤ maxIngestionAttempts := by
  intro bounded
  obtain ⟨history, system, runs, checked⟩ := Machine.exists_run_of_trace Opening
    (fun system label => System.run system exampleDeployment label)
    (.enqueue exampleOwner 1 exampleSource "key" 10 0 :: diesAfterEmbedding 0 1 ++
      diesAfterEmbedding 1 100000000 ++ diesAfterEmbedding 2 200000000 ++
      diesAfterEmbedding 3 300000000) exampleOpening
    (fun history system => (embeddingsOf 10 history).length = 4 &&
      (system.store.jobs.find? 10).any fun job => job.attemptCount = 4)
    ⟨rfl, _, _, _, rfl⟩ (by decide +kernel)
  simp only [Bool.and_eq_true, Option.any_eq_true, decide_eq_true_eq] at checked
  obtain ⟨_, job, found, four⟩ := checked
  have within := bounded exampleDeployment history system runs 10 job found
  rw [four] at within
  exact absurd within (by decide)

end Nexora.Knowledge
