import Nexora.Spend.Ledger

/-!
# Delivering threshold alerts

A notifier leases a row of the outbox, sends its request outside any transaction and then records
what came of it. The attempt is counted when it is recorded, by the worker that still owns the
row and from the count it read when it claimed it. A worker that dies, or whose lease has lapsed
and was taken over, counts nothing, though its request was sent.
-/

namespace Nexora.Spend.Delivery

open Nexora.Std Nexora.Workspace

/-- How often a notification is attempted. -/
def maxDeliveryAttempts : Nat := 5

/-- How many bytes of a response are read. -/
def maxResponseBytes : Nat := 16 * 1024

/-- A worker's lease on a row. -/
structure Lease where
  owner : String
  expiresAt : Instant
  deriving DecidableEq

/-- A row of `workspace_spend_alert_outbox`. -/
structure OutboxRow where
  attempts : Nat
  availableAt : Instant
  lease : Option Lease
  deliveredAt : Option Instant
  deadLetteredAt : Option Instant
  lastError : Option String
  deriving DecidableEq

namespace OutboxRow

/-- A notification that is neither delivered nor abandoned. -/
def pending (row : OutboxRow) : Bool := row.deliveredAt.isNone && row.deadLetteredAt.isNone

/-- A notifier may claim the row. -/
def isDue (row : OutboxRow) (now : Instant) : Bool :=
  row.pending && row.availableAt ≤ now && row.lease.all fun lease => lease.expiresAt < now

/-- A length a check of the table admits. -/
def boundedText (text : String) : Bool := 1 ≤ text.length && text.length ≤ 100

/-- The table's checks and its update trigger. -/
def admits (old new : OutboxRow) : Bool :=
  (new.lease.all fun lease => boundedText lease.owner) && new.lastError.all boundedText &&
    (new.deliveredAt.isNone || new.deadLetteredAt.isNone) &&
    (old.deliveredAt.isNone || new.deliveredAt = old.deliveredAt) &&
    (old.deadLetteredAt.isNone || new.deadLetteredAt = old.deadLetteredAt)

end OutboxRow

/-- What comes of a request to the operator's endpoint. -/
inductive Reply where
  | response (status size : Nat)
  | timeout
  | transportError
  | raised (name : String)
  deriving DecidableEq

/-- Why a delivery failed. -/
structure DeliveryError where
  code : String
  retryable : Bool
  deriving DecidableEq

/-- `_raise_for_status`. -/
def raiseForStatus (status : Nat) : Except DeliveryError Unit :=
  if 200 ≤ status ∧ status < 300 then .ok ()
  else if 300 ≤ status ∧ status < 400 then .error ⟨"alert_redirect_forbidden", false⟩
  else if status ∈ [408, 425, 429] ∨ 500 ≤ status ∧ status < 600 then
    .error ⟨"alert_unavailable", true⟩
  else .error ⟨"alert_rejected", false⟩

/-- `_deliver`, with the name of any other exception as its code. -/
def Reply.outcome : Reply → Except DeliveryError Unit
  | .response status size => do
      raiseIf (maxResponseBytes < size) ⟨"alert_response_too_large", false⟩
      raiseForStatus status
  | .timeout => .error ⟨"alert_timeout", true⟩
  | .transportError => .error ⟨"alert_unavailable", true⟩
  | .raised name => .error ⟨String.ofList (name.toList.take 100), true⟩

/-- How far a worker has come with a row it has claimed. -/
inductive Stage where
  | claimed
  | sent (outcome : Except DeliveryError Unit)
  | recorded

/-- A worker's attempt: the row it claimed, and the count it read. -/
structure Session where
  workerId : String
  alertId : Uuid
  attempts : Nat
  stage : Stage

/-- The attempt has not been recorded. -/
def Session.isOpen (session : Session) : Bool :=
  match session.stage with
  | .claimed | .sent _ => true
  | .recorded => false

/-- The outbox, the attempts so far and the requests that were sent, by their alert. -/
structure System where
  outbox : Table Uuid OutboxRow
  sessions : Table Nat Session
  sent : List Uuid

/-- What notifiers do to the outbox; `queue` is what the evaluation of a budget does. -/
inductive Label where
  | queue (alertId : Uuid) (now : Instant)
  | claim (sessionId : Nat) (workerId : String) (leaseSeconds : Nat) (alertId : Uuid)
      (now : Instant)
  | deliver (sessionId : Nat) (reply : Reply)
  | record (sessionId : Nat) (delay : Nat) (now : Instant)

/-- Why a step does not happen. -/
inductive Disabled where
  | fails
  deriving DecidableEq

namespace System

variable (system : System)

/-- Update a row as its checks and its trigger admit it. -/
def update (alertId : Uuid) (new : OutboxRow → OutboxRow) : Except Disabled (Table Uuid OutboxRow) := do
  let old ← orRaise (system.outbox.find? alertId) .fails
  raiseIf (old.admits (new old) = false) .fails
  pure (system.outbox.put alertId (new old))

/-- `_claim`. -/
def claim (workerId : String) (leaseSeconds : Nat) (alertId : Uuid) (now : Instant) :
    Except Disabled (OutboxRow × Table Uuid OutboxRow) := do
  let row ← orRaise ((system.outbox.find? alertId).filter fun row => row.isDue now) .fails
  let outbox ← system.update alertId fun row =>
    { row with lease := some ⟨workerId, now + leaseSeconds * 1000000⟩ }
  pure (row, outbox)

/-- The row an attempt may be recorded in: it is pending and the worker owns it. -/
def owned (session : Session) : Option OutboxRow :=
  (system.outbox.find? session.alertId).filter fun row =>
    row.pending && row.lease.any fun lease => lease.owner = session.workerId

/-- `_succeed`; without the row nothing is updated. -/
def succeed (session : Session) (now : Instant) : Except Disabled (Table Uuid OutboxRow) :=
  match system.owned session with
  | none => pure system.outbox
  | some _ => system.update session.alertId fun row =>
    { row with deliveredAt := some now, attempts := row.attempts + 1, lastError := none,
               lease := none }

/-- `_fail`, with the delay before the next attempt in microseconds. -/
def fail (session : Session) (error : DeliveryError) (delay : Nat) (now : Instant) :
    Except Disabled (Table Uuid OutboxRow) :=
  let attempts := session.attempts + 1
  let lastError := some (String.ofList (error.code.toList.take 100))
  match system.owned session with
  | none => pure system.outbox
  | some _ =>
    if error.retryable = false ∨ maxDeliveryAttempts ≤ attempts then
      system.update session.alertId fun row =>
        { row with attempts := attempts, deadLetteredAt := some now, lastError := lastError,
                   lease := none }
    else
      system.update session.alertId fun row =>
        { row with attempts := attempts, availableAt := now + delay, lastError := lastError,
                   lease := none }

/-- One step. An attempt that is never recorded is one whose worker has died. -/
def run : Label → Except Disabled System
  | .queue alertId now => do
      let outbox ← orRaise (system.outbox.insert? alertId
        { attempts := 0, availableAt := now, lease := none, deliveredAt := none,
          deadLetteredAt := none, lastError := none }) .fails
      pure { system with outbox := outbox }
  | .claim sessionId workerId leaseSeconds alertId now => do
      raiseIf ((system.sessions.find? sessionId).isSome = true) .fails
      let claimed ← system.claim workerId leaseSeconds alertId now
      pure { system with
        outbox := claimed.2
        sessions := system.sessions.put sessionId
          ⟨workerId, alertId, claimed.1.attempts, .claimed⟩ }
  | .deliver sessionId reply => do
      let session ← orRaise (system.sessions.find? sessionId) .fails
      match session.stage with
      | .claimed =>
        pure { system with
          sessions := system.sessions.put sessionId { session with stage := .sent reply.outcome }
          sent := system.sent ++ [session.alertId] }
      | .sent _ | .recorded => .error .fails
  | .record sessionId delay now => do
      let session ← orRaise (system.sessions.find? sessionId) .fails
      match session.stage with
      | .sent outcome => do
          let outbox ← match outcome with
            | .ok () => system.succeed session now
            | .error error => system.fail session error delay now
          pure { system with
            outbox := outbox
            sessions := system.sessions.put sessionId { session with stage := .recorded } }
      | .claimed | .recorded => .error .fails

end System

/-- No alert has been raised and no worker has started. -/
structure Opening (system : System) : Prop where
  outbox : system.outbox = .empty
  sessions : system.sessions = .empty
  sent : system.sent = []

/-- The runs of any number of notifiers over one outbox. -/
def machine : Machine System Label := .ofFunction Opening System.run

/-- When a step claims a row, nobody's lease is on it: every attempt before was recorded. -/
def ClaimsReleased (transition : Transition System Label) : Prop :=
  match transition.label with
  | .claim _ _ _ alertId _ => ∀ row ∈ transition.before.outbox.find? alertId, row.lease = none
  | .queue _ _ | .deliver _ _ | .record _ _ _ => True

/-! ## What each step does -/

/-- The row an attempt is recorded as. -/
structure Records (session : Session) (row new : OutboxRow) : Prop where
  released : new.lease = none
  attempts : new.attempts = row.attempts + 1 ∨ new.attempts = session.attempts + 1
  ended : new.pending = false ∨
    new.attempts = session.attempts + 1 ∧ session.attempts + 1 < maxDeliveryAttempts
  exclusive : new.deliveredAt = none ∨ new.deadLetteredAt = none

/-- What each step does, read off `System.run`. -/
inductive Stepped (system : System) : Label → System → Prop where
  | queue {alertId now} (row : OutboxRow) (free : system.outbox.find? alertId = none)
      (fresh : row.attempts = 0) (unleased : row.lease = none) (isPending : row.pending = true) :
      Stepped system (.queue alertId now)
        { system with outbox := system.outbox.put alertId row }
  | claim {sessionId workerId leaseSeconds alertId now} (row : OutboxRow) (lease : Lease)
      (unused : system.sessions.find? sessionId = none)
      (found : system.outbox.find? alertId = some row) (due : row.isDue now = true)
      (owner : lease.owner = workerId) :
      Stepped system (.claim sessionId workerId leaseSeconds alertId now)
        { system with
          outbox := system.outbox.put alertId { row with lease := some lease }
          sessions := system.sessions.put sessionId ⟨workerId, alertId, row.attempts, .claimed⟩ }
  | deliver {sessionId reply} (session : Session)
      (found : system.sessions.find? sessionId = some session) (stage : session.stage = .claimed) :
      Stepped system (.deliver sessionId reply)
        { system with
          sessions := system.sessions.put sessionId { session with stage := .sent reply.outcome }
          sent := system.sent ++ [session.alertId] }
  | record {sessionId delay now} (session : Session) (row new : OutboxRow)
      (found : system.sessions.find? sessionId = some session)
      (isOpen : session.isOpen = true) (owned : system.owned session = some row)
      (records : Records session row new) :
      Stepped system (.record sessionId delay now)
        { system with
          outbox := system.outbox.put session.alertId new
          sessions := system.sessions.put sessionId { session with stage := .recorded } }
  | lost {sessionId delay now} (session : Session)
      (found : system.sessions.find? sessionId = some session)
      (isOpen : session.isOpen = true) (owned : system.owned session = none) :
      Stepped system (.record sessionId delay now)
        { system with
          sessions := system.sessions.put sessionId { session with stage := .recorded } }

section Steps

variable {system next : System} {label : Label} {row : OutboxRow} {session : Session}
  {alertId : Uuid}

theorem update_eq_ok {new : OutboxRow → OutboxRow} {outbox : Table Uuid OutboxRow}
    (ok : system.update alertId new = .ok outbox) :
    ∃ row, system.outbox.find? alertId = some row ∧ outbox = system.outbox.put alertId (new row) := by
  simp only [System.update, bind_eq_ok, orRaise_eq_ok, pure_eq_ok] at ok
  obtain ⟨row, found, _, _, rfl⟩ := ok
  exact ⟨row, found, rfl⟩

theorem owned_eq_some (owned : system.owned session = some row) :
    system.outbox.find? session.alertId = some row ∧ row.pending = true ∧
      ∃ lease, row.lease = some lease ∧ lease.owner = session.workerId := by
  simpa [System.owned, Option.filter_eq_some_iff, Option.any_eq_true] using owned

theorem stepped_of_run (ok : system.run label = .ok next) : Stepped system label next := by
  cases label with
  | queue alertId now =>
    simp only [System.run, bind_eq_ok, orRaise_eq_ok, Table.insert?_eq_some, pure_eq_ok] at ok
    obtain ⟨_, ⟨free, rfl⟩, rfl⟩ := ok
    exact .queue _ free rfl rfl rfl
  | claim sessionId workerId leaseSeconds alertId now =>
    simp only [System.run, System.claim, bind_eq_ok, raiseIf_eq_ok, orRaise_eq_ok,
      Option.filter_eq_some_iff, pure_eq_ok, Bool.not_eq_true, Option.isSome_eq_false_iff,
      Option.isNone_iff_eq_none] at ok
    obtain ⟨_, unused, _, ⟨row, ⟨found, due⟩, outbox, updated, rfl⟩, rfl⟩ := ok
    obtain ⟨again, foundAgain, rfl⟩ := update_eq_ok updated
    obtain rfl := Option.some.inj (found.symm.trans foundAgain)
    exact .claim row _ unused found due rfl
  | deliver sessionId reply =>
    simp only [System.run, bind_eq_ok, orRaise_eq_ok] at ok
    obtain ⟨session, found, ok⟩ := ok
    split at ok
    · rename_i stage
      rw [pure_eq_ok] at ok
      exact ok ▸ .deliver session found stage
    · cases ok
    · cases ok
  | record sessionId delay now =>
    simp only [System.run, bind_eq_ok, orRaise_eq_ok] at ok
    obtain ⟨session, found, ok⟩ := ok
    split at ok
    · rename_i outcome stage
      have isOpen : session.isOpen = true := by simp [Session.isOpen, stage]
      cases owned : system.owned session with
      | none =>
        cases outcome with
        | ok =>
          simp only [System.succeed, owned, bind_eq_ok, pure_eq_ok] at ok
          obtain ⟨_, rfl, rfl⟩ := ok
          exact .lost session found isOpen owned
        | error error =>
          simp only [System.fail, owned, bind_eq_ok, pure_eq_ok] at ok
          obtain ⟨_, rfl, rfl⟩ := ok
          exact .lost session found isOpen owned
      | some row =>
        obtain ⟨present, isPending, _⟩ := owned_eq_some owned
        have undelivered : row.deliveredAt = none ∧ row.deadLetteredAt = none := by
          simpa [OutboxRow.pending] using isPending
        cases outcome with
        | ok =>
          simp only [System.succeed, owned, bind_eq_ok, pure_eq_ok] at ok
          obtain ⟨_, updated, rfl⟩ := ok
          obtain ⟨again, foundAgain, rfl⟩ := update_eq_ok updated
          obtain rfl := Option.some.inj (present.symm.trans foundAgain)
          exact .record session row _ found isOpen owned
            ⟨rfl, .inl rfl, .inl (by simp [OutboxRow.pending]), .inr undelivered.2⟩
        | error error =>
          simp only [System.fail, owned, bind_eq_ok, pure_eq_ok] at ok
          obtain ⟨_, updated, rfl⟩ := ok
          split at updated
          · obtain ⟨again, foundAgain, rfl⟩ := update_eq_ok updated
            obtain rfl := Option.some.inj (present.symm.trans foundAgain)
            exact .record session row _ found isOpen owned
              ⟨rfl, .inr rfl, .inl (by simp [OutboxRow.pending]), .inl undelivered.1⟩
          · rename_i left
            obtain ⟨again, foundAgain, rfl⟩ := update_eq_ok updated
            obtain rfl := Option.some.inj (present.symm.trans foundAgain)
            refine .record session row _ found isOpen owned
              ⟨rfl, .inr rfl, .inr ⟨rfl, ?_⟩, .inl undelivered.1⟩
            rw [not_or] at left
            omega
    · cases ok
    · cases ok

/-! ## Counting the requests -/

/-- No request was sent in an open attempt at a row. -/
def NoneSent (system : System) (alertId : Uuid) : Prop :=
  ∀ sessionId session, system.sessions.find? sessionId = some session →
    session.alertId = alertId → session.isOpen = true → session.stage = .claimed

/-- Every open attempt holds its row, one at a time, and every request is counted in the row or
was sent in the open attempt. -/
structure Tallied (system : System) : Prop where
  exclusive : ∀ id row, system.outbox.find? id = some row →
    row.deliveredAt = none ∨ row.deadLetteredAt = none
  released : ∀ id row, system.outbox.find? id = some row → row.pending = false → row.lease = none
  limited : ∀ id row, system.outbox.find? id = some row →
    row.attempts ≤ maxDeliveryAttempts ∧ (row.pending = true → row.attempts < maxDeliveryAttempts)
  holds : ∀ sessionId session, system.sessions.find? sessionId = some session →
    session.isOpen = true → ∃ row, system.owned session = some row ∧
      session.attempts = row.attempts
  alone : ∀ sessionId session otherId other, system.sessions.find? sessionId = some session →
    system.sessions.find? otherId = some other → session.isOpen = true → other.isOpen = true →
    session.alertId = other.alertId → sessionId = otherId
  counted : ∀ id row, system.outbox.find? id = some row →
    system.sent.count id ≤ row.attempts + 1 ∧
      (NoneSent system id → system.sent.count id ≤ row.attempts)
  unqueued : ∀ id, system.outbox.find? id = none → system.sent.count id = 0

theorem Tallied.of_opening (opening : Opening system) : Tallied system := by
  obtain ⟨outbox, sessions, sent⟩ := opening
  constructor <;> simp [outbox, sessions, sent]

namespace Tallied

variable (tallied : Tallied system) {sessionId : Nat}

include tallied

/-- A row without a lease has no open attempt. -/
theorem none_open (found : system.outbox.find? alertId = some row) (unleased : row.lease = none)
    (stored : system.sessions.find? sessionId = some session)
    (ofAlert : session.alertId = alertId) : session.isOpen = false := by
  by_contra isOpen
  obtain ⟨other, owned, _⟩ := tallied.holds sessionId session stored (Bool.of_not_eq_false isOpen)
  obtain ⟨present, _, lease, isLease, _⟩ := owned_eq_some owned
  rw [ofAlert, found, Option.some.injEq] at present
  rw [← present, unleased] at isLease
  cases isLease

theorem queue (free : system.outbox.find? alertId = none) (fresh : row.attempts = 0)
    (unleased : row.lease = none) (isPending : row.pending = true) :
    Tallied { system with outbox := system.outbox.put alertId row } := by
  have written : system.outbox.Written (system.outbox.put alertId row) alertId row := .put _ _ _
  have undelivered : row.deliveredAt = none ∧ row.deadLetteredAt = none := by
    simpa [OutboxRow.pending] using isPending
  constructor
  case exclusive =>
    intro id later found
    obtain ⟨rfl, rfl⟩ | ⟨_, earlier⟩ := written.found found
    · exact .inl undelivered.1
    · exact tallied.exclusive id later earlier
  case released =>
    intro id later found ended
    obtain ⟨rfl, rfl⟩ | ⟨_, earlier⟩ := written.found found
    · exact unleased
    · exact tallied.released id later earlier ended
  case limited =>
    intro id later found
    obtain ⟨rfl, rfl⟩ | ⟨_, earlier⟩ := written.found found
    · rw [fresh]
      exact ⟨by decide, fun _ => by decide⟩
    · exact tallied.limited id later earlier
  case holds =>
    intro sessionId session stored isOpen
    obtain ⟨held, owned, same⟩ := tallied.holds sessionId session stored isOpen
    have other : session.alertId ≠ alertId := by
      intro isNew
      have present := (owned_eq_some owned).1
      rw [isNew, free] at present
      cases present
    refine ⟨held, ?_, same⟩
    simpa only [System.owned, written.other other] using owned
  case alone => exact tallied.alone
  case counted =>
    intro id later found
    obtain ⟨rfl, rfl⟩ | ⟨_, earlier⟩ := written.found found
    · have none_ := tallied.unqueued _ free
      exact ⟨by simp [none_], fun _ => by simp [none_]⟩
    · exact tallied.counted id later earlier
  case unqueued =>
    intro id absent
    apply tallied.unqueued
    by_cases isNew : id = alertId
    · rw [isNew]
      exact free
    · rwa [written.other isNew] at absent

theorem claim {now : Instant} {lease : Lease} (unused : system.sessions.find? sessionId = none)
    (found : system.outbox.find? alertId = some row) (due : row.isDue now = true)
    (unleased : row.lease = none) :
    Tallied { system with
      outbox := system.outbox.put alertId { row with lease := some lease }
      sessions := system.sessions.put sessionId ⟨lease.owner, alertId, row.attempts, .claimed⟩ } := by
  have rows : system.outbox.Written (system.outbox.put alertId { row with lease := some lease })
      alertId { row with lease := some lease } := .put _ _ _
  have sessions : system.sessions.Written (system.sessions.put sessionId
      ⟨lease.owner, alertId, row.attempts, .claimed⟩) sessionId
      ⟨lease.owner, alertId, row.attempts, .claimed⟩ := .put _ _ _
  have isPending : row.pending = true := by
    simp only [OutboxRow.isDue, Bool.and_eq_true] at due
    exact due.1.1
  -- The sessions there were are still there, and none of them is open at this row.
  have old : ∀ {otherId other}, system.sessions.find? otherId = some other →
      otherId ≠ sessionId := by
    rintro otherId other stored rfl
    rw [unused] at stored
    cases stored
  constructor
  case exclusive =>
    intro id later stored
    obtain ⟨rfl, rfl⟩ | ⟨_, earlier⟩ := rows.found stored
    · exact tallied.exclusive _ row found
    · exact tallied.exclusive id later earlier
  case released =>
    intro id later stored ended
    obtain ⟨rfl, rfl⟩ | ⟨_, earlier⟩ := rows.found stored
    · change row.pending = false at ended
      rw [isPending] at ended
      cases ended
    · exact tallied.released id later earlier ended
  case limited =>
    intro id later stored
    obtain ⟨rfl, rfl⟩ | ⟨_, earlier⟩ := rows.found stored
    · exact tallied.limited _ row found
    · exact tallied.limited id later earlier
  case holds =>
    intro otherId other stored isOpen
    obtain ⟨rfl, rfl⟩ | ⟨_, earlier⟩ := sessions.found stored
    · refine ⟨{ row with lease := some lease }, ?_, rfl⟩
      simp only [System.owned, rows.self, Option.filter_eq_some_iff]
      refine ⟨trivial, ?_⟩
      simpa [OutboxRow.pending] using isPending
    · obtain ⟨held, owned, same⟩ := tallied.holds otherId other earlier isOpen
      have elsewhere : other.alertId ≠ alertId := by
        intro here
        rw [tallied.none_open found unleased earlier here] at isOpen
        cases isOpen
      refine ⟨held, ?_, same⟩
      simpa only [System.owned, rows.other elsewhere] using owned
  case alone =>
    intro firstId first otherId other storedFirst storedOther firstOpen otherOpen same
    obtain ⟨rfl, rfl⟩ | ⟨_, earlierFirst⟩ := sessions.found storedFirst
    · obtain ⟨rfl, _⟩ | ⟨_, earlierOther⟩ := sessions.found storedOther
      · rfl
      · rw [tallied.none_open found unleased earlierOther same.symm] at otherOpen
        cases otherOpen
    · obtain ⟨rfl, rfl⟩ | ⟨_, earlierOther⟩ := sessions.found storedOther
      · rw [tallied.none_open found unleased earlierFirst same] at firstOpen
        cases firstOpen
      · exact tallied.alone firstId first otherId other earlierFirst earlierOther firstOpen
          otherOpen same
  case counted =>
    intro id later stored
    have keeps : ∀ {id}, NoneSent { system with
        outbox := system.outbox.put alertId { row with lease := some lease }
        sessions := system.sessions.put sessionId
          ⟨lease.owner, alertId, row.attempts, .claimed⟩ } id → NoneSent system id :=
      fun none_ otherId other earlier =>
        none_ otherId other ((sessions.other (old earlier)).trans earlier)
    obtain ⟨rfl, rfl⟩ | ⟨_, earlier⟩ := rows.found stored
    · have before := tallied.counted _ row found
      exact ⟨before.1, fun none_ => before.2 (keeps none_)⟩
    · have before := tallied.counted id later earlier
      exact ⟨before.1, fun none_ => before.2 (keeps none_)⟩
  case unqueued =>
    intro id absent
    apply tallied.unqueued
    by_cases isIt : id = alertId
    · rw [isIt, rows.self] at absent
      cases absent
    · rwa [rows.other isIt] at absent

theorem deliver {outcome : Except DeliveryError Unit}
    (found : system.sessions.find? sessionId = some session) (stage : session.stage = .claimed) :
    Tallied { system with
      sessions := system.sessions.put sessionId { session with stage := .sent outcome }
      sent := system.sent ++ [session.alertId] } := by
  have sessions : system.sessions.Written (system.sessions.put sessionId
      { session with stage := .sent outcome }) sessionId { session with stage := .sent outcome } :=
    .put _ _ _
  have isOpen : session.isOpen = true := by simp [Session.isOpen, stage]
  have isOpenAfter : Session.isOpen { session with stage := .sent outcome } = true := rfl
  constructor
  case exclusive => exact tallied.exclusive
  case released => exact tallied.released
  case limited => exact tallied.limited
  case holds =>
    intro otherId other stored otherOpen
    obtain ⟨rfl, rfl⟩ | ⟨_, earlier⟩ := sessions.found stored
    · exact tallied.holds _ session found isOpen
    · exact tallied.holds otherId other earlier otherOpen
  case alone =>
    intro firstId first otherId other storedFirst storedOther firstOpen otherOpen same
    obtain ⟨rfl, rfl⟩ | ⟨_, earlierFirst⟩ := sessions.found storedFirst
    · obtain ⟨rfl, _⟩ | ⟨_, earlierOther⟩ := sessions.found storedOther
      · rfl
      · exact tallied.alone _ session otherId other found earlierOther isOpen otherOpen same
    · obtain ⟨rfl, rfl⟩ | ⟨_, earlierOther⟩ := sessions.found storedOther
      · exact tallied.alone firstId first _ session earlierFirst found firstOpen isOpen same
      · exact tallied.alone firstId first otherId other earlierFirst earlierOther firstOpen
          otherOpen same
  case counted =>
    intro id row stored
    have before := tallied.counted id row stored
    by_cases isIt : session.alertId = id
    · have none_ : NoneSent system id := by
        intro otherId other earlier ofAlert otherOpen
        obtain rfl := tallied.alone _ other _ session earlier found otherOpen isOpen
          (ofAlert.trans isIt.symm)
        obtain rfl := Option.some.inj (earlier.symm.trans found)
        exact stage
      refine ⟨by simpa [isIt] using before.2 none_, fun noneSent => ?_⟩
      have claimed := noneSent sessionId _ sessions.self isIt isOpenAfter
      cases claimed
    · have same : (system.sent ++ [session.alertId]).count id = system.sent.count id := by
        simp [isIt]
      rw [same]
      refine ⟨before.1, fun noneSent => before.2 ?_⟩
      intro otherId other earlier ofAlert otherOpen
      have distinct : otherId ≠ sessionId := by
        rintro rfl
        obtain rfl := Option.some.inj (earlier.symm.trans found)
        exact isIt ofAlert
      exact noneSent otherId other ((sessions.other distinct).trans earlier) ofAlert otherOpen
  case unqueued =>
    intro id absent
    have isOther : session.alertId ≠ id := by
      intro isIt
      obtain ⟨row, owned, _⟩ := tallied.holds sessionId session found isOpen
      have present := (owned_eq_some owned).1
      rw [isIt, absent] at present
      cases present
    have none_ := tallied.unqueued id absent
    simp [none_, isOther]

theorem record {row new : OutboxRow} (found : system.sessions.find? sessionId = some session)
    (isOpen : session.isOpen = true) (owned : system.owned session = some row)
    (records : Records session row new) :
    Tallied { system with
      outbox := system.outbox.put session.alertId new
      sessions := system.sessions.put sessionId { session with stage := .recorded } } := by
  have rows : system.outbox.Written (system.outbox.put session.alertId new) session.alertId new :=
    .put _ _ _
  have sessions : system.sessions.Written (system.sessions.put sessionId
      { session with stage := .recorded }) sessionId { session with stage := .recorded } :=
    .put _ _ _
  obtain ⟨present, isPending, -⟩ := owned_eq_some owned
  obtain ⟨again, ownedAgain, read⟩ := tallied.holds sessionId session found isOpen
  obtain rfl := Option.some.inj (owned.symm.trans ownedAgain)
  have attempts : new.attempts = row.attempts + 1 := by
    rcases records.attempts with same | same <;> omega
  have below := (tallied.limited _ row present).2 isPending
  -- An attempt that is still open afterwards is at another row.
  have elsewhere : ∀ {otherId other}, system.sessions.find? otherId = some other →
      otherId ≠ sessionId → other.isOpen = true → other.alertId ≠ session.alertId := by
    intro otherId other earlier distinct otherOpen same
    exact distinct (tallied.alone otherId other sessionId session earlier found otherOpen isOpen same)
  constructor
  case exclusive =>
    intro id later stored
    obtain ⟨rfl, rfl⟩ | ⟨_, earlier⟩ := rows.found stored
    · exact records.exclusive
    · exact tallied.exclusive id later earlier
  case released =>
    intro id later stored ended
    obtain ⟨rfl, rfl⟩ | ⟨_, earlier⟩ := rows.found stored
    · exact records.released
    · exact tallied.released id later earlier ended
  case limited =>
    intro id later stored
    obtain ⟨rfl, rfl⟩ | ⟨_, earlier⟩ := rows.found stored
    · refine ⟨by omega, fun stillPending => ?_⟩
      rcases records.ended with ended | ⟨same, left⟩
      · rw [ended] at stillPending
        cases stillPending
      · omega
    · exact tallied.limited id later earlier
  case holds =>
    intro otherId other stored otherOpen
    obtain ⟨rfl, rfl⟩ | ⟨distinct, earlier⟩ := sessions.found stored
    · cases otherOpen
    · obtain ⟨held, ownedOther, same⟩ := tallied.holds otherId other earlier otherOpen
      refine ⟨held, ?_, same⟩
      simpa only [System.owned, rows.other (elsewhere earlier distinct otherOpen)] using ownedOther
  case alone =>
    intro firstId first otherId other storedFirst storedOther firstOpen otherOpen same
    obtain ⟨rfl, rfl⟩ | ⟨_, earlierFirst⟩ := sessions.found storedFirst
    · cases firstOpen
    · obtain ⟨rfl, rfl⟩ | ⟨_, earlierOther⟩ := sessions.found storedOther
      · cases otherOpen
      · exact tallied.alone firstId first otherId other earlierFirst earlierOther firstOpen
          otherOpen same
  case counted =>
    intro id later stored
    obtain ⟨rfl, rfl⟩ | ⟨isOther, earlier⟩ := rows.found stored
    · have before := (tallied.counted _ row present).1
      change system.sent.count session.alertId ≤ later.attempts + 1 ∧ _
      exact ⟨by omega, fun _ => by change system.sent.count session.alertId ≤ _; omega⟩
    · have before := tallied.counted id later earlier
      refine ⟨before.1, fun noneSent => before.2 ?_⟩
      intro otherId other earlierOther ofAlert otherOpen
      have distinct : otherId ≠ sessionId := by
        rintro rfl
        obtain rfl := Option.some.inj (earlierOther.symm.trans found)
        exact isOther ofAlert.symm
      exact noneSent otherId other ((sessions.other distinct).trans earlierOther) ofAlert otherOpen
  case unqueued =>
    intro id absent
    apply tallied.unqueued
    by_cases isIt : id = session.alertId
    · rw [isIt, rows.self] at absent
      cases absent
    · rwa [rows.other isIt] at absent

end Tallied

/-- Steps of which each claim finds its row released keep the tally. -/
theorem Tallied.step (tallied : Tallied system) (stepped : Stepped system label next)
    (releases : ClaimsReleased ⟨system, label, next⟩) : Tallied next := by
  cases stepped with
  | queue row free fresh unleased isPending => exact tallied.queue free fresh unleased isPending
  | claim row lease unused found due owner =>
    subst owner
    exact tallied.claim unused found due (releases row found)
  | deliver session found stage => exact tallied.deliver found stage
  | record session row new found isOpen owned records =>
    exact tallied.record found isOpen owned records
  | lost session found isOpen owned =>
    obtain ⟨row, holds, _⟩ := tallied.holds _ session found isOpen
    rw [owned] at holds
    cases holds

/-- A row that has ended stays as it ended. -/
theorem ended_step (stepped : Stepped system label next) {id : Uuid}
    (found : system.outbox.find? id = some row) (ended : row.pending = false) :
    next.outbox.find? id = some row := by
  cases stepped with
  | @queue alertId now other free fresh unleased isPending =>
    have distinct : id ≠ alertId := by
      rintro rfl
      rw [free] at found
      cases found
    exact (Table.find?_put_ne _ _ distinct).trans found
  | @claim sessionId workerId leaseSeconds alertId now other lease unused present due owner =>
    have distinct : id ≠ alertId := by
      rintro rfl
      obtain rfl := Option.some.inj (found.symm.trans present)
      simp [OutboxRow.isDue, ended] at due
    exact (Table.find?_put_ne _ _ distinct).trans found
  | deliver | lost => exact found
  | record session other new stored isOpen owned records =>
    have distinct : id ≠ session.alertId := by
      rintro rfl
      obtain ⟨present, isPending, -⟩ := owned_eq_some owned
      obtain rfl := Option.some.inj (found.symm.trans present)
      rw [ended] at isPending
      cases isPending
    exact (Table.find?_put_ne _ _ distinct).trans found

end Steps

/-- While every claim finds its row released, a notification is never both delivered and
abandoned, stays as it ended, has ended once its attempts are used up, and is requested no more
often than it may be attempted. -/
theorem alert_delivery_bounded (history : List (Transition System Label)) (system : System)
    (runs : machine.Runs history system)
    (releases : ∀ transition ∈ history, ClaimsReleased transition) :
    (∀ id row, system.outbox.find? id = some row →
      (row.deliveredAt = none ∨ row.deadLetteredAt = none) ∧
        (maxDeliveryAttempts ≤ row.attempts → row.pending = false)) ∧
    (∀ earlier transition later, history = earlier ++ transition :: later →
      ∀ id row, transition.before.outbox.find? id = some row → row.pending = false →
        system.outbox.find? id = some row) ∧
    ∀ id, system.sent.count id ≤ maxDeliveryAttempts := by
  have tallied : Tallied system :=
    runs.invariantWhile Tallied ClaimsReleased (fun _ => .of_opening)
      (fun _ _ _ tallied step releases => tallied.step (stepped_of_run step) releases) releases
  refine ⟨?_, ?_, ?_⟩
  · intro id row found
    refine ⟨tallied.exclusive id row found, fun used => ?_⟩
    by_contra isPending
    have below := (tallied.limited id row found).2 (Bool.of_not_eq_false isPending)
    omega
  · intro earlier transition later splits id row found ended
    obtain ⟨-, step, since⟩ := runs.split splits
    exact since.invariant (fun system => system.outbox.find? id = some row)
      (fun _ _ _ holds step => ended_step (stepped_of_run step) holds ended)
      (ended_step (stepped_of_run step) found ended)
  · intro id
    cases found : system.outbox.find? id with
    | none => simp [tallied.unqueued id found]
    | some row =>
      have limited := tallied.limited id row found
      have counted := tallied.counted id row found
      cases isPending : row.pending with
      | true =>
        have below := limited.2 isPending
        omega
      | false =>
        have unleased := tallied.released id row found isPending
        have none_ : NoneSent system id := by
          intro sessionId session stored ofAlert isOpen
          rw [tallied.none_open found unleased stored ofAlert] at isOpen
          cases isOpen
        exact (counted.2 none_).trans limited.1

/-- Whether a claim finds its row released, decided. -/
def claimsReleased (transition : Transition System Label) : Bool :=
  match transition.label with
  | .claim _ _ _ alertId _ =>
    (transition.before.outbox.find? alertId).all fun row => row.lease.isNone
  | .queue _ _ | .deliver _ _ | .record _ _ _ => true

theorem of_claimsReleased {transition : Transition System Label}
    (releases : claimsReleased transition = true) : ClaimsReleased transition := by
  unfold ClaimsReleased
  unfold claimsReleased at releases
  split
  · rename_i sessionId workerId leaseSeconds alertId now isClaim
    simp only [isClaim, Option.all_eq_true] at releases
    intro row found
    simpa using releases row found
  · trivial
  · trivial
  · trivial

/-- One attempt at alert 5, whose request is answered and recorded. -/
def attempt (sessionId : Nat) (reply : Reply) (now : Instant) : List Label := [
  .claim sessionId "worker" 30 5 now,
  .deliver sessionId reply,
  .record sessionId 0 (now + 1)]

/-- One attempt at alert 5 whose worker dies once the request is sent. -/
def dyingAttempt (sessionId : Nat) (now : Instant) : List Label := [
  .claim sessionId "worker" 30 5 now,
  .deliver sessionId .timeout]

/-- No alert has been raised yet. -/
def quiet : System := ⟨.empty, .empty, []⟩

/-- The bounds apply to an alert that is delivered after one timeout. -/
theorem alert_delivery_bounded_delivered :
    ∃ history system row, machine.Runs history system ∧
      system.outbox.find? 5 = some row ∧ row.deliveredAt ≠ none ∧ row.deadLetteredAt = none ∧
      system.sent.count 5 ≤ maxDeliveryAttempts := by
  obtain ⟨history, system, runs, checked⟩ := Machine.exists_run_of_trace Opening
    (fun system label => System.run system label)
    (.queue 5 0 :: attempt 0 .timeout 10 ++ attempt 1 (.response 204 0) 20) quiet
    (fun history system => history.all claimsReleased &&
      (system.outbox.find? 5).any fun row => row.deliveredAt.isSome) ⟨rfl, rfl, rfl⟩
    (by decide +kernel)
  simp only [Bool.and_eq_true, List.all_eq_true, Option.any_eq_true] at checked
  obtain ⟨releases, row, found, delivered⟩ := checked
  have bounded := alert_delivery_bounded history system runs
    fun transition member => of_claimsReleased (releases transition member)
  have isDelivered : row.deliveredAt ≠ none := Option.isSome_iff_ne_none.mp delivered
  exact ⟨history, system, row, runs, found, isDelivered,
    ((bounded.1 5 row found).1).resolve_left isDelivered, bounded.2.2 5⟩

/-- Every worker dies after its request, and a sixth request is sent. -/
theorem dying_notifiers_exceed_limit :
    ¬ ∀ (history : List (Transition System Label)) (system : System),
        machine.Runs history system → ∀ id, system.sent.count id ≤ maxDeliveryAttempts := by
  intro bounded
  obtain ⟨history, system, runs, checked⟩ := Machine.exists_run_of_trace Opening
    (fun system label => System.run system label)
    (.queue 5 0 :: dyingAttempt 0 100000000 ++ dyingAttempt 1 200000000 ++
      dyingAttempt 2 300000000 ++ dyingAttempt 3 400000000 ++ dyingAttempt 4 500000000 ++
      dyingAttempt 5 600000000) quiet
    (fun _ system => system.sent.count 5 = 6) ⟨rfl, rfl, rfl⟩ (by decide +kernel)
  rw [decide_eq_true_eq] at checked
  have within := bounded history system runs 5
  rw [checked] at within
  exact absurd within (by decide)

end Nexora.Spend.Delivery
