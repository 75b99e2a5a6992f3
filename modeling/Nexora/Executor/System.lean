import Nexora.Executor.Loop

/-!
# Executors on the run platform

The run platform with the loop of every attempt in place of an executor that may do anything.
A step is a step of the platform that is not the loop's, or one transaction of a loop with the
computation around it.
-/

namespace Nexora.Executor

open Nexora.Std Nexora.Tools Json

/-- The platform's state and the loops of the attempts that are past their first transaction. -/
structure System where
  platform : Run.System
  attempts : Table String Attempt

/-- A step of a loop, with what it draws from outside: times, identifiers, and what the
retriever, the providers and the adapters answer. -/
inductive Move where
  | retrieved (evidence : PyStr)
  | check (clock : Instant)
  | load (health : PyStr → ProviderHealth) (clock : Instant)
  /-- The next lookup in the answer cache; `nearest` is what the similarity search finds. -/
  | lookUp (nearest : String) (clock now : Instant)
  /-- The semantic lookup is given up because the question could not be embedded. -/
  | skip
  | receive (response : ProviderResponse)
  | save (cost : Option Run.SpendRecord) (clock now : Instant)
  | judge
  | permit (clock : Instant)
  | invoke (callId approvalId : Uuid) (clock now : Instant)
  | resume (result : Json)

/-- A step of the system. -/
inductive Label where
  | platform (label : Run.Label)
  | begin (workerId : String) (clock : Instant)
  | loop (workerId : String) (move : Move)
  /-- An executor raises where it waits for something outside. -/
  | fail (workerId : String) (outcome : Outcome)

/-- How the platform sees an executor end. -/
def Outcome.action : Outcome → Run.Action
  | .succeeded => .executorReturns
  | .terminal code => .executorRaises (.terminal (py code))
  | .retryable code => .executorRaises (.retryable (py code))
  | .crashed => .executorRaises .other

/-- An action that is not the loop's own step: the heartbeat's, the gateway's, and those around
the retrieval and the embedding of the question. -/
def isBeside (attempt : Option Attempt) : Run.Action → Bool
  | .renewLease _ _ | .stopIfCancelled | .markRunning _ | .settle _ _ | .settleUnavailable _
  | .settleInvalid _ => true
  | .recordEmbeddingSpend _ | .write (.saveRetrieval _ _ _ _ _) =>
    attempt.any fun attempt => attempt.place = .retrieving
  | .write (.recordSemanticCacheEmbedding _ _) =>
    attempt.any fun attempt => attempt.stepNo = 0 && attempt.caches
  | .write _ | .prepareCall _ _ _ _ _ _ _ | .executorReturns | .executorRaises _ => false

/-- A step of the platform that no loop has to make itself. -/
def System.admits (system : System) : Run.Label → Bool
  | .act workerId action => isBeside (system.attempts.find? workerId) action
  | .request _ | .claim _ _ _ _ | .finish _ _ _ _ | .crash _ => true

/-- The loops after a step of the platform: one ends with its attempt. -/
def attemptsAfter (attempts : Table String Attempt) : Run.Label → Table String Attempt
  | .claim workerId _ _ _ | .finish workerId _ _ _ | .crash workerId => attempts.erase workerId
  | .request _ | .act _ _ => attempts

namespace System

variable (system : System) (deployment : Deployment)

/-- A worker's session, while its executor runs. -/
def executing (workerId : String) : Option Run.Session :=
  (system.platform.sessions.find? workerId).filter fun session => session.stage = .executing

/-- An attempt takes an action of the platform. -/
def act (workerId : String) (action : Run.Action) : Except Run.Raised Run.System :=
  Run.System.run deployment.platform system.platform (.act workerId action)

/-- A loop goes on, or its executor ends. -/
def proceed (workerId : String) : Except Outcome Attempt → Except Run.Raised System
  | .ok attempt => pure { system with attempts := system.attempts.put workerId attempt }
  | .error outcome => do
      let platform ← system.act deployment workerId outcome.action
      pure { platform := platform, attempts := system.attempts.erase workerId }

/-- A loop takes an action of the platform and goes on, unless the action raised. -/
def goOn (workerId : String) (action : Run.Action) (attempt : Attempt) :
    Except Run.Raised System := do
  let platform ← system.act deployment workerId action
  pure {
    platform := platform
    attempts := match (platform.sessions.find? workerId).map Run.Session.stage with
      | some (.raised _) => system.attempts.erase workerId
      | _ => system.attempts.put workerId attempt }

/-- A lookup in the cache: its row, if there is one that serves, and the write that restores
it. -/
def lookUpEntry (session : Run.Session) (attempt : Attempt) (decision : RoutingDecision)
    (lookup : Lookup) (nearest : String) (clock now : Instant) : Option Run.CachedAnswer × Run.Write :=
  let provider := spellText decision.candidate.provider
  let model := spellText decision.candidate.model
  let key := match lookup with
    | .exact => attempt.cacheKey deployment session.context decision
    | .semantic => nearest
  let row := system.platform.store.cachedFor session.context provider model key now
  match lookup with
  | .exact => (row, .restoreAnswerCache attempt.stepNo provider model key clock now)
  | .semantic => (row, .restoreSemanticAnswerCache attempt.stepNo provider model key clock now)

/-- The loop after a lookup. -/
def lookUp (workerId : String) (attempt : Attempt)
    (decision : RoutingDecision) (later : List Lookup)
    (entry : Option Run.CachedAnswer × Run.Write) : Except Run.Raised System :=
  match entry.1 with
  | none => system.goOn deployment workerId (.write entry.2)
      { attempt with place := .routed decision later }
  | some answer =>
    match decodeResponse answer.response with
    | none => system.proceed deployment workerId (.error .crashed)
    | some response => system.goOn deployment workerId (.write entry.2)
        { attempt with place := .responded response }

/-- The system after a step of a worker's loop, by where the loop stands. -/
def moved (workerId : String) (session : Run.Session) (attempt : Attempt) :
    Place → Move → Except Run.Raised System
  | .retrieving, .retrieved evidence =>
    system.proceed deployment workerId (attempt.retrieved deployment evidence)
  | .looping, .check clock =>
    system.proceed deployment workerId
      (attempt.check system.platform.store session.context clock)
  | .checked, .load health clock =>
    system.proceed deployment workerId
      (attempt.load deployment system.platform.store session.context health clock)
  | .routed decision (lookup :: later), .lookUp nearest clock now =>
    system.lookUp deployment workerId attempt decision later
      (system.lookUpEntry deployment session attempt decision lookup nearest clock now)
  | .routed decision [.semantic], .skip =>
    system.proceed deployment workerId (.ok { attempt with place := .routed decision [] })
  | .routed decision [], .receive response =>
    system.proceed deployment workerId (attempt.receive deployment decision response)
  | .answered decision response, .save cost clock now =>
    system.goOn deployment workerId
      (.write (.save attempt.stepNo (savedStep decision response) cost
        (attempt.cachedAnswer deployment session.context decision response now) clock))
      { attempt with place := .responded response }
  | .responded response, .judge =>
    system.proceed deployment workerId (attempt.judge deployment response)
  | .calling index (call :: rest), .permit clock =>
    system.proceed deployment workerId
      (attempt.permit index call rest system.platform.store session.context clock)
  | .permitted index (call :: rest), .invoke callId approvalId clock now =>
    system.goOn deployment workerId
      (.prepareCall (stepCallKey attempt.stepNo index) call.name call.arguments callId approvalId
        clock now)
      { attempt with place := .invoking index (call :: rest) }
  | .invoking index (call :: rest), .resume result =>
    system.proceed deployment workerId (.ok (attempt.resume deployment index call rest result))
  | _, _ => .error .database

/-- The system after a step. -/
def run : Label → Except Run.Raised System
  | .platform label => do
      raiseIf (system.admits label = false) .database
      let platform ← Run.System.run deployment.platform system.platform label
      pure { platform := platform, attempts := attemptsAfter system.attempts label }
  | .begin workerId clock => do
      let session ← orRaise (system.executing workerId) .database
      raiseIf ((system.attempts.find? workerId).isSome = true) .database
      system.proceed deployment workerId
        (begin deployment system.platform.store session.context clock)
  | .loop workerId move => do
      let session ← orRaise (system.executing workerId) .database
      let attempt ← orRaise (system.attempts.find? workerId) .database
      system.moved deployment workerId session attempt attempt.place move
  | .fail workerId outcome => do
      let _ ← orRaise (system.executing workerId) .database
      raiseIf (outcome = .succeeded) .database
      system.proceed deployment workerId (.error outcome)

end System

/-- A platform nobody has used yet. -/
structure Opening (system : System) : Prop where
  platform : Run.Opening system.platform
  attempts : system.attempts = .empty

/-- The system under any sequence of steps. -/
def machine (deployment : Deployment) : Machine System Label :=
  .ofFunction Opening fun system label => system.run deployment label

end Nexora.Executor
