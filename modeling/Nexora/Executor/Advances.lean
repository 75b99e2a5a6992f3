import Nexora.Executor.Runs

/-!
# What a step does to a loop

A loop that is there after a step was there before it, was begun by it, or took it. What a loop's
own step leaves of the loop and of the journal is said once here, and so are the two steps by
which a run comes to succeed: its executor returns, and its attempt is finished.
-/

namespace Nexora.Executor

open Nexora.Std Nexora.Tools Json

/-- A step of a worker's own executor. -/
def Label.isOwn (workerId : String) : Label → Bool
  | .begin other _ | .loop other _ | .fail other _ => other = workerId
  | .platform _ => false

/-- A run's journal holds a step with the usage of a response. -/
def Recorded (jsonb : Json → Json) (store : Run.Store) (runId : Uuid) (stepNo : Nat)
    (response : ProviderResponse) : Prop :=
  ∃ written, Journalled jsonb store runId stepNo written ∧ written.usage = response.usage

/-- A loop's own step, by what it leaves of the loop. -/
inductive Advances (deployment : Deployment) (before after : Run.Store)
    (context : Run.ExecutionContext) (attempt : Attempt) : Move → Attempt → Prop where
  | retrieved {evidence next} (at_ : attempt.place = .retrieving)
      (ok : attempt.retrieved deployment evidence = .ok next) :
      Advances deployment before after context attempt (.retrieved evidence) next
  | check {clock next} (at_ : attempt.place = .looping)
      (ok : attempt.check before context clock = .ok next) :
      Advances deployment before after context attempt (.check clock) next
  | load {health clock next} (at_ : attempt.place = .checked)
      (ok : attempt.load deployment before context health clock = .ok next) :
      Advances deployment before after context attempt (.load health clock) next
  | missed {decision lookup later nearest clock now}
      (at_ : attempt.place = .routed decision (lookup :: later)) :
      Advances deployment before after context attempt (.lookUp nearest clock now)
        { attempt with place := .routed decision later }
  | restored {decision lookup later nearest clock now response}
      (at_ : attempt.place = .routed decision (lookup :: later))
      (recorded : Recorded deployment.platform.jsonb after context.runId attempt.stepNo response) :
      Advances deployment before after context attempt (.lookUp nearest clock now)
        { attempt with place := .responded response }
  | skip {decision} (at_ : attempt.place = .routed decision [.semantic]) :
      Advances deployment before after context attempt .skip
        { attempt with place := .routed decision [] }
  | receive {decision response next} (at_ : attempt.place = .routed decision [])
      (ok : attempt.receive deployment decision response = .ok next) :
      Advances deployment before after context attempt (.receive response) next
  | save {decision response cost clock now} (at_ : attempt.place = .answered decision response)
      (recorded : Recorded deployment.platform.jsonb after context.runId attempt.stepNo response) :
      Advances deployment before after context attempt (.save cost clock now)
        { attempt with place := .responded response }
  | judge {response next} (at_ : attempt.place = .responded response)
      (ok : attempt.judge deployment response = .ok next) :
      Advances deployment before after context attempt .judge next
  | permit {index call rest clock next} (at_ : attempt.place = .calling index (call :: rest))
      (ok : attempt.permit index call rest before context clock = .ok next) :
      Advances deployment before after context attempt (.permit clock) next
  | invoke {index call rest callId approvalId clock now}
      (at_ : attempt.place = .permitted index (call :: rest)) :
      Advances deployment before after context attempt (.invoke callId approvalId clock now)
        { attempt with place := .invoking index (call :: rest) }
  | resume {index call rest result} (at_ : attempt.place = .invoking index (call :: rest)) :
      Advances deployment before after context attempt (.resume result)
        (attempt.resume deployment index call rest result)

/-- Where a loop that is there after a step comes from. -/
inductive ComesFrom (deployment : Deployment) (system next : System) (label : Label)
    (workerId : String) (attempt : Attempt) : Prop where
  | kept (found : system.attempts.find? workerId = some attempt)
      (other : label.isOwn workerId = false)
      (stays : ∀ session, system.platform.sessions.find? workerId = some session →
        ∃ after, next.platform.sessions.find? workerId = some after ∧
          after.context = session.context)
  | begun {clock session} (isBegin : label = .begin workerId clock)
      (held : next.platform.sessions.find? workerId = some session)
      (ok : begin deployment system.platform.store session.context clock = .ok attempt)
  | advanced {move session after earlier} (isMove : label = .loop workerId move)
      (found : system.attempts.find? workerId = some earlier)
      (held : system.platform.sessions.find? workerId = some session)
      (stays : next.platform.sessions.find? workerId = some after)
      (same : after.context = session.context)
      (advances : Advances deployment system.platform.store next.platform.store session.context
        earlier move attempt)

/-- The executor of a worker returns: its loop takes a response for the run's answer. -/
structure Returns (deployment : Deployment) (system : System) (label : Label) (workerId : String)
    (runId : Uuid) (attempt : Attempt) (response : ProviderResponse) : Prop where
  isJudge : label = .loop workerId .judge
  holds : ∃ session, system.platform.sessions.find? workerId = some session ∧
    session.context.runId = runId
  found : system.attempts.find? workerId = some attempt
  place : attempt.place = .responded response
  judged : attempt.judge deployment response = .error .succeeded

/-- What a step does to the loops, to the executors that have returned and to the runs that have
succeeded. -/
structure Effect (deployment : Deployment) (system next : System) (label : Label) : Prop where
  grows : Extends system.platform.store next.platform.store
  loops : ∀ workerId attempt, next.attempts.find? workerId = some attempt →
    ComesFrom deployment system next label workerId attempt
  returned : ∀ workerId session, next.platform.sessions.find? workerId = some session →
    session.stage = .returned →
      (∃ earlier, system.platform.sessions.find? workerId = some earlier ∧
        earlier.context = session.context ∧ earlier.stage = .returned) ∨
      ∃ attempt response, Returns deployment system label workerId session.context.runId attempt
        response
  succeeded : ∀ runId run, next.platform.store.agentRuns.find? runId = some run →
    run.status = .succeeded →
      (∃ earlier, system.platform.store.agentRuns.find? runId = some earlier ∧
        earlier.status = .succeeded) ∨
      ∃ workerId session, system.platform.sessions.find? workerId = some session ∧
        session.stage = .returned ∧ session.job.runId = runId

section Acting

variable {deployment : Deployment} {system next : System} {label : Label} {workerId : String}
  {session : Run.Session} {move : Move} {result : Except Outcome Attempt}
  {attempts : Table String Attempt} {store : Run.Store} {earlier : Attempt}

/-- A step that changes the session of one worker at most, and lets no run succeed. -/
theorem Effect.after {stage : Run.Stage}
    (held : system.platform.sessions.find? workerId = some session)
    (grows : Extends system.platform.store store)
    (returned : stage = .returned → session.stage = .returned ∨
      ∃ attempt response, Returns deployment system label workerId session.context.runId attempt
        response)
    (succeeded : ∀ runId run, store.agentRuns.find? runId = some run → run.status = .succeeded →
      ∃ earlier, system.platform.store.agentRuns.find? runId = some earlier ∧
        earlier.status = .succeeded)
    (loops : ∀ other attempt, attempts.find? other = some attempt →
      (system.attempts.find? other = some attempt ∧ label.isOwn other = false) ∨
        other = workerId ∧
          ((∃ clock, label = .begin workerId clock ∧
            begin deployment system.platform.store session.context clock = .ok attempt) ∨
          ∃ move earlier, label = .loop workerId move ∧
            system.attempts.find? workerId = some earlier ∧
            Advances deployment system.platform.store store session.context earlier move
              attempt)) :
    Effect deployment system ⟨⟨store, system.platform.sessions.put workerId (session.at stage)⟩,
      attempts⟩ label := by
  refine ⟨grows, ?_, ?_, ?_⟩
  · intro other attempt found
    have stays : (system.platform.sessions.put workerId (session.at stage)).find? workerId =
        some (session.at stage) := Table.find?_put _ _ _
    rcases loops other attempt found with ⟨before, notOwn⟩ | ⟨rfl, began | moved⟩
    · exact .kept before notOwn fun stood present => sessions_kept held present
    · obtain ⟨clock, isBegin, ok⟩ := began
      exact .begun isBegin stays ok
    · obtain ⟨move, earlier, isMove, stood, advances⟩ := moved
      exact .advanced isMove stood held stays rfl advances
  · intro other after found ended
    obtain ⟨before, stood, context, _, same | ⟨rfl, same, rfl⟩⟩ := sessions_put held found
    · exact .inl ⟨before, stood, context.symm, same ▸ ended⟩
    · rw [context]
      exact (returned (same ▸ ended)).imp (fun already => ⟨before, stood, rfl, already⟩) id
  · intro runId run found ended
    exact .inl (succeeded runId run found ended)

/-- An action that journals nothing. -/
theorem Effect.acted {platform : Run.System} {action : Run.Action}
    (held : system.platform.sessions.find? workerId = some session)
    (ok : system.act deployment workerId action = .ok platform) (silent : action.journals = false)
    (returned : action = .executorReturns →
      ∃ attempt response, Returns deployment system label workerId session.context.runId attempt
        response)
    (loops : ∀ store, ∀ other attempt, attempts.find? other = some attempt →
      (system.attempts.find? other = some attempt ∧ label.isOwn other = false) ∨
        other = workerId ∧
          ((∃ clock, label = .begin workerId clock ∧
            begin deployment system.platform.store session.context clock = .ok attempt) ∨
          ∃ move earlier, label = .loop workerId move ∧
            system.attempts.find? workerId = some earlier ∧
            Advances deployment system.platform.store store session.context earlier move
              attempt)) :
    Effect deployment system ⟨platform, attempts⟩ label := by
  obtain ⟨store, stage, done, rfl⟩ := System.act_eq_ok held ok
  have unanswered : system.platform.store.Unanswered (fun _ => False) store :=
    Run.Action.run_unanswered done silent
  apply Effect.after held (.of_eq unanswered.modelSteps) ?_ ?_ (loops store)
  · rintro rfl
    rcases Run.Action.run_returned done with returns | already
    · exact .inr (returned returns)
    · exact .inl already
  · intro runId run found ended
    exact (unanswered.succeeded runId run found ended).resolve_left id

/-- A loop that writes goes on where the write was journalled, and is gone where it raised. -/
theorem Effect.wrote {entry : Run.Write} {attempt : Attempt} (isMove : label = .loop workerId move)
    (stood : system.attempts.find? workerId = some earlier)
    (held : system.platform.sessions.find? workerId = some session)
    (ok : system.goOn deployment workerId (.write entry) attempt = .ok next)
    (journals : ∀ store, entry.run deployment.platform system.platform.store session.context =
      .ok store → store.agentRuns = system.platform.store.agentRuns ∧
        Extends system.platform.store store ∧
        Advances deployment system.platform.store store session.context earlier move attempt) :
    Effect deployment system next label := by
  simp only [System.goOn, bind_eq_ok, pure_eq_ok] at ok
  obtain ⟨platform, done, rfl⟩ := ok
  rcases act_write_eq_ok held done with ⟨store, wrote, rfl⟩ | ⟨error, rfl⟩
  · obtain ⟨runs, grows, advances⟩ := journals store wrote
    simp only [Table.find?_put, Option.map_some, Run.Session.at]
    apply Effect.after held grows (by simp)
    · intro runId run found ended
      exact ⟨run, runs ▸ found, ended⟩
    · intro other after found
      rw [Table.find?_put_eq] at found
      split at found
      case isTrue same =>
        cases found
        exact .inr ⟨same, .inr ⟨move, earlier, isMove, stood, advances⟩⟩
      case isFalse distinct =>
        refine .inl ⟨found, ?_⟩
        rw [isMove]
        exact decide_eq_false fun same => distinct same.symm
  · simp only [Table.find?_put, Option.map_some, Run.Session.at]
    apply Effect.after held (.refl _) (by simp)
    · intro runId run found ended
      exact ⟨run, found, ended⟩
    · intro other after found
      obtain ⟨distinct, before⟩ := Table.of_find?_erase found
      refine .inl ⟨before, ?_⟩
      rw [isMove]
      exact decide_eq_false fun same => distinct same.symm

/-- A loop that goes on without a transaction, or whose executor ends. -/
theorem Effect.proceed (isOwn : ∀ other, other ≠ workerId → label.isOwn other = false)
    (held : system.platform.sessions.find? workerId = some session)
    (ok : system.proceed deployment workerId result = .ok next)
    (loops : ∀ attempt, result = .ok attempt →
      (∃ clock, label = .begin workerId clock ∧
        begin deployment system.platform.store session.context clock = .ok attempt) ∨
      ∃ move earlier, label = .loop workerId move ∧ system.attempts.find? workerId = some earlier ∧
        Advances deployment system.platform.store system.platform.store session.context earlier
          move attempt)
    (returned : result = .error .succeeded →
      ∃ attempt response, Returns deployment system label workerId session.context.runId attempt
        response) :
    Effect deployment system next label := by
  cases result with
  | ok attempt =>
    simp only [System.proceed, pure_eq_ok] at ok
    subst ok
    refine ⟨.refl _, ?_, fun other after found ended => .inl ⟨after, found, rfl, ended⟩,
      fun runId run found ended => .inl ⟨run, found, ended⟩⟩
    intro other after found
    rw [Table.find?_put_eq] at found
    split at found
    case isTrue same =>
      cases found
      subst same
      rcases loops attempt rfl with ⟨clock, isBegin, began⟩ | ⟨move, earlier, isMove, stood, advances⟩
      · exact .begun isBegin held began
      · exact .advanced isMove stood held held rfl advances
    case isFalse distinct =>
      exact .kept found (isOwn other distinct)
        fun stood present => ⟨stood, present, rfl⟩
  | error outcome =>
    simp only [System.proceed, bind_eq_ok, pure_eq_ok] at ok
    obtain ⟨platform, done, rfl⟩ := ok
    apply Effect.acted held done
    · cases outcome <;> rfl
    · intro returns
      cases outcome with
      | succeeded => exact returned rfl
      | _ => cases returns
    · intro _ other after found
      obtain ⟨distinct, before⟩ := Table.of_find?_erase found
      exact .inl ⟨before, isOwn other fun same => distinct same⟩

/-- A loop's own step is no other worker's. -/
theorem loop_isOwn (isMove : label = .loop workerId move) (other : String)
    (distinct : other ≠ workerId) : label.isOwn other = false := by
  rw [isMove]
  exact decide_eq_false fun same => distinct same.symm

/-- A check of a loop lets it go on or ends its executor. -/
theorem Effect.checked (isMove : label = .loop workerId move)
    (stood : system.attempts.find? workerId = some earlier)
    (held : system.platform.sessions.find? workerId = some session) (checks : Checks result)
    (ok : system.proceed deployment workerId result = .ok next)
    (advances : ∀ attempt, result = .ok attempt →
      Advances deployment system.platform.store system.platform.store session.context earlier move
        attempt) : Effect deployment system next label :=
  Effect.proceed (loop_isOwn isMove) held ok
    (fun attempt same => .inr ⟨move, earlier, isMove, stood, advances attempt same⟩)
    fun returned => absurd rfl (checks _ returned)

variable {attempt : Attempt} {decision : RoutingDecision} {clock now : Instant}
  {context : Run.ExecutionContext} {after : Run.Store} {lookup : Lookup} {later : List Lookup}
  {nearest : String}

/-- A loop that saves its response has it in the journal. -/
theorem Advances.saved {response : ProviderResponse} {cost : Option Run.SpendRecord}
    (at_ : attempt.place = .answered decision response)
    (ok : store.save deployment.platform context attempt.stepNo (savedStep decision response) cost
      (attempt.cachedAnswer deployment context decision response now) clock = .ok after) :
    after.agentRuns = store.agentRuns ∧ Extends store after ∧
      Advances deployment store after context attempt (.save cost clock now)
        { attempt with place := .responded response } := by
  obtain ⟨absent, steps, runs, _⟩ := Run.Store.save_eq_ok ok
  refine ⟨runs, .inserted absent steps, .save at_ ⟨response,
    ⟨{ savedStep decision response with
        response := deployment.platform.jsonb response.asDict }, ?_, rfl⟩, rfl⟩⟩
  rw [steps, Table.find?_put]
  rfl

/-- A loop that looks into the cache goes on looking, or has the answer it found in the
journal. -/
theorem Advances.lookedUp {cacheKey reason : String} (keeps : KeepsValues deployment.platform.jsonb)
    (chained : Chained deployment.platform.jsonb store)
    (at_ : attempt.place = .routed decision (lookup :: later))
    (ok : store.restoreAnswer context attempt.stepNo (spellText decision.candidate.provider)
      (spellText decision.candidate.model) cacheKey reason clock now = .ok after) {place : Place}
    (goesTo : GoesTo store context decision cacheKey now later place) :
    after.agentRuns = store.agentRuns ∧ Extends store after ∧
      Advances deployment store after context attempt (.lookUp nearest clock now)
        { attempt with place := place } := by
  obtain ⟨runs, _, ⟨missing, steps⟩ | ⟨answer, there, absent, row, restored, steps⟩⟩ :=
    Run.Store.restoreAnswer_eq_ok ok
  · rcases goesTo with ⟨_, rfl⟩ | ⟨answer, _, there, _⟩
    · exact ⟨runs, .of_eq steps, .missed at_⟩
    · rw [missing] at there
      cases there
  · rcases goesTo with ⟨missing, _⟩ | ⟨other, response, also, decoded, rfl⟩
    · rw [missing] at there
      cases there
    · rw [also] at there
      cases there
      obtain ⟨written, holds, _⟩ := chained.cached _ answer (Option.filter_eq_some_iff.mp also).1
      rw [holds, keeps.decodeResponse_asDict] at decoded
      cases decoded
      refine ⟨runs, .inserted absent steps, .restored at_ ⟨written, ⟨row, ?_, restored.trans holds⟩,
        rfl⟩⟩
      rw [steps, Table.find?_put]

/-- The effect of a lookup in the cache. -/
theorem Effect.lookUp (keeps : KeepsValues deployment.platform.jsonb)
    (chained : Chained deployment.platform.jsonb system.platform.store)
    (isMove : label = .loop workerId (.lookUp nearest clock now))
    (stood : system.attempts.find? workerId = some attempt)
    (held : system.platform.sessions.find? workerId = some session)
    (at_ : attempt.place = .routed decision (lookup :: later))
    (ok : system.lookUp deployment workerId attempt decision later
      (system.lookUpEntry deployment session attempt decision lookup nearest clock now) =
        .ok next) : Effect deployment system next label := by
  cases System.lookUp_effect ok with
  | fails failed done => exact Effect.checked isMove stood held (.error failed) done (by simp)
  | writes entryIs goesTo done =>
    refine Effect.wrote isMove stood held done fun store ok => ?_
    rw [entryIs] at ok
    exact Advances.lookedUp keeps chained at_ ok goesTo

/-- The effect of a loop's own step. -/
theorem Effect.moved (keeps : KeepsValues deployment.platform.jsonb)
    (chained : Chained deployment.platform.jsonb system.platform.store)
    (isMove : label = .loop workerId move) (stood : system.attempts.find? workerId = some attempt)
    (held : system.platform.sessions.find? workerId = some session)
    (ok : system.moved deployment workerId session attempt attempt.place move = .ok next) :
    Effect deployment system next label := by
  generalize at_ : attempt.place = place at ok
  unfold System.moved at ok
  split at ok
  case h_1 evidence =>
    exact Effect.checked isMove stood held (retrieved_checks _ _) ok fun _ => .retrieved at_
  case h_2 clock =>
    exact Effect.checked isMove stood held (check_checks _ _) ok fun _ => .check at_
  case h_3 health clock =>
    exact Effect.checked isMove stood held (load_checks _ _ _) ok fun _ => .load at_
  case h_4 decision lookup later nearest clock now =>
    exact Effect.lookUp keeps chained isMove stood held at_ ok
  case h_5 decision =>
    refine Effect.checked isMove stood held (.ok _) ok fun _ same => ?_
    cases same
    exact .skip at_
  case h_6 decision response =>
    exact Effect.checked isMove stood held (receive_checks _ _ _) ok fun _ => .receive at_
  case h_7 decision response cost clock now =>
    exact Effect.wrote isMove stood held ok fun _ => Advances.saved at_
  case h_8 response =>
    apply Effect.proceed (loop_isOwn isMove) held ok
    · exact fun next same => .inr ⟨_, attempt, isMove, stood, .judge at_ same⟩
    · exact fun ended => ⟨attempt, response, isMove, ⟨session, held, rfl⟩, stood, at_, ended⟩
  case h_9 index call rest clock =>
    exact Effect.checked isMove stood held (permit_checks _ _ _ _ _) ok fun _ => .permit at_
  case h_10 index call rest callId approvalId clock now =>
    simp only [System.goOn, bind_eq_ok, pure_eq_ok] at ok
    obtain ⟨platform, done, rfl⟩ := ok
    refine Effect.acted held done rfl (by simp) fun store other after found => ?_
    split at found
    · obtain ⟨distinct, before⟩ := Table.of_find?_erase found
      exact .inl ⟨before, loop_isOwn isMove other distinct⟩
    · rw [Table.find?_put_eq] at found
      split at found
      case isTrue same =>
        cases found
        exact .inr ⟨same, .inr ⟨_, attempt, isMove, stood, .invoke at_⟩⟩
      case isFalse distinct => exact .inl ⟨found, loop_isOwn isMove other distinct⟩
  case h_11 index call rest result =>
    refine Effect.checked isMove stood held (.ok _) ok fun _ same => ?_
    cases same
    exact .resume at_
  case h_12 => cases ok

end Acting

section Steps

variable {deployment : Deployment} {system next : System}

/-- The effect of a step of the platform that no loop makes: some loops end, and an attempt that
has returned may be finished. -/
theorem Effect.platform {label : Run.Label} (ok : system.run deployment (.platform label) = .ok next) :
    Effect deployment system next (.platform label) := by
  rcases System.run_platform ok with
    ⟨workerId, action, session, platform, held, done, silent, stays, rfl⟩ | bystanding
  · exact Effect.acted held done silent (fun returns => absurd returns stays)
      fun _ _ _ found => .inl ⟨found, rfl⟩
  refine ⟨.of_eq bystanding.unanswered.modelSteps, ?_, ?_, ?_⟩
  · intro other attempt found
    obtain ⟨before, same⟩ := bystanding.attempts other attempt found
    exact .kept before rfl fun session held => ⟨session, same.trans held, rfl⟩
  · intro other session found ended
    rcases bystanding.sessions other session found with before | ⟨_, open_⟩
    · exact .inl ⟨session, before, rfl, ended⟩
    · exact absurd ended open_
  · exact fun runId run found ended =>
      (bystanding.unanswered.succeeded runId run found ended).symm

/-- The effect of a step. -/
theorem Effect.of_run {label : Label} (keeps : KeepsValues deployment.platform.jsonb)
    (chained : Chained deployment.platform.jsonb system.platform.store)
    (ok : system.run deployment label = .ok next) : Effect deployment system next label := by
  cases label with
  | platform label => exact Effect.platform ok
  | begin workerId clock =>
    simp only [System.run, bind_eq_ok, orRaise_eq_ok, raiseIf_eq_ok, exists_and_left,
      exists_const, System.executing, Option.filter_eq_some_iff] at ok
    obtain ⟨session, ⟨held, _⟩, _, ok⟩ := ok
    apply Effect.proceed ?_ held ok
    · exact fun attempt same => .inl ⟨clock, rfl, same⟩
    · exact fun returned => absurd rfl (begin_checks clock _ returned)
    · exact fun other distinct => decide_eq_false fun same => distinct same.symm
  | loop workerId move =>
    simp only [System.run, bind_eq_ok, orRaise_eq_ok, System.executing,
      Option.filter_eq_some_iff] at ok
    obtain ⟨session, ⟨held, _⟩, attempt, found, ok⟩ := ok
    exact Effect.moved keeps chained rfl found held ok
  | fail workerId outcome =>
    simp only [System.run, bind_eq_ok, orRaise_eq_ok, raiseIf_eq_ok, exists_and_left,
      exists_const, System.executing, Option.filter_eq_some_iff] at ok
    obtain ⟨session, ⟨held, _⟩, failed, ok⟩ := ok
    apply Effect.proceed ?_ held ok (by simp)
    · intro same
      cases same
      exact absurd rfl failed
    · exact fun other distinct => decide_eq_false fun same => distinct same.symm

end Steps

end Nexora.Executor
