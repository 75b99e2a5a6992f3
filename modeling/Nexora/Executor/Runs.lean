import Nexora.Executor.Chain

/-!
# Every step keeps the journal sound

The steps of the platform that no loop makes journal nothing and let a run succeed only at the
end of an attempt that has been answered. A loop's own step leaves the loop standing on the
journal, and extends the journal at the step it stands at.
-/

namespace Nexora.Executor

open Nexora.Std Nexora.Tools Json

variable {response : ProviderResponse}

section Parts

variable {jsonb : Json → Json} {store next : Run.Store} {platform later : Run.System}
  {attempts others : Table String Attempt} {row : Run.ModelStep}

theorem Chained.of_eq (chained : Chained jsonb store) (steps : next.modelSteps = store.modelSteps)
    (cache : next.answerCache = store.answerCache) : Chained jsonb next where
  rows := by rw [steps]; exact chained.rows
  cached := by rw [cache]; exact chained.cached
  previous runId stepNo row found := by
    rw [steps] at found
    exact (chained.previous runId stepNo row found).mono (.of_eq steps)

theorem Extends.inserted {key : Uuid × Nat} (absent : store.modelSteps.find? key = none)
    (steps : next.modelSteps = store.modelSteps.put key row) : Extends store next := by
  intro other held found
  rw [steps, Table.find?_put_ne]
  · exact found
  · rintro rfl
    rw [absent] at found
    cases found

/-- A step that follows on a step with calls extends the chain. -/
theorem Chained.inserted {runId : Uuid} {stepNo : Nat} (chained : Chained jsonb store)
    (absent : store.modelSteps.find? (runId, stepNo) = none)
    (steps : next.modelSteps = store.modelSteps.put (runId, stepNo) row)
    (holds : row.response = jsonb response.asDict) (accepted : response.Accepted)
    (before : stepNo < 32)
    (previous : ∀ earlier, stepNo = earlier + 1 → Continues jsonb store runId earlier)
    (cached : ∀ key answer, next.answerCache.find? key = some answer →
      ∃ response : ProviderResponse, answer.response = jsonb response.asDict ∧
        response.Accepted) : Chained jsonb next where
  rows other otherNo held found := by
    rw [steps, Table.find?_put_eq] at found
    split at found
    case isTrue same =>
      cases found
      cases same
      exact ⟨before, response, holds, accepted⟩
    case isFalse => exact chained.rows other otherNo held found
  cached := cached
  previous other otherNo held found := by
    rw [steps, Table.find?_put_eq] at found
    split at found
    case isTrue same =>
      obtain ⟨rfl, follows⟩ := Prod.mk.inj same
      exact (previous otherNo follows.symm).mono (.inserted absent steps)
    case isFalse =>
      exact (chained.previous other otherNo held found).mono (.inserted absent steps)

theorem Backed.step (backed : Backed jsonb platform) (grows : Extends platform.store later.store)
    (jobs : ∀ workerId session, later.sessions.find? workerId = some session →
      session.context.runId = session.job.runId)
    (returned : ∀ workerId session, later.sessions.find? workerId = some session →
      session.stage = .returned → Answered jsonb later.store session.context.runId)
    (succeeded : ∀ runId run, later.store.agentRuns.find? runId = some run →
      run.status = .succeeded → Answered jsonb platform.store runId ∨
        ∃ earlier, platform.store.agentRuns.find? runId = some earlier ∧
          earlier.status = .succeeded) : Backed jsonb later where
  jobs := jobs
  returned := returned
  succeeded runId run found ended := by
    rcases succeeded runId run found ended with answered | ⟨earlier, stood, ended⟩
    · exact answered.mono grows
    · exact (backed.succeeded runId earlier stood ended).mono grows

theorem LoopsStand.step (loops : LoopsStand jsonb platform attempts)
    (grows : Extends platform.store later.store)
    (stand : ∀ workerId attempt, others.find? workerId = some attempt →
      (attempts.find? workerId = some attempt ∧
        ∀ session, platform.sessions.find? workerId = some session →
          ∃ after, later.sessions.find? workerId = some after ∧
            after.context = session.context) ∨
      ∃ session, later.sessions.find? workerId = some session ∧
        attempt.Stands jsonb later.store session.context.runId) :
    LoopsStand jsonb later others := by
  intro workerId attempt found
  rcases stand workerId attempt found with ⟨before, kept⟩ | stands
  · obtain ⟨session, held, stands⟩ := loops workerId attempt before
    obtain ⟨after, stays, same⟩ := kept session held
    exact ⟨after, stays, same ▸ stands.mono grows⟩
  · exact stands

end Parts

section Acting

variable {deployment : Deployment} {system : System} {platform : Run.System}
  {workerId other : String} {action : Run.Action} {session : Run.Session} {stage : Run.Stage}
  {sessions : Table String Run.Session} {entry : Run.Write}

/-- An action changes the session of its worker only, and only where the attempt stands. -/
theorem System.act_eq_ok (held : system.platform.sessions.find? workerId = some session)
    (ok : system.act deployment workerId action = .ok platform) :
    ∃ store stage, action.run deployment.platform system.platform.store workerId session =
        some (store, stage) ∧
      platform = {
        store := store, sessions := system.platform.sessions.put workerId (session.at stage) } := by
  obtain ⟨other, store, stage, found, done, same⟩ := Run.System.run_act.mp ok
  rw [held] at found
  cases found
  exact ⟨store, stage, done, same⟩

/-- A worker's session after an action of it is for the same job and context. -/
theorem sessions_put (held : sessions.find? workerId = some session) {after : Run.Session}
    (found : (sessions.put workerId (session.at stage)).find? other = some after) :
    ∃ before, sessions.find? other = some before ∧ after.context = before.context ∧
      after.job = before.job ∧ (after.stage = before.stage ∨ other = workerId ∧
        after.stage = stage ∧ before = session) := by
  rw [Table.find?_put_eq] at found
  split at found
  case isTrue same =>
    cases found
    subst same
    exact ⟨session, held, rfl, rfl, .inr ⟨rfl, rfl, rfl⟩⟩
  case isFalse => exact ⟨after, found, rfl, rfl, .inl rfl⟩

theorem sessions_kept (held : sessions.find? workerId = some session) {before : Run.Session}
    (found : sessions.find? other = some before) :
    ∃ after, (sessions.put workerId (session.at stage)).find? other = some after ∧
      after.context = before.context := by
  rw [Table.find?_put_eq]
  split
  case isTrue same =>
    subst same
    rw [held] at found
    cases found
    exact ⟨_, rfl, rfl⟩
  case isFalse => exact ⟨before, found, rfl⟩

/-- What an action of one worker leaves is sound, when the journal it leaves is, an attempt that
is at its end has been answered, no run has succeeded, and the worker's loop, if it is still
there, stands on the journal. -/
theorem Sound.after {store : Run.Store} {attempts : Table String Attempt}
    (sound : Sound deployment system)
    (held : system.platform.sessions.find? workerId = some session)
    (grows : Extends system.platform.store store)
    (chained : Chained deployment.platform.jsonb store)
    (returned : stage = .returned →
      Answered deployment.platform.jsonb store session.context.runId)
    (succeeded : ∀ runId run, store.agentRuns.find? runId = some run → run.status = .succeeded →
      ∃ earlier, system.platform.store.agentRuns.find? runId = some earlier ∧
        earlier.status = .succeeded)
    (kept : ∀ other attempt, attempts.find? other = some attempt →
      system.attempts.find? other = some attempt ∨ other = workerId ∧
        attempt.Stands deployment.platform.jsonb store session.context.runId) :
    Sound deployment {
      platform := {
        store := store, sessions := system.platform.sessions.put workerId (session.at stage) }
      attempts := attempts } := by
  refine ⟨chained, ?_, ?_⟩
  · refine sound.backed.step grows ?_ ?_ fun runId run found ended =>
      .inr (succeeded runId run found ended)
    · intro other after found
      obtain ⟨before, stood, context, job, _⟩ := sessions_put held found
      rw [context, job]
      exact sound.backed.jobs other before stood
    · intro other after found ended
      obtain ⟨before, stood, context, _, same | ⟨_, same, own⟩⟩ := sessions_put held found
      · rw [context]
        rw [same] at ended
        exact (sound.backed.returned other before stood ended).mono grows
      · rw [context, own]
        exact returned (same ▸ ended)
  · refine sound.loops.step grows fun other attempt found => ?_
    rcases kept other attempt found with before | ⟨rfl, stands⟩
    · exact .inl ⟨before, fun session stood => sessions_kept held stood⟩
    · refine .inr ⟨session.at stage, ?_, stands⟩
      rw [Table.find?_put]

/-- An action that journals nothing keeps the system sound, when an executor that returns has
been answered. -/
theorem Sound.acted {attempts : Table String Attempt} (sound : Sound deployment system)
    (held : system.platform.sessions.find? workerId = some session)
    (ok : system.act deployment workerId action = .ok platform)
    (silent : action.journals = false)
    (answered : action = .executorReturns →
      Answered deployment.platform.jsonb system.platform.store session.context.runId)
    (kept : ∀ other attempt, attempts.find? other = some attempt →
      system.attempts.find? other = some attempt ∨ other = workerId ∧
        attempt.Stands deployment.platform.jsonb system.platform.store session.context.runId) :
    Sound deployment { platform := platform, attempts := attempts } := by
  obtain ⟨store, stage, done, rfl⟩ := System.act_eq_ok held ok
  have unanswered : system.platform.store.Unanswered (fun _ => False) store :=
    Run.Action.run_unanswered done silent
  have grows : Extends system.platform.store store := .of_eq unanswered.modelSteps
  apply sound.after held grows (sound.chained.of_eq unanswered.modelSteps unanswered.answerCache)
  · intro ended
    subst ended
    rcases Run.Action.run_returned done with returns | already
    · exact (answered returns).mono grows
    · exact (sound.backed.returned workerId session held already).mono grows
  · intro runId run found ended
    exact (unanswered.succeeded runId run found ended).resolve_left id
  · intro other attempt found
    exact (kept other attempt found).imp id fun own => ⟨own.1, own.2.mono grows⟩

/-- A write of an executor is journalled, or leaves the store alone and ends the executor. -/
theorem act_write_eq_ok (held : system.platform.sessions.find? workerId = some session)
    (ok : system.act deployment workerId (.write entry) = .ok platform) :
    (∃ store, entry.run deployment.platform system.platform.store session.context = .ok store ∧
        platform = {
          store := store
          sessions := system.platform.sessions.put workerId (session.at .executing) }) ∨
      ∃ error, platform = {
        store := system.platform.store
        sessions := system.platform.sessions.put workerId (session.at (.raised error)) } := by
  obtain ⟨store, stage, done, rfl⟩ := System.act_eq_ok held ok
  simp only [Run.Action.run, Option.bind_eq_bind, Option.bind_eq_some_iff, Option.pure_def,
    Option.some.injEq] at done
  obtain ⟨_, _, done⟩ := done
  unfold Run.journalled at done
  split at done
  case h_1 wrote =>
    cases done
    exact .inl ⟨store, wrote, rfl⟩
  case h_2 =>
    cases done
    exact .inr ⟨_, rfl⟩

/-- A loop that writes goes on where the write was journalled, and is gone where it raised. -/
theorem Sound.wrote {attempt : Attempt} {next : System} (sound : Sound deployment system)
    (held : system.platform.sessions.find? workerId = some session)
    (ok : system.goOn deployment workerId (.write entry) attempt = .ok next)
    (journals : ∀ store, entry.run deployment.platform system.platform.store session.context =
      .ok store → store.agentRuns = system.platform.store.agentRuns ∧
        Extends system.platform.store store ∧ Chained deployment.platform.jsonb store ∧
        attempt.Stands deployment.platform.jsonb store session.context.runId) :
    Sound deployment next := by
  simp only [System.goOn, bind_eq_ok, pure_eq_ok] at ok
  obtain ⟨platform, done, rfl⟩ := ok
  rcases act_write_eq_ok held done with ⟨store, wrote, rfl⟩ | ⟨error, rfl⟩
  · obtain ⟨runs, grows, chained, stands⟩ := journals store wrote
    simp only [Table.find?_put, Option.map_some, Run.Session.at]
    apply sound.after held grows chained (by simp)
    · intro runId run found ended
      exact ⟨run, runs ▸ found, ended⟩
    · intro other after found
      rw [Table.find?_put_eq] at found
      split at found
      case isTrue same =>
        cases found
        exact .inr ⟨same, stands⟩
      case isFalse => exact .inl found
  · simp only [Table.find?_put, Option.map_some, Run.Session.at]
    apply sound.after held (.refl _) sound.chained (by simp)
    · intro runId run found ended
      exact ⟨run, found, ended⟩
    · intro other after found
      exact .inl (Table.of_find?_erase found).2

end Acting

variable {decision : RoutingDecision} {clock now : Instant}

section Writing

variable {deployment : Deployment} {store next : Run.Store} {context : Run.ExecutionContext}
  {attempt : Attempt}

theorem accepted_withoutUsage (accepted : response.Accepted) :
    ProviderResponse.Accepted { response with usage := ⟨.int 0, .int 0⟩ } :=
  ⟨accepted.calls, accepted.named, accepted.text, le_refl 0, le_refl 0⟩

/-- What is cached is the response without its usage. -/
theorem cachedAnswer_response {key : String} {answer : Run.CachedAnswer}
    (cached : attempt.cachedAnswer deployment context decision response now =
      some (key, answer)) :
    answer.response = ProviderResponse.asDict { response with usage := ⟨.int 0, .int 0⟩ } := by
  unfold Attempt.cachedAnswer at cached
  split at cached
  · simp only [Option.some.injEq, Prod.mk.injEq] at cached
    rw [← cached.2]
  · simp at cached

/-- A loop that saves its response stands on it. -/
theorem Attempt.Stands.save {cost : Option Run.SpendRecord}
    (chained : Chained deployment.platform.jsonb store)
    (stands : attempt.Stands deployment.platform.jsonb store context.runId)
    (answered : attempt.place = .answered decision response)
    (ok : store.save deployment.platform context attempt.stepNo (savedStep decision response) cost
      (attempt.cachedAnswer deployment context decision response now) clock = .ok next) :
    next.agentRuns = store.agentRuns ∧ Extends store next ∧
      Chained deployment.platform.jsonb next ∧
      Attempt.Stands deployment.platform.jsonb next context.runId
        { attempt with place := .responded response } := by
  have place := stands.place
  rw [answered] at place
  obtain ⟨before, accepted⟩ := place
  obtain ⟨absent, steps, runs, cache⟩ := Run.Store.save_eq_ok ok
  have grows : Extends store next := .inserted absent steps
  have inTime : attempt.stepNo < 32 := lt_of_lt_of_le before attempt.profile.maxSteps_range.2
  refine ⟨runs, grows, chained.inserted absent steps rfl accepted inTime stands.previous ?_, ?_⟩
  · intro key answer found
    rcases cache with same | ⟨cacheKey, entry, cached, put⟩
    · rw [same] at found
      exact chained.cached key answer found
    · rw [put, Table.find?_put_eq] at found
      split at found
      case isTrue =>
        obtain rfl := Option.some.inj found
        refine ⟨_, ?_, accepted_withoutUsage accepted⟩
        rw [cachedAnswer_response cached]
      case isFalse => exact chained.cached key answer found
  · refine ⟨fun stepNo follows => (stands.previous stepNo follows).mono grows, response,
      ⟨{ savedStep decision response with
          response := deployment.platform.jsonb response.asDict }, ?_, rfl⟩, .refl response⟩
    rw [steps, Table.find?_put]
    rfl

/-- Where a loop goes on once it has looked for an answer in the cache. -/
def GoesTo (store : Run.Store) (context : Run.ExecutionContext) (decision : RoutingDecision)
    (key : String) (now : Instant) (later : List Lookup) (place : Place) : Prop :=
  let cached := store.cachedFor context (spellText decision.candidate.provider)
    (spellText decision.candidate.model) key now
  (cached = none ∧ place = .routed decision later) ∨
    ∃ answer response, cached = some answer ∧ decodeResponse answer.response = some response ∧
      place = .responded response

/-- A loop that restores a cached answer stands on it. -/
theorem Attempt.Stands.restore {lookups later : List Lookup} {cacheKey reason : String}
    (keeps : KeepsValues deployment.platform.jsonb)
    (chained : Chained deployment.platform.jsonb store)
    (stands : attempt.Stands deployment.platform.jsonb store context.runId)
    (routed : attempt.place = .routed decision lookups)
    (ok : store.restoreAnswer context attempt.stepNo (spellText decision.candidate.provider)
      (spellText decision.candidate.model) cacheKey reason clock now = .ok next) {place : Place}
    (goesTo : GoesTo store context decision cacheKey now later place) :
    next.agentRuns = store.agentRuns ∧ Extends store next ∧
      Chained deployment.platform.jsonb next ∧
      Attempt.Stands deployment.platform.jsonb next context.runId
        { attempt with place := place } := by
  have before := stands.place
  rw [routed] at before
  obtain ⟨runs, cache, ⟨missing, steps⟩ | ⟨answer, there, absent, row, restored, steps⟩⟩ :=
    Run.Store.restoreAnswer_eq_ok ok
  · have goesOn : place = .routed decision later := by
      rcases goesTo with ⟨_, same⟩ | ⟨answer, _, there, _⟩
      · exact same
      · rw [missing] at there
        cases there
    subst goesOn
    have grows : Extends store next := .of_eq steps
    exact ⟨runs, grows, chained.of_eq steps cache,
      fun stepNo follows => (stands.previous stepNo follows).mono grows, before⟩
  · obtain ⟨response, decoded, rfl⟩ : ∃ response,
        decodeResponse answer.response = some response ∧ place = .responded response := by
      rcases goesTo with ⟨missing, _⟩ | ⟨other, response, also, decoded, same⟩
      · rw [missing] at there
        cases there
      · rw [also] at there
        cases there
        exact ⟨response, decoded, same⟩
    have grows : Extends store next := .inserted absent steps
    obtain ⟨written, holds, accepted⟩ :=
      chained.cached _ answer (Option.filter_eq_some_iff.mp there).1
    have inTime : attempt.stepNo < 32 := lt_of_lt_of_le before attempt.profile.maxSteps_range.2
    rw [holds, keeps.decodeResponse_asDict] at decoded
    cases decoded
    refine ⟨runs, grows, ?_, ?_⟩
    · apply chained.inserted absent steps (restored.trans holds) accepted inTime stands.previous
      rw [cache]
      exact chained.cached
    · refine ⟨fun stepNo follows => (stands.previous stepNo follows).mono grows, written,
        ⟨row, ?_, restored.trans holds⟩, written.kept_alike _⟩
      rw [steps, Table.find?_put]

end Writing

section Steps

variable {deployment : Deployment} {system next : System} {workerId nearest : String}
  {session : Run.Session} {attempt : Attempt} {result : Except Outcome Attempt} {lookup : Lookup}
  {label : Run.Label}

/-- A loop that goes on stands on the journal, or its executor ends, and returns only once the
run has been answered. -/
theorem Sound.proceed (sound : Sound deployment system)
    (held : system.platform.sessions.find? workerId = some session)
    (stands : ∀ attempt, result = .ok attempt →
      attempt.Stands deployment.platform.jsonb system.platform.store session.context.runId)
    (answered : result = .error .succeeded →
      Answered deployment.platform.jsonb system.platform.store session.context.runId)
    (ok : system.proceed deployment workerId result = .ok next) : Sound deployment next := by
  cases result with
  | ok attempt =>
    simp only [System.proceed, pure_eq_ok] at ok
    subst ok
    refine ⟨sound.chained, sound.backed, sound.loops.step (.refl _) ?_⟩
    intro other after found
    rw [Table.find?_put_eq] at found
    split at found
    case isTrue same =>
      cases found
      subst same
      exact .inr ⟨session, held, stands attempt rfl⟩
    case isFalse => exact .inl ⟨found, fun stood present => ⟨stood, present, rfl⟩⟩
  | error outcome =>
    simp only [System.proceed, bind_eq_ok, pure_eq_ok] at ok
    obtain ⟨platform, done, rfl⟩ := ok
    refine sound.acted held done ?_ ?_ fun other after found => .inl (Table.of_find?_erase found).2
    · cases outcome <;> rfl
    · intro returns
      cases outcome with
      | succeeded => exact answered rfl
      | _ => cases returns

/-- A check that keeps the loop standing keeps the system sound. -/
theorem Sound.checked (sound : Sound deployment system)
    (held : system.platform.sessions.find? workerId = some session) (checks : Checks result)
    (stands : ∀ attempt, result = .ok attempt →
      attempt.Stands deployment.platform.jsonb system.platform.store session.context.runId)
    (ok : system.proceed deployment workerId result = .ok next) : Sound deployment next :=
  sound.proceed held stands (fun returned => absurd rfl (checks _ returned)) ok

/-- A lookup in the cache ends the executor, or journals what it finds. -/
inductive LooksUp (deployment : Deployment) (system : System) (workerId : String)
    (session : Run.Session) (attempt : Attempt) (decision : RoutingDecision) (later : List Lookup)
    (clock now : Instant) (next : System) : Prop where
  | fails {outcome : Outcome} (failed : outcome ≠ .succeeded)
      (done : system.proceed deployment workerId (.error outcome) = .ok next)
  | writes {place : Place} {entry : Run.Write} {key reason : String}
      (entryIs : ∀ store, entry.run deployment.platform store session.context =
        store.restoreAnswer session.context attempt.stepNo (spellText decision.candidate.provider)
          (spellText decision.candidate.model) key reason clock now)
      (goesTo : GoesTo system.platform.store session.context decision key now later place)
      (done : system.goOn deployment workerId (.write entry) { attempt with place := place } =
        .ok next)

theorem System.lookUp_effect {later : List Lookup}
    (ok : system.lookUp deployment workerId attempt decision later
      (system.lookUpEntry deployment session attempt decision lookup nearest clock now) =
        .ok next) :
    LooksUp deployment system workerId session attempt decision later clock now next := by
  unfold System.lookUp at ok
  split at ok
  case h_1 missing =>
    cases lookup with
    | exact => exact .writes (fun _ => rfl) (.inl ⟨missing, rfl⟩) ok
    | semantic => exact .writes (fun _ => rfl) (.inl ⟨missing, rfl⟩) ok
  case h_2 answer there =>
    split at ok
    case h_1 => exact .fails (by simp) ok
    case h_2 response decoded =>
      cases lookup with
      | exact => exact .writes (fun _ => rfl) (.inr ⟨answer, response, there, decoded, rfl⟩) ok
      | semantic => exact .writes (fun _ => rfl) (.inr ⟨answer, response, there, decoded, rfl⟩) ok

/-- A lookup in the cache keeps the system sound. -/
theorem Sound.lookUp {later : List Lookup} (sound : Sound deployment system)
    (keeps : KeepsValues deployment.platform.jsonb)
    (held : system.platform.sessions.find? workerId = some session)
    (stands : attempt.Stands deployment.platform.jsonb system.platform.store session.context.runId)
    (routed : attempt.place = .routed decision (lookup :: later))
    (ok : system.lookUp deployment workerId attempt decision later
      (system.lookUpEntry deployment session attempt decision lookup nearest clock now) =
        .ok next) : Sound deployment next := by
  cases System.lookUp_effect ok with
  | fails failed done => exact sound.checked held (.error failed) (by simp) done
  | writes entryIs goesTo done =>
    refine sound.wrote held done fun store ok => ?_
    rw [entryIs] at ok
    exact stands.restore keeps sound.chained routed ok goesTo

/-- A loop's own step keeps the system sound. -/
theorem Sound.moved {move : Move} (sound : Sound deployment system)
    (keeps : KeepsValues deployment.platform.jsonb)
    (held : system.platform.sessions.find? workerId = some session)
    (stands : attempt.Stands deployment.platform.jsonb system.platform.store session.context.runId)
    (ok : system.moved deployment workerId session attempt attempt.place move = .ok next) :
    Sound deployment next := by
  generalize at_ : attempt.place = place at ok
  unfold System.moved at ok
  split at ok
  case h_1 evidence =>
    exact sound.checked held (retrieved_checks _ _) (fun _ => stands.retrieved) ok
  case h_2 clock => exact sound.checked held (check_checks _ _) (fun _ => stands.check) ok
  case h_3 health clock =>
    exact sound.checked held (load_checks _ _ _) (fun _ => stands.load keeps sound.chained at_) ok
  case h_4 decision lookup later nearest clock now => exact sound.lookUp keeps held stands at_ ok
  case h_5 decision =>
    refine sound.checked held (.ok _) (fun _ same => ?_) ok
    cases same
    have before := stands.place
    rw [at_] at before
    exact ⟨stands.previous, before⟩
  case h_6 decision response =>
    exact sound.checked held (receive_checks _ _ _) (fun _ => stands.receive at_) ok
  case h_7 decision response cost clock now =>
    exact sound.wrote held ok fun _ => stands.save sound.chained at_
  case h_8 response =>
    exact sound.proceed held (fun _ => stands.judge at_) (stands.returned at_) ok
  case h_9 index call rest clock =>
    exact sound.checked held (permit_checks _ _ _ _ _) (fun _ => stands.permit at_) ok
  case h_10 index call rest callId approvalId clock now =>
    have before := stands.place
    rw [at_] at before
    simp only [System.goOn, bind_eq_ok, pure_eq_ok] at ok
    obtain ⟨platform, done, rfl⟩ := ok
    refine sound.acted held done rfl (by simp) fun other after found => ?_
    split at found
    · exact .inl (Table.of_find?_erase found).2
    · rw [Table.find?_put_eq] at found
      split at found
      case isTrue same =>
        cases found
        exact .inr ⟨same, stands.previous, before⟩
      case isFalse => exact .inl found
  case h_11 index call rest result =>
    refine sound.checked held (.ok _) (fun _ same => ?_) ok
    cases same
    exact stands.resume result at_
  case h_12 => cases ok

/-- What a step of the platform by someone else than an attempt leaves: the sessions it does not
end are as they were, and a run succeeds only when an attempt that has returned is finished. -/
structure Bystanding (system next : System) : Prop where
  unanswered : system.platform.store.Unanswered (fun runId => ∃ workerId session,
    system.platform.sessions.find? workerId = some session ∧ session.stage = .returned ∧
      session.job.runId = runId) next.platform.store
  sessions : ∀ other session, next.platform.sessions.find? other = some session →
    system.platform.sessions.find? other = some session ∨
      session.context.runId = session.job.runId ∧ session.stage ≠ .returned
  attempts : ∀ other attempt, next.attempts.find? other = some attempt →
    system.attempts.find? other = some attempt ∧
      next.platform.sessions.find? other = system.platform.sessions.find? other

/-- The context handed out with a claimed run is for the run of the job. -/
theorem claimed_runId {store after : Run.Store} {job : Run.WorkerJob} {leaseSeconds : Nat}
    {context : Run.ExecutionContext}
    (ok : store.claim job workerId leaseSeconds now = .ok (after, some context)) :
    context.runId = job.runId := by
  cases Run.Store.claim_effect ok with
  | started => rfl

/-- A step of the platform that no loop makes is an action that journals nothing, or none of an
attempt. -/
theorem System.run_platform (ok : system.run deployment (.platform label) = .ok next) :
    (∃ workerId action session platform, system.platform.sessions.find? workerId = some session ∧
      system.act deployment workerId action = .ok platform ∧ action.journals = false ∧
      action ≠ .executorReturns ∧ next = { system with platform := platform }) ∨
    Bystanding system next := by
  simp only [System.run, bind_eq_ok, raiseIf_eq_ok, pure_eq_ok, exists_and_left, exists_const,
    Bool.not_eq_false] at ok
  obtain ⟨admitted, platform, done, rfl⟩ := ok
  cases label with
  | request request =>
    obtain ⟨store, ran, rfl⟩ := Run.System.run_request.mp done
    exact .inr ⟨(Run.Request.run_unwritten ran).toUnanswered, fun _ _ => .inl,
      fun _ _ found => ⟨found, rfl⟩⟩
  | claim workerId job leaseSeconds now =>
    obtain ⟨_, store, handed, claimed, rfl⟩ := Run.System.run_claim.mp done
    refine .inr ⟨(Run.Store.claim_unwritten claimed).toUnanswered, ?_, ?_⟩
    · intro other session found
      cases handed with
      | none => exact .inl found
      | some context =>
        rw [Table.find?_put_eq] at found
        split at found
        · cases found
          exact .inr ⟨claimed_runId claimed, by simp⟩
        · exact .inl found
    · intro other attempt found
      obtain ⟨distinct, before⟩ := Table.of_find?_erase found
      refine ⟨before, ?_⟩
      cases handed with
      | none => rfl
      | some context => exact Table.find?_put_ne _ _ distinct
  | act workerId action =>
    obtain ⟨session, store, stage, held, ran, rfl⟩ := Run.System.run_act.mp done
    have beside : isBeside (system.attempts.find? workerId) action = true := admitted
    refine .inl ⟨workerId, action, session, _, held, done, ?_, ?_, rfl⟩
    · cases action with
      | write entry => cases entry <;> first | rfl | cases beside
      | _ => rfl
    · rintro rfl
      cases beside
  | finish workerId newJobId delay now =>
    obtain ⟨session, store, handled, held, ended, rfl⟩ := Run.System.run_finish.mp done
    have unanswered := (Run.Store.finish_unwritten ended).toUnanswered
    refine .inr ⟨⟨unanswered.modelSteps, unanswered.answerCache, ?_⟩, ?_, ?_⟩
    · intro runId run found succeeded
      refine (unanswered.succeeded runId run found succeeded).imp ?_ id
      rintro ⟨returned, rfl⟩
      exact ⟨workerId, session, held, returned, rfl⟩
    · exact fun other after found => .inl (Table.of_find?_erase found).2
    · intro other attempt found
      obtain ⟨distinct, before⟩ := Table.of_find?_erase found
      refine ⟨before, ?_⟩
      rw [Table.find?_erase, if_neg distinct]
  | crash workerId =>
    obtain rfl := Run.System.run_crash.mp done
    refine .inr ⟨.refl _, fun other after found => .inl (Table.of_find?_erase found).2, ?_⟩
    intro other attempt found
    obtain ⟨distinct, before⟩ := Table.of_find?_erase found
    refine ⟨before, ?_⟩
    rw [Table.find?_erase, if_neg distinct]

/-- A step of the platform that no loop makes keeps the system sound. -/
theorem Sound.platform (sound : Sound deployment system)
    (ok : system.run deployment (.platform label) = .ok next) : Sound deployment next := by
  rcases System.run_platform ok with
    ⟨workerId, action, session, platform, held, done, silent, stays, rfl⟩ | bystanding
  · exact sound.acted held done silent (fun returns => absurd returns stays)
      fun _ _ found => .inl found
  have unanswered := bystanding.unanswered
  have grows : Extends system.platform.store next.platform.store := .of_eq unanswered.modelSteps
  refine ⟨sound.chained.of_eq unanswered.modelSteps unanswered.answerCache, ?_, ?_⟩
  · refine sound.backed.step grows ?_ ?_ ?_
    · intro other session found
      rcases bystanding.sessions other session found with before | ⟨same, _⟩
      · exact sound.backed.jobs other session before
      · exact same
    · intro other session found ended
      rcases bystanding.sessions other session found with before | ⟨_, open_⟩
      · exact (sound.backed.returned other session before ended).mono grows
      · exact absurd ended open_
    · intro runId run found ended
      refine (unanswered.succeeded runId run found ended).imp ?_ id
      rintro ⟨workerId, session, held, returned, rfl⟩
      rw [← sound.backed.jobs workerId session held]
      exact sound.backed.returned workerId session held returned
  · refine sound.loops.step grows fun other attempt found => .inl ?_
    obtain ⟨before, same⟩ := bystanding.attempts other attempt found
    exact ⟨before, fun session stood => ⟨session, same.trans stood, rfl⟩⟩

/-- Every step keeps the system sound. -/
theorem Sound.step {label : Label} (keeps : KeepsValues deployment.platform.jsonb)
    (sound : Sound deployment system) (ok : system.run deployment label = .ok next) :
    Sound deployment next := by
  cases label with
  | platform label => exact sound.platform ok
  | begin workerId clock =>
    simp only [System.run, bind_eq_ok, orRaise_eq_ok, raiseIf_eq_ok, exists_and_left,
      exists_const, System.executing, Option.filter_eq_some_iff] at ok
    obtain ⟨session, ⟨held, _⟩, _, ok⟩ := ok
    exact sound.checked held (begin_checks clock) (fun _ => begin_stands) ok
  | loop workerId move =>
    simp only [System.run, bind_eq_ok, orRaise_eq_ok, System.executing,
      Option.filter_eq_some_iff] at ok
    obtain ⟨session, ⟨held, _⟩, attempt, found, ok⟩ := ok
    obtain ⟨other, also, stands⟩ := sound.loops workerId attempt found
    rw [held] at also
    cases also
    exact sound.moved keeps held stands ok
  | fail workerId outcome =>
    simp only [System.run, bind_eq_ok, orRaise_eq_ok, raiseIf_eq_ok, exists_and_left,
      exists_const, System.executing, Option.filter_eq_some_iff] at ok
    obtain ⟨session, ⟨held, _⟩, failed, ok⟩ := ok
    exact sound.checked held (.error failed) (by simp) ok

theorem Sound.opening (opening : Opening system) : Sound deployment system := by
  obtain ⟨⟨quiet, memberships, agentDefinitions, unused⟩, idle⟩ := opening
  refine ⟨⟨?_, ?_, ?_⟩, ⟨?_, ?_, ?_⟩, ?_⟩
  · simp [unused, Run.Store.empty]
  · simp [unused, Run.Store.empty]
  · simp [unused, Run.Store.empty]
  · simp [quiet]
  · simp [quiet]
  · simp [unused, Run.Store.empty]
  · simp [LoopsStand, idle]

theorem sound_of_runs (keeps : KeepsValues deployment.platform.jsonb)
    {history : List (Transition System Label)} (runs : (machine deployment).Runs history system) :
    Sound deployment system :=
  runs.invariant (Sound deployment) (fun _ => .opening) fun _ _ _ sound ok => sound.step keeps ok

end Steps

end Nexora.Executor
