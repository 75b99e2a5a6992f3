import Nexora.Executor.System

/-!
# The journal over whole runs

Rows are only ever added to a run's journal, each by a loop that stands at its step. A loop goes
from one step to the next by the calls of the response it found or journalled, so every row but
the last holds calls; and an executor returns only at a response that ends the loop, which is
why the row of a run that succeeded is the last.
-/

namespace Nexora.Executor

open Nexora.Std Nexora.Tools Json

/-- What `_validate` has checked of a response, apart from its calls' identifiers and
arguments. -/
structure ProviderResponse.Accepted (response : ProviderResponse) : Prop where
  calls : response.toolCalls.length ≤ 16
  named : ∀ call ∈ response.toolCalls, call.name ≠ []
  text : (response.text.getD []).length ≤ 100000
  inputTokens : 0 ≤ response.usage.inputTokens.value
  outputTokens : 0 ≤ response.usage.outputTokens.value

variable {response : ProviderResponse}

theorem accepted_of_validate {runtime : Runtime} (ok : response.validate runtime = .ok ()) :
    response.Accepted := by
  simp only [ProviderResponse.validate, bind_eq_ok, raiseIf_eq_ok, not_or, not_lt,
    Bool.not_eq_true, exists_and_left, exists_const, List.any_eq_false, Bool.or_eq_false_iff,
    decide_eq_false_iff_not] at ok
  obtain ⟨⟨calls, _, named, text, inputTokens, outputTokens⟩, _⟩ := ok
  refine ⟨calls, fun call member => ?_, text, inputTokens, outputTokens⟩
  exact (named call member).2

/-- An answer that ends the loop. -/
structure ProviderResponse.Final (response : ProviderResponse) : Prop where
  reason : response.finishReason = "stop" ∨ response.finishReason = "refusal"
  calls : response.toolCalls = []
  text : response.text.getD [] ≠ []

/-- What is restored or loaded of a response says the same as the response. -/
structure ProviderResponse.Alike (left right : ProviderResponse) : Prop where
  text : left.text = right.text
  reason : left.finishReason = right.finishReason
  calls : left.toolCalls = [] ↔ right.toolCalls = []

theorem ProviderResponse.Alike.refl (response : ProviderResponse) : response.Alike response :=
  ⟨rfl, rfl, .rfl⟩

theorem ProviderResponse.kept_alike (jsonb : Json → Json) (response : ProviderResponse) :
    (response.kept jsonb).Alike response :=
  ⟨rfl, rfl, by simp [ProviderResponse.kept]⟩

theorem ProviderResponse.Alike.final {left right : ProviderResponse} (alike : left.Alike right)
    (final : left.Final) : right.Final :=
  ⟨alike.reason ▸ final.reason, alike.calls.mp final.calls, alike.text ▸ final.text⟩

section Journal

variable (jsonb : Json → Json) (store : Run.Store)

/-- The response a run's journal holds for a step. -/
def Journalled (runId : Uuid) (stepNo : Nat) (response : ProviderResponse) : Prop :=
  ∃ row, store.modelSteps.find? (runId, stepNo) = some row ∧ row.response = jsonb response.asDict

/-- A step's response asks for calls, so that another step may follow. -/
def Continues (runId : Uuid) (stepNo : Nat) : Prop :=
  ∃ response, Journalled jsonb store runId stepNo response ∧ response.toolCalls ≠ []

/-- A run's journal holds an answer that ends the loop. -/
def Answered (runId : Uuid) : Prop :=
  ∃ stepNo response, Journalled jsonb store runId stepNo response ∧ response.Final

/-- What is known of the journal where a loop stands. -/
def Place.Holds (runId : Uuid) (stepNo maxSteps : Nat) : Place → Prop
  | .retrieving | .looping => True
  | .checked | .routed _ _ => stepNo < maxSteps
  | .answered _ response => stepNo < maxSteps ∧ response.Accepted
  | .responded response => ∃ written, Journalled jsonb store runId stepNo written ∧
      response.Alike written
  | .calling _ _ | .permitted _ _ | .invoking _ _ => Continues jsonb store runId stepNo

/-- A loop has come to its step over a step with calls, and stands where its place says. -/
structure Attempt.Stands (runId : Uuid) (attempt : Attempt) : Prop where
  previous : ∀ stepNo, attempt.stepNo = stepNo + 1 → Continues jsonb store runId stepNo
  place : attempt.place.Holds jsonb store runId attempt.stepNo attempt.profile.maxSteps

/-- The journal and the cache hold what the loops have accepted, in unbroken chains of calls. -/
structure Chained : Prop where
  rows : ∀ runId stepNo row, store.modelSteps.find? (runId, stepNo) = some row →
    stepNo < 32 ∧ ∃ response : ProviderResponse,
      row.response = jsonb response.asDict ∧ response.Accepted
  cached : ∀ key answer, store.answerCache.find? key = some answer →
    ∃ response : ProviderResponse, answer.response = jsonb response.asDict ∧ response.Accepted
  previous : ∀ runId stepNo row, store.modelSteps.find? (runId, stepNo + 1) = some row →
    Continues jsonb store runId stepNo

/-- What succeeded, or is about to, has been answered. -/
structure Backed (platform : Run.System) : Prop where
  jobs : ∀ workerId session, platform.sessions.find? workerId = some session →
    session.context.runId = session.job.runId
  returned : ∀ workerId session, platform.sessions.find? workerId = some session →
    session.stage = .returned → Answered jsonb platform.store session.context.runId
  succeeded : ∀ runId run, platform.store.agentRuns.find? runId = some run →
    run.status = .succeeded → Answered jsonb platform.store runId

/-- Every loop stands on the journal of the run its worker holds. -/
def LoopsStand (platform : Run.System) (attempts : Table String Attempt) : Prop :=
  ∀ workerId attempt, attempts.find? workerId = some attempt →
    ∃ session, platform.sessions.find? workerId = some session ∧
      attempt.Stands jsonb platform.store session.context.runId

end Journal

/-- The invariant of the system. -/
structure Sound (deployment : Deployment) (system : System) : Prop where
  chained : Chained deployment.platform.jsonb system.platform.store
  backed : Backed deployment.platform.jsonb system.platform
  loops : LoopsStand deployment.platform.jsonb system.platform system.attempts

/-- Every row of the journal is still there. -/
def Extends (before after : Run.Store) : Prop :=
  ∀ key row, before.modelSteps.find? key = some row → after.modelSteps.find? key = some row

section Growing

variable {jsonb : Json → Json} {store next : Run.Store} {runId : Uuid}

theorem Extends.refl (store : Run.Store) : Extends store store := fun _ _ found => found

theorem Extends.of_eq (same : next.modelSteps = store.modelSteps) : Extends store next := by
  intro key row found
  rw [same]
  exact found

variable (grows : Extends store next) {stepNo : Nat}

include grows

theorem Journalled.mono (journalled : Journalled jsonb store runId stepNo response) :
    Journalled jsonb next runId stepNo response := by
  obtain ⟨row, found, holds⟩ := journalled
  exact ⟨row, grows _ _ found, holds⟩

theorem Continues.mono (continues : Continues jsonb store runId stepNo) :
    Continues jsonb next runId stepNo := by
  obtain ⟨response, journalled, calls⟩ := continues
  exact ⟨response, journalled.mono grows, calls⟩

theorem Answered.mono (answered : Answered jsonb store runId) : Answered jsonb next runId := by
  obtain ⟨stepNo, response, journalled, final⟩ := answered
  exact ⟨stepNo, response, journalled.mono grows, final⟩

theorem Place.Holds.mono {maxSteps : Nat} {place : Place}
    (holds : place.Holds jsonb store runId stepNo maxSteps) :
    place.Holds jsonb next runId stepNo maxSteps := by
  cases place with
  | retrieving => trivial
  | looping => trivial
  | checked => exact holds
  | routed => exact holds
  | answered => exact holds
  | responded response =>
    obtain ⟨written, journalled, alike⟩ := holds
    exact ⟨written, journalled.mono grows, alike⟩
  | calling => exact Continues.mono grows holds
  | permitted => exact Continues.mono grows holds
  | invoking => exact Continues.mono grows holds

theorem Attempt.Stands.mono {attempt : Attempt} (stands : attempt.Stands jsonb store runId) :
    attempt.Stands jsonb next runId where
  previous stepNo follows := (stands.previous stepNo follows).mono grows
  place := stands.place.mono grows

end Growing

section Loops

variable {deployment : Deployment} {store : Run.Store} {context : Run.ExecutionContext}
  {runId : Uuid} {attempt next : Attempt} {jsonb : Json → Json} {clock : Instant}
  {rest : List ProviderToolCall} {index : Nat} {call : ProviderToolCall}

theorem begin_stands (ok : begin deployment store context clock = .ok attempt) :
    attempt.Stands jsonb store runId := by
  simp only [begin, bind_eq_ok, raiseIf_eq_ok, pure_eq_ok, exists_and_left, exists_const] at ok
  obtain ⟨_, _, _, _, _, _, _, _, _, rfl⟩ := ok
  exact ⟨by simp, trivial⟩

theorem Attempt.Stands.retrieved {evidence : PyStr} (stands : attempt.Stands jsonb store runId)
    (ok : attempt.retrieved deployment evidence = .ok next) : next.Stands jsonb store runId := by
  unfold Attempt.retrieved at ok
  split at ok
  · simp only [bind_eq_ok, raiseIf_eq_ok, pure_eq_ok, exists_and_left, exists_const] at ok
    obtain ⟨_, rfl⟩ := ok
    exact ⟨stands.previous, trivial⟩
  · cases ok
    exact ⟨stands.previous, trivial⟩

theorem Attempt.Stands.check (stands : attempt.Stands jsonb store runId)
    (ok : attempt.check store context clock = .ok next) : next.Stands jsonb store runId := by
  simp only [Attempt.check, bind_eq_ok, raiseIf_eq_ok, pure_eq_ok, exists_and_left, exists_const,
    not_le] at ok
  obtain ⟨before, _, _, _, rfl⟩ := ok
  exact ⟨stands.previous, before⟩

/-- A loop that loads its step has a response that says what is journalled. -/
theorem Attempt.Stands.load {health : PyStr → ProviderHealth}
    (keeps : KeepsValues deployment.platform.jsonb)
    (chained : Chained deployment.platform.jsonb store)
    (stands : attempt.Stands deployment.platform.jsonb store context.runId)
    (atHead : attempt.place = .checked)
    (ok : attempt.load deployment store context health clock = .ok next) :
    next.Stands deployment.platform.jsonb store context.runId := by
  have before := stands.place
  rw [atHead] at before
  simp only [Attempt.load, bind_eq_ok] at ok
  obtain ⟨_, _, ok⟩ := ok
  split at ok
  case h_1 row found =>
    simp only [bind_eq_ok, orRaise_eq_ok, pure_eq_ok] at ok
    obtain ⟨response, decoded, rfl⟩ := ok
    obtain ⟨_, written, holds, _⟩ := chained.rows _ _ _ found
    rw [holds, keeps.decodeResponse_asDict] at decoded
    cases decoded
    exact ⟨stands.previous, written, ⟨row, found, holds⟩, written.kept_alike _⟩
  case h_2 =>
    simp only [bind_eq_ok, pure_eq_ok] at ok
    obtain ⟨decision, _, rfl⟩ := ok
    exact ⟨stands.previous, before⟩

theorem Attempt.Stands.receive {decision : RoutingDecision} {lookups : List Lookup}
    (stands : attempt.Stands jsonb store runId) (routed : attempt.place = .routed decision lookups)
    (ok : attempt.receive deployment decision response = .ok next) :
    next.Stands jsonb store runId := by
  have before := stands.place
  rw [routed] at before
  simp only [Attempt.receive, bind_eq_ok, raiseIf_eq_ok, pure_eq_ok, exists_and_left,
    exists_const] at ok
  obtain ⟨_, _, valid, rfl⟩ := ok
  exact ⟨stands.previous, before, accepted_of_validate valid⟩

/-- A response takes the loop to its calls only if it has any. -/
theorem judge_calls (ok : attempt.judge deployment response = .ok next) :
    response.toolCalls ≠ [] ∧ ∃ totalTokens, next = { attempt with
      totalTokens := totalTokens, place := .calling 0 response.toolCalls } := by
  simp only [Attempt.judge, bind_eq_ok, raiseIf_eq_ok, exists_and_left, exists_const] at ok
  obtain ⟨_, _, _, ok⟩ := ok
  split at ok
  · simp only [bind_eq_ok, raiseIf_eq_ok, exists_and_left, exists_const] at ok
    cases ok.2
  · simp only [bind_eq_ok, raiseIf_eq_ok, pure_eq_ok, exists_and_left, exists_const, not_or] at ok
    obtain ⟨⟨_, calls⟩, _, rfl⟩ := ok
    exact ⟨calls, _, rfl⟩

/-- Returning is no error of a check. -/
abbrev Checks {α : Type} (result : Except Outcome α) : Prop := Spares (· = .succeeded) result

theorem validate_checks (runtime : Runtime) (response : ProviderResponse) :
    Checks (response.validate runtime) := by
  apply Spares.bind
  · exact .raiseIf (by simp)
  · intro _ _
    exact .raiseIf (by simp)

/-- The executor returns only at a response that ends the loop. -/
theorem judge_final (returned : attempt.judge deployment response = .error .succeeded) :
    response.Final := by
  by_contra unfinished
  have checks : Checks (attempt.judge deployment response) := by
    apply Spares.bind (validate_checks _ _)
    intro _ _
    apply Spares.bind (.raiseIf (by simp))
    intro _ _
    apply Spares.ite
    · intro ends
      apply Spares.bind
      · exact .raiseIf (by simp)
      · intro _ said
        rw [raiseIf_eq_ok] at said
        exact absurd ⟨ends.1, ends.2, said⟩ unfinished
    · intro _
      apply Spares.bind (.raiseIf (by simp))
      intro _ _
      apply Spares.bind (.raiseIf (by simp))
      intro _ _
      exact .pure _
  exact checks _ returned rfl

theorem Attempt.Stands.judge (stands : attempt.Stands jsonb store runId)
    (responded : attempt.place = .responded response)
    (ok : attempt.judge deployment response = .ok next) : next.Stands jsonb store runId := by
  have before := stands.place
  rw [responded] at before
  obtain ⟨written, journalled, alike⟩ := before
  obtain ⟨calls, _, rfl⟩ := judge_calls ok
  exact ⟨stands.previous, written, journalled, fun none => calls (alike.calls.mpr none)⟩

/-- A run whose executor returns has been answered. -/
theorem Attempt.Stands.returned (stands : attempt.Stands jsonb store runId)
    (responded : attempt.place = .responded response)
    (ended : attempt.judge deployment response = .error .succeeded) :
    Answered jsonb store runId := by
  have before := stands.place
  rw [responded] at before
  obtain ⟨written, journalled, alike⟩ := before
  exact ⟨_, written, journalled, alike.final (judge_final ended)⟩

theorem Attempt.Stands.permit (stands : attempt.Stands jsonb store runId)
    (calling : attempt.place = .calling index (call :: rest))
    (ok : attempt.permit index call rest store context clock = .ok next) :
    next.Stands jsonb store runId := by
  have before := stands.place
  rw [calling] at before
  simp only [Attempt.permit, bind_eq_ok, raiseIf_eq_ok, pure_eq_ok, exists_and_left,
    exists_const] at ok
  obtain ⟨_, _, _, rfl⟩ := ok
  exact ⟨stands.previous, before⟩

theorem Attempt.Stands.resume (result : Json) (stands : attempt.Stands jsonb store runId)
    (invoking : attempt.place = .invoking index (call :: rest)) :
    (attempt.resume deployment index call rest result).Stands jsonb store runId := by
  have before := stands.place
  rw [invoking] at before
  unfold Attempt.resume
  split
  · refine ⟨fun stepNo follows => ?_, trivial⟩
    obtain rfl := Nat.succ.inj follows
    exact before
  · exact ⟨stands.previous, before⟩

end Loops

section Checks

variable {deployment : Deployment} {store : Run.Store} {context : Run.ExecutionContext}

theorem raised_checks {α : Type} (result : Except Run.Raised α) : Checks (raised result) := by
  apply Spares.mapError
  intro error
  cases error with
  | contract failure => cases failure <;> simp [Outcome.ofRaised]
  | _ => simp [Outcome.ofRaised]

theorem begin_checks (clock : Instant) : Checks (begin deployment store context clock) := by
  apply Spares.bind (.orRaise (by simp))
  intro _ _
  apply Spares.bind (raised_checks _)
  intro _ _
  apply Spares.bind (raised_checks _)
  intro _ _
  apply Spares.bind (.raiseIf (by simp))
  intro _ _
  apply Spares.bind (.orRaise (by simp))
  intro _ _
  exact .pure _

theorem retrieved_checks (attempt : Attempt) (evidence : PyStr) :
    Checks (attempt.retrieved deployment evidence) := by
  apply Spares.ite
  · intro _
    apply Spares.bind (.raiseIf (by simp))
    intro _ _
    exact .pure _
  · intro _
    exact .pure _

theorem check_checks (attempt : Attempt) (clock : Instant) :
    Checks (attempt.check store context clock) := by
  apply Spares.bind (.raiseIf (by simp))
  intro _ _
  apply Spares.bind (raised_checks _)
  intro _ _
  apply Spares.bind (.raiseIf (by simp))
  intro _ _
  exact .pure _

theorem route_checks (router : ModelRouter) (health : PyStr → ProviderHealth)
    (required : List ModelCapability) (allowedProviders : List PyStr) :
    Checks (router.route health required allowedProviders) := by
  apply Spares.bind (.raiseIf (by simp [Outcome.provider]))
  intro _ _
  apply Spares.bind (.orRaise (by simp [Outcome.provider]))
  intro _ _
  exact .pure _

theorem load_checks (attempt : Attempt) (health : PyStr → ProviderHealth) (clock : Instant) :
    Checks (attempt.load deployment store context health clock) := by
  apply Spares.bind (raised_checks _)
  intro _ _
  split
  · apply Spares.bind (.orRaise (by simp))
    intro _ _
    exact .pure _
  · apply Spares.bind (route_checks _ _ _ _)
    intro _ _
    exact .pure _

theorem receive_checks (attempt : Attempt) (decision : RoutingDecision)
    (response : ProviderResponse) : Checks (attempt.receive deployment decision response) := by
  apply Spares.bind (.raiseIf (by simp))
  intro _ _
  apply Spares.bind (validate_checks _ _)
  intro _ _
  exact .pure _

theorem permit_checks (attempt : Attempt) (index : Nat) (call : ProviderToolCall)
    (rest : List ProviderToolCall) (clock : Instant) :
    Checks (attempt.permit index call rest store context clock) := by
  apply Spares.bind (.raiseIf (by simp))
  intro _ _
  apply Spares.bind (raised_checks _)
  intro _ _
  exact .pure _

end Checks

end Nexora.Executor
