import Nexora.Executor.Advances
import Nexora.Executor.Results

/-!
# The budget of an attempt

A loop counts the tokens of the steps it is past, replayed, restored or fresh, and compares them
with its profile's limit at three places. What it counts is what the run's journal holds, so the
limit holds across the attempts of a run, whatever deployments they ran under.
-/

namespace Nexora.Executor

open Nexora.Std Nexora.Tools Json

/-- The tokens a provider reports for a response. -/
def ProviderUsage.tokens (usage : ProviderUsage) : Int :=
  usage.inputTokens.value + usage.outputTokens.value

/-- The tokens a run's journal holds for a step. -/
def stepTokens (store : Run.Store) (runId : Uuid) (stepNo : Nat) : Int :=
  (((store.modelSteps.find? (runId, stepNo)).bind fun row => decodeResponse row.response).map
    fun response => response.usage.tokens).getD 0

/-- The tokens of a run's first steps. -/
def usedTokens (store : Run.Store) (runId : Uuid) (steps : Nat) : Int :=
  ((List.range steps).map (stepTokens store runId)).sum

/-- The tokens of all steps of a run. -/
def runTokens (store : Run.Store) (runId : Uuid) : Int :=
  usedTokens store runId (journalOf store runId).length

/-- The request a loop sends a provider. -/
def Attempt.request (attempt : Attempt) (context : Run.ExecutionContext) : ProviderRequest where
  requestId := py s!"{context.runId.text}:{attempt.stepNo}:{context.attemptCount}"
  messages := attempt.messages
  tools := attempt.advertised
  maxOutputTokens :=
    min attempt.profile.maxOutputTokens (attempt.profile.maxTotalTokens - attempt.totalTokens)

/-- A loop is past the head of its current step. -/
def Place.isInside : Place → Bool
  | .retrieving | .looping => false
  | _ => true

/-- A loop has counted the tokens of its current step. -/
def Place.isCounted : Place → Bool
  | .calling _ _ | .permitted _ _ | .invoking _ _ => true
  | _ => false

/-- The steps a loop has begun. -/
def Attempt.begun (attempt : Attempt) : Nat :=
  attempt.stepNo + if attempt.place.isInside then 1 else 0

/-- The steps a loop has counted the tokens of. -/
def Attempt.counted (attempt : Attempt) : Nat :=
  attempt.stepNo + if attempt.place.isCounted then 1 else 0

/-- The moves a loop can make of one step: the checks, the load, two lookups, the request, the
save, the judgement, and three for each of sixteen calls. -/
def movesOfStep : Nat := 55

/-- The moves that are left of the step a loop is inside of. -/
def Place.movesLeft : Place → Nat
  | .retrieving | .looping => 0
  | .checked => 54
  | .routed _ lookups => 51 + lookups.length
  | .answered _ _ => 50
  | .responded _ => 49
  | .calling _ calls => 3 * calls.length
  | .permitted _ calls => 3 * calls.length - 1
  | .invoking _ calls => 3 * calls.length - 2

/-- The moves a loop can still make. -/
def Attempt.movesLeft (attempt : Attempt) : Nat :=
  (if attempt.place = .retrieving then 1 else 0) +
    movesOfStep * (attempt.profile.maxSteps - attempt.begun) + attempt.place.movesLeft

/-- The move that begins a step. -/
def Move.beginsStep : Move → Bool
  | .check _ => true
  | _ => false

section Counting

variable (jsonb : Json → Json) (store : Run.Store) (runId : Uuid)

/-- What a loop knows of its budget. -/
structure Attempt.Counted (attempt : Attempt) : Prop where
  begun : attempt.begun ≤ attempt.profile.maxSteps
  past : ∀ stepNo < attempt.counted, ∃ row, store.modelSteps.find? (runId, stepNo) = some row
  total : attempt.totalTokens = usedTokens store runId attempt.counted
  below : 0 ≤ attempt.totalTokens ∧ attempt.totalTokens < attempt.profile.maxTotalTokens
  recorded : ∀ response, attempt.place = .responded response →
    Recorded jsonb store runId attempt.stepNo response

end Counting

variable {response : ProviderResponse} {platform : Run.Platform}

section Used

variable {jsonb : Json → Json} {store next : Run.Store} {runId : Uuid} {stepNo : Nat}

theorem usedTokens_succ (steps : Nat) :
    usedTokens store runId (steps + 1) =
      usedTokens store runId steps + stepTokens store runId steps := by
  rw [usedTokens, List.range_succ, List.map_append, List.sum_append, List.map_singleton,
    List.sum_singleton]
  rfl

/-- Steps that are journalled count the same ever after. -/
theorem usedTokens_grows (grows : Extends store next) {steps : Nat}
    (past : ∀ stepNo < steps, ∃ row, store.modelSteps.find? (runId, stepNo) = some row) :
    usedTokens next runId steps = usedTokens store runId steps := by
  unfold usedTokens
  congr 1
  apply List.map_congr_left
  intro stepNo member
  obtain ⟨row, found⟩ := past stepNo (List.mem_range.mp member)
  rw [stepTokens, stepTokens, found, grows _ _ found]

theorem Recorded.mono (grows : Extends store next)
    (recorded : Recorded jsonb store runId stepNo response) :
    Recorded jsonb next runId stepNo response := by
  obtain ⟨written, journalled, same⟩ := recorded
  exact ⟨written, journalled.mono grows, same⟩

theorem Recorded.stepTokens (keeps : KeepsValues jsonb)
    (recorded : Recorded jsonb store runId stepNo response) :
    stepTokens store runId stepNo = response.usage.tokens := by
  obtain ⟨written, ⟨row, found, holds⟩, same⟩ := recorded
  simp [Executor.stepTokens, found, holds, keeps.decodeResponse_asDict, ProviderResponse.kept, same]

theorem Attempt.Counted.mono {attempt : Attempt} (grows : Extends store next)
    (counted : attempt.Counted jsonb store runId) : attempt.Counted jsonb next runId where
  begun := counted.begun
  past stepNo before := by
    obtain ⟨row, found⟩ := counted.past stepNo before
    exact ⟨row, grows _ _ found⟩
  total := by rw [usedTokens_grows grows counted.past, counted.total]
  below := counted.below
  recorded response at_ := (counted.recorded response at_).mono grows

end Used

section Functions

variable {deployment : Deployment} {store : Run.Store} {context : Run.ExecutionContext}
  {attempt next : Attempt}

/-- A loop that only moves on within its step. -/
structure Attempt.MovesOn (attempt next : Attempt) : Prop where
  profile : next.profile = attempt.profile
  stepNo : next.stepNo = attempt.stepNo
  totalTokens : next.totalTokens = attempt.totalTokens

theorem retrieved_movesOn {evidence : PyStr}
    (ok : attempt.retrieved deployment evidence = .ok next) :
    attempt.MovesOn next ∧ next.place = .looping := by
  unfold Attempt.retrieved at ok
  split at ok
  · simp only [bind_eq_ok, pure_eq_ok] at ok
    obtain ⟨_, _, rfl⟩ := ok
    exact ⟨⟨rfl, rfl, rfl⟩, rfl⟩
  · cases ok
    exact ⟨⟨rfl, rfl, rfl⟩, rfl⟩

theorem check_movesOn {clock : Instant} (ok : attempt.check store context clock = .ok next) :
    attempt.MovesOn next ∧ next.place = .checked ∧ attempt.stepNo < attempt.profile.maxSteps := by
  simp only [Attempt.check, bind_eq_ok, raiseIf_eq_ok, pure_eq_ok, not_le] at ok
  obtain ⟨_, before, _, _, _, _, rfl⟩ := ok
  exact ⟨⟨rfl, rfl, rfl⟩, rfl, before⟩

theorem lookups_length : (attempt.lookups deployment).length ≤ 2 := by
  unfold Attempt.lookups
  split
  · split <;> simp
  · simp

/-- A loop has its step from the journal, or has it routed. -/
theorem load_movesOn {health : PyStr → ProviderHealth} {clock : Instant}
    (keeps : KeepsValues deployment.platform.jsonb)
    (chained : Chained deployment.platform.jsonb store)
    (ok : attempt.load deployment store context health clock = .ok next) :
    attempt.MovesOn next ∧
      ((∃ response, next.place = .responded response ∧
          Recorded deployment.platform.jsonb store context.runId attempt.stepNo response) ∨
        ∃ decision lookups, next.place = .routed decision lookups ∧ lookups.length ≤ 2) := by
  simp only [Attempt.load, bind_eq_ok] at ok
  obtain ⟨_, _, ok⟩ := ok
  split at ok
  case h_1 row found =>
    simp only [bind_eq_ok, orRaise_eq_ok, pure_eq_ok] at ok
    obtain ⟨response, decoded, rfl⟩ := ok
    obtain ⟨_, written, holds, _⟩ := chained.rows _ _ _ found
    rw [holds, keeps.decodeResponse_asDict] at decoded
    cases decoded
    exact ⟨⟨rfl, rfl, rfl⟩, .inl ⟨_, rfl, written, ⟨row, found, holds⟩, rfl⟩⟩
  case h_2 =>
    simp only [bind_eq_ok, pure_eq_ok] at ok
    obtain ⟨decision, _, rfl⟩ := ok
    exact ⟨⟨rfl, rfl, rfl⟩, .inr ⟨decision, _, rfl, lookups_length⟩⟩

theorem receive_movesOn {decision : RoutingDecision}
    (ok : attempt.receive deployment decision response = .ok next) :
    attempt.MovesOn next ∧ next.place = .answered decision response := by
  simp only [Attempt.receive, bind_eq_ok, pure_eq_ok] at ok
  obtain ⟨_, _, _, _, rfl⟩ := ok
  exact ⟨⟨rfl, rfl, rfl⟩, rfl⟩

/-- A response takes the loop to its calls only if the budget is not spent with it. -/
theorem judge_counts (ok : attempt.judge deployment response = .ok next) :
    next = { attempt with
        totalTokens := attempt.totalTokens + response.usage.tokens
        place := .calling 0 response.toolCalls } ∧
      0 ≤ response.usage.tokens ∧
      attempt.totalTokens + response.usage.tokens < attempt.profile.maxTotalTokens ∧
      response.toolCalls.length ≤ 16 := by
  simp only [Attempt.judge, bind_eq_ok, raiseIf_eq_ok, exists_and_left, exists_const, not_lt] at ok
  obtain ⟨_, valid, inside, ok⟩ := ok
  have accepted := accepted_of_validate valid
  split at ok
  · simp only [bind_eq_ok] at ok
    obtain ⟨_, _, impossible⟩ := ok
    cases impossible
  · simp only [bind_eq_ok, raiseIf_eq_ok, pure_eq_ok, exists_and_left, exists_const] at ok
    obtain ⟨_, unspent, rfl⟩ := ok
    refine ⟨rfl, add_nonneg accepted.inputTokens accepted.outputTokens, ?_, accepted.calls⟩
    exact lt_of_le_of_ne inside unspent

/-- An executor returns only within its budget. -/
theorem judge_succeeds (ended : attempt.judge deployment response = .error .succeeded) :
    attempt.totalTokens + response.usage.tokens ≤ attempt.profile.maxTotalTokens := by
  by_contra exceeded
  have checks : Checks (attempt.judge deployment response) := by
    apply Spares.bind (validate_checks _ _)
    intro _ _
    apply Spares.bind (.raiseIf (by simp))
    intro _ inside
    rw [raiseIf_eq_ok] at inside
    exact absurd (not_lt.mp inside) exceeded
  exact checks _ ended rfl

theorem permit_movesOn {index : Nat} {call : ProviderToolCall} {rest : List ProviderToolCall}
    {clock : Instant} (ok : attempt.permit index call rest store context clock = .ok next) :
    attempt.MovesOn next ∧ next.place = .permitted index (call :: rest) := by
  simp only [Attempt.permit, bind_eq_ok, pure_eq_ok] at ok
  obtain ⟨_, _, _, _, rfl⟩ := ok
  exact ⟨⟨rfl, rfl, rfl⟩, rfl⟩

theorem begin_counted {jsonb : Json → Json} {runId : Uuid} {clock : Instant}
    (ok : begin deployment store context clock = .ok attempt) :
    attempt.Counted jsonb store runId ∧ attempt.stepNo = 0 ∧ attempt.place = .retrieving := by
  simp only [begin, bind_eq_ok, raiseIf_eq_ok, pure_eq_ok, exists_and_left, exists_const] at ok
  obtain ⟨profile, _, _, _, _, _, _, _, _, rfl⟩ := ok
  refine ⟨⟨Nat.zero_le _, ?_, rfl, ⟨le_refl 0, ?_⟩, by simp⟩, rfl, rfl⟩
  · intro stepNo before
    exact absurd before (Nat.not_lt_zero _)
  · have positive := profile.maxTotalTokens_range.1
    change (0 : Int) < profile.maxTotalTokens
    omega

end Functions

section Moving

variable {deployment : Deployment} {before after : Run.Store} {context : Run.ExecutionContext}
  {attempt next : Attempt} {move : Move} {jsonb : Json → Json} {store : Run.Store} {runId : Uuid}

/-- A loop that moves on without counting knows its budget where it comes to. -/
theorem Attempt.Counted.movesOn (counted : attempt.Counted jsonb store runId)
    (moves : attempt.MovesOn next) (same : next.place.isCounted = attempt.place.isCounted)
    (begun : next.place.isInside = attempt.place.isInside ∨
      attempt.stepNo < attempt.profile.maxSteps)
    (recorded : ∀ response, next.place = .responded response →
      Recorded jsonb store runId attempt.stepNo response) :
    next.Counted jsonb store runId := by
  have steps : next.counted = attempt.counted := by
    rw [Attempt.counted, Attempt.counted, moves.stepNo, same]
  refine ⟨?_, ?_, ?_, ?_, ?_⟩
  · rw [moves.profile]
    rcases begun with same | inTime
    · have alike : next.begun = attempt.begun := by
        rw [Attempt.begun, Attempt.begun, moves.stepNo, same]
      rw [alike]
      exact counted.begun
    · rw [Attempt.begun, moves.stepNo]
      split <;> omega
  · rw [steps]
    exact counted.past
  · rw [steps, moves.totalTokens]
    exact counted.total
  · rw [moves.totalTokens, moves.profile]
    exact counted.below
  · intro response at_
    rw [moves.stepNo]
    exact recorded response at_

/-- A loop that has been through its step knows its budget at the next. -/
theorem Attempt.Counted.advance (keeps : KeepsValues deployment.platform.jsonb)
    (chained : Chained deployment.platform.jsonb before) (grows : Extends before after)
    (earlier : attempt.Counted deployment.platform.jsonb before context.runId)
    (advances : Advances deployment before after context attempt move next) :
    next.Counted deployment.platform.jsonb after context.runId := by
  have counted := earlier.mono grows
  have inside := counted.begun
  cases advances with
  | retrieved at_ ok =>
    obtain ⟨moves, place⟩ := retrieved_movesOn ok
    exact counted.movesOn moves (by rw [place, at_]; rfl) (.inl (by rw [place, at_]; rfl))
      (by simp [place])
  | check at_ ok =>
    obtain ⟨moves, place, inTime⟩ := check_movesOn ok
    exact counted.movesOn moves (by rw [place, at_]; rfl) (.inr inTime) (by simp [place])
  | load at_ ok =>
    obtain ⟨moves, ⟨response, place, recorded⟩ | ⟨decision, lookups, place, _⟩⟩ :=
      load_movesOn keeps chained ok
    · refine counted.movesOn moves (by rw [place, at_]; rfl) (.inl (by rw [place, at_]; rfl)) ?_
      intro other same
      rw [place] at same
      cases same
      exact recorded.mono grows
    · exact counted.movesOn moves (by rw [place, at_]; rfl) (.inl (by rw [place, at_]; rfl))
        (by simp [place])
  | missed at_ =>
    exact counted.movesOn ⟨rfl, rfl, rfl⟩ (by rw [at_]; rfl) (.inl (by rw [at_]; rfl)) (by simp)
  | restored at_ recorded =>
    refine counted.movesOn ⟨rfl, rfl, rfl⟩ (by rw [at_]; rfl) (.inl (by rw [at_]; rfl)) ?_
    rintro _ ⟨⟩
    exact recorded
  | skip at_ =>
    exact counted.movesOn ⟨rfl, rfl, rfl⟩ (by rw [at_]; rfl) (.inl (by rw [at_]; rfl)) (by simp)
  | receive at_ ok =>
    obtain ⟨moves, place⟩ := receive_movesOn ok
    exact counted.movesOn moves (by rw [place, at_]; rfl) (.inl (by rw [place, at_]; rfl))
      (by simp [place])
  | save at_ recorded =>
    refine counted.movesOn ⟨rfl, rfl, rfl⟩ (by rw [at_]; rfl) (.inl (by rw [at_]; rfl)) ?_
    rintro _ ⟨⟩
    exact recorded
  | @judge response next at_ ok =>
    obtain ⟨rfl, tokens, unspent, _⟩ := judge_counts ok
    have recorded := counted.recorded response at_
    have uncounted : attempt.counted = attempt.stepNo := by
      rw [Attempt.counted, at_]
      rfl
    have begun : attempt.begun = attempt.stepNo + 1 := by
      rw [Attempt.begun, at_]
      rfl
    rw [begun] at inside
    have past := counted.past
    have total := counted.total
    rw [uncounted] at past total
    refine ⟨inside, ?_, ?_, ⟨add_nonneg counted.below.1 tokens, unspent⟩, by simp⟩
    · intro stepNo within
      rcases Nat.lt_succ_iff_lt_or_eq.mp within with less | rfl
      · exact past stepNo less
      · obtain ⟨written, ⟨row, found, _⟩, _⟩ := recorded
        exact ⟨row, found⟩
    · change _ = usedTokens after context.runId (attempt.stepNo + 1)
      rw [usedTokens_succ, ← total, recorded.stepTokens keeps]
  | permit at_ ok =>
    obtain ⟨moves, place⟩ := permit_movesOn ok
    exact counted.movesOn moves (by rw [place, at_]; rfl) (.inl (by rw [place, at_]; rfl))
      (by simp [place])
  | invoke at_ =>
    exact counted.movesOn ⟨rfl, rfl, rfl⟩ (by rw [at_]; rfl) (.inl (by rw [at_]; rfl)) (by simp)
  | resume at_ =>
    have counts : attempt.counted = attempt.stepNo + 1 := by
      rw [Attempt.counted, at_]
      rfl
    have begun : attempt.begun = attempt.stepNo + 1 := by
      rw [Attempt.begun, at_]
      rfl
    have past := counted.past
    have total := counted.total
    rw [counts] at past total
    rw [begun] at inside
    unfold Attempt.resume
    split
    · exact ⟨inside, past, total, counted.below, by simp⟩
    · exact ⟨inside, past, total, counted.below, by simp⟩

/-- A loop's own step leaves it fewer moves. -/
theorem Advances.movesLeft_lt (keeps : KeepsValues deployment.platform.jsonb)
    (chained : Chained deployment.platform.jsonb before)
    (counted : attempt.Counted deployment.platform.jsonb before context.runId)
    (advances : Advances deployment before after context attempt move next) :
    next.movesLeft < attempt.movesLeft := by
  have inside := counted.begun
  unfold Attempt.begun at inside
  unfold Attempt.movesLeft Attempt.begun movesOfStep
  cases advances with
  | retrieved at_ ok =>
    obtain ⟨moves, place⟩ := retrieved_movesOn ok
    simp [at_, place, moves.profile, moves.stepNo, Place.isInside, Place.movesLeft]
  | check at_ ok =>
    obtain ⟨moves, place, inTime⟩ := check_movesOn ok
    simp only [at_, place, moves.profile, moves.stepNo, Place.isInside, Place.movesLeft]
    simp
    omega
  | load at_ ok =>
    obtain ⟨moves, ⟨response, place, recorded⟩ | ⟨decision, lookups, place, few⟩⟩ :=
      load_movesOn keeps chained ok
    · simp [at_, place, moves.profile, moves.stepNo, Place.isInside, Place.movesLeft]
    · simp only [at_, place, moves.profile, moves.stepNo, Place.isInside, Place.movesLeft]
      simp
      omega
  | missed at_ => simp [at_, Place.isInside, Place.movesLeft]
  | restored at_ recorded =>
    simp only [at_, Place.isInside, Place.movesLeft]
    simp
    omega
  | skip at_ => simp [at_, Place.isInside, Place.movesLeft]
  | receive at_ ok =>
    obtain ⟨moves, place⟩ := receive_movesOn ok
    simp [at_, place, moves.profile, moves.stepNo, Place.isInside, Place.movesLeft]
  | save at_ recorded => simp [at_, Place.isInside, Place.movesLeft]
  | judge at_ ok =>
    obtain ⟨rfl, _, _, few⟩ := judge_counts ok
    simp only [at_, Place.isInside, Place.movesLeft]
    simp
    omega
  | permit at_ ok =>
    obtain ⟨moves, place⟩ := permit_movesOn ok
    simp only [at_, place, moves.profile, moves.stepNo, Place.isInside, Place.movesLeft,
      List.length_cons]
    simp
  | invoke at_ =>
    simp only [at_, Place.isInside, Place.movesLeft, List.length_cons]
    simp
    omega
  | @resume index call rest result at_ =>
    rw [at_] at inside
    simp only [Place.isInside, if_true] at inside
    unfold Attempt.resume
    split
    · simp only [at_, Place.isInside, Place.movesLeft, List.length_cons]
      simp
      omega
    · simp only [at_, Place.isInside, Place.movesLeft, List.length_cons]
      simp
      omega

/-- A loop begins a step where it passes its head. -/
theorem Advances.begun_eq (keeps : KeepsValues deployment.platform.jsonb)
    (chained : Chained deployment.platform.jsonb before)
    (advances : Advances deployment before after context attempt move next) :
    next.begun = attempt.begun + if move.beginsStep then 1 else 0 := by
  unfold Attempt.begun
  cases advances with
  | retrieved at_ ok =>
    obtain ⟨moves, place⟩ := retrieved_movesOn ok
    simp [at_, place, moves.stepNo, Place.isInside, Move.beginsStep]
  | check at_ ok =>
    obtain ⟨moves, place, _⟩ := check_movesOn ok
    simp [at_, place, moves.stepNo, Place.isInside, Move.beginsStep]
  | load at_ ok =>
    obtain ⟨moves, ⟨response, place, _⟩ | ⟨decision, lookups, place, _⟩⟩ :=
      load_movesOn keeps chained ok
    · simp [at_, place, moves.stepNo, Place.isInside, Move.beginsStep]
    · simp [at_, place, moves.stepNo, Place.isInside, Move.beginsStep]
  | receive at_ ok =>
    obtain ⟨moves, place⟩ := receive_movesOn ok
    simp [at_, place, moves.stepNo, Place.isInside, Move.beginsStep]
  | judge at_ ok =>
    obtain ⟨rfl, _⟩ := judge_counts ok
    simp [at_, Place.isInside, Move.beginsStep]
  | permit at_ ok =>
    obtain ⟨moves, place⟩ := permit_movesOn ok
    simp [at_, place, moves.stepNo, Place.isInside, Move.beginsStep]
  | resume at_ =>
    unfold Attempt.resume
    split
    · simp [at_, Place.isInside, Move.beginsStep]
    · simp [at_, Place.isInside, Move.beginsStep]
  | missed at_ | restored at_ _ | skip at_ | save at_ _ | invoke at_ =>
    simp [at_, Place.isInside, Move.beginsStep]

end Moving

section Success

variable {jsonb : Json → Json} {store next : Run.Store} {runId : Uuid}

/-- A run's journal ends with a step without calls, within a limit. -/
structure Spent (jsonb : Json → Json) (store : Run.Store) (runId : Uuid) (last limit : Nat) :
    Prop where
  rows : ∀ stepNo < last + 1, ∃ row, store.modelSteps.find? (runId, stepNo) = some row
  final : ∃ written, Journalled jsonb store runId last written ∧ written.toolCalls = []
  tokens : usedTokens store runId (last + 1) ≤ limit

theorem Spent.mono {last limit : Nat} (grows : Extends store next)
    (spent : Spent jsonb store runId last limit) : Spent jsonb next runId last limit where
  rows stepNo before := by
    obtain ⟨row, found⟩ := spent.rows stepNo before
    exact ⟨row, grows _ _ found⟩
  final := by
    obtain ⟨written, journalled, none⟩ := spent.final
    exact ⟨written, journalled.mono grows, none⟩
  tokens := by
    rw [usedTokens_grows grows spent.rows]
    exact spent.tokens

/-- Nothing is journalled after a step without calls. -/
theorem Spent.runTokens_le {last limit : Nat} (keeps : KeepsValues jsonb)
    (chained : Chained jsonb store) (spent : Spent jsonb store runId last limit) :
    runTokens store runId ≤ limit := by
  have numbers : (journalOf store runId).map Prod.fst = List.range (journalOf store runId).length :=
    journalOf_numbers chained
  have listed (stepNo : Nat) : stepNo < (journalOf store runId).length ↔
      ∃ row, store.modelSteps.find? (runId, stepNo) = some row := by
    rw [← List.mem_range, ← numbers, List.mem_map]
    constructor
    · rintro ⟨⟨_, row⟩, member, rfl⟩
      exact ⟨row, mem_journalOf.mp member⟩
    · rintro ⟨row, found⟩
      exact ⟨(stepNo, row), mem_journalOf.mpr found, rfl⟩
  have atLeast : last < (journalOf store runId).length :=
    (listed last).mpr (spent.rows last (Nat.lt_succ_self last))
  have atMost : ¬ last + 1 < (journalOf store runId).length := by
    intro more
    obtain ⟨row, found⟩ := (listed (last + 1)).mp more
    obtain ⟨response, ⟨own, isOwn, holds⟩, calls⟩ := chained.previous runId last row found
    obtain ⟨written, ⟨other, isOther, same⟩, none⟩ := spent.final
    rw [isOwn] at isOther
    cases isOther
    have decoded := keeps.decodeResponse_asDict response
    rw [← holds, same, keeps.decodeResponse_asDict] at decoded
    have alike := congrArg ProviderResponse.toolCalls (Option.some.inj decoded)
    simp only [ProviderResponse.kept, none, List.map_nil] at alike
    exact calls (List.map_eq_nil_iff.mp alike.symm)
  have length : (journalOf store runId).length = last + 1 := by
    omega
  rw [runTokens, length]
  exact spent.tokens

/-- An executor that returns has spent no more than its limit. -/
theorem spent_of_judge {deployment : Deployment} {attempt : Attempt} (keeps : KeepsValues jsonb)
    (counted : attempt.Counted jsonb store runId) (stands : attempt.Stands jsonb store runId)
    (at_ : attempt.place = .responded response)
    (ended : attempt.judge deployment response = .error .succeeded) :
    Spent jsonb store runId attempt.stepNo attempt.profile.maxTotalTokens := by
  have recorded := counted.recorded response at_
  have uncounted : attempt.counted = attempt.stepNo := by
    rw [Attempt.counted, at_]
    rfl
  have past := counted.past
  have total := counted.total
  rw [uncounted] at past total
  refine ⟨?_, ?_, ?_⟩
  · intro stepNo within
    rcases Nat.lt_succ_iff_lt_or_eq.mp within with less | rfl
    · exact past stepNo less
    · obtain ⟨written, ⟨row, found, _⟩, _⟩ := recorded
      exact ⟨row, found⟩
  · have place := stands.place
    rw [at_] at place
    obtain ⟨written, journalled, alike⟩ := place
    exact ⟨written, journalled, alike.calls.mp (judge_final ended).calls⟩
  · rw [usedTokens_succ, ← total, recorded.stepTokens keeps]
    exact judge_succeeds ended

end Success

/-- Workers whose deployments differ, also from step to step, on one platform. -/
def fleet (platform : Run.Platform) : Machine System (Deployment × Label) where
  Initial := Opening
  Step := fun system label next =>
    label.1.platform = platform ∧ system.run label.1 label.2 = .ok next

/-- The moves of some kind that a worker's loop has made since it was begun. -/
def movesSince (counts : Move → Bool) (workerId : String)
    (history : List (Transition System (Deployment × Label))) : Nat :=
  history.foldl (fun moves transition =>
    match transition.label.2 with
    | .begin other _ => if other = workerId then 0 else moves
    | .loop other move => if other = workerId && counts move then moves + 1 else moves
    | _ => moves) 0

/-- A loop keeps to its profile: it has begun no more steps than it may and comes to an end; it has
tokens left, having counted what the journal holds; and a request it sends now asks for at least
one token, and for no more than are left. -/
structure Attempt.KeepsBudget (store : Run.Store) (context : Run.ExecutionContext)
    (steps moves : Nat) (attempt : Attempt) : Prop where
  steps : steps ≤ attempt.profile.maxSteps
  ends : moves ≤ 1 + movesOfStep * attempt.profile.maxSteps
  counts : attempt.totalTokens = usedTokens store context.runId attempt.counted
  unspent : attempt.totalTokens < attempt.profile.maxTotalTokens
  asks : ∀ decision, attempt.place = .routed decision [] →
    let request := attempt.request context
    1 ≤ request.maxOutputTokens ∧ request.maxOutputTokens ≤ attempt.profile.maxOutputTokens ∧
      request.maxOutputTokens ≤ attempt.profile.maxTotalTokens -
        usedTokens store context.runId attempt.stepNo

section History

variable {history : List (Transition System (Deployment × Label))} {system next : System}
  {deployment : Deployment} {label : Label} {counts : Move → Bool} {workerId : String}

theorem movesSince_other (notOwn : label.isOwn workerId = false) :
    movesSince counts workerId (history ++ [⟨system, (deployment, label), next⟩]) =
      movesSince counts workerId history := by
  rw [movesSince, List.foldl_append]
  cases label with
  | begin other clock =>
    have distinct : ¬ other = workerId := of_decide_eq_false notOwn
    simp [distinct, movesSince]
  | loop other move =>
    have distinct : ¬ other = workerId := of_decide_eq_false notOwn
    simp [distinct, movesSince]
  | platform label => rfl
  | fail other outcome => rfl

theorem movesSince_begin {clock : Instant} :
    movesSince counts workerId
      (history ++ [⟨system, (deployment, .begin workerId clock), next⟩]) = 0 := by
  simp [movesSince]

theorem movesSince_loop {move : Move} :
    movesSince counts workerId
        (history ++ [⟨system, (deployment, .loop workerId move), next⟩]) =
      movesSince counts workerId history + if counts move then 1 else 0 := by
  rw [movesSince, List.foldl_append]
  cases counted : counts move with
  | true => simp [counted, movesSince]
  | false => simp [counted, movesSince]

end History

/-- A run has been answered within the budget of the attempt that returned. -/
def AnsweredWithin (jsonb : Json → Json) (history : List (Transition System (Deployment × Label)))
    (store : Run.Store) (runId : Uuid) : Prop :=
  ∃ transition ∈ history, ∃ workerId attempt response,
    Returns transition.label.1 transition.before transition.label.2 workerId runId attempt
      response ∧ Spent jsonb store runId attempt.stepNo attempt.profile.maxTotalTokens

theorem AnsweredWithin.mono {jsonb : Json → Json}
    {history later : List (Transition System (Deployment × Label))} {store next : Run.Store}
    {runId : Uuid} (grows : Extends store next)
    (answered : AnsweredWithin jsonb history store runId) :
    AnsweredWithin jsonb (history ++ later) next runId := by
  obtain ⟨transition, member, workerId, attempt, response, returns, spent⟩ := answered
  exact ⟨transition, List.mem_append_left _ member, workerId, attempt, response, returns,
    spent.mono grows⟩

/-- The invariant of a fleet. -/
structure Budgeted (platform : Run.Platform)
    (history : List (Transition System (Deployment × Label))) (system : System) : Prop where
  chained : Chained platform.jsonb system.platform.store
  sound : ∀ deployment : Deployment, deployment.platform = platform → Sound deployment system
  loops : ∀ workerId attempt, system.attempts.find? workerId = some attempt →
    ∃ session, system.platform.sessions.find? workerId = some session ∧
      attempt.Counted platform.jsonb system.platform.store session.context.runId ∧
      movesSince Move.beginsStep workerId history = attempt.begun ∧
      movesSince (fun _ => true) workerId history + attempt.movesLeft ≤
        1 + movesOfStep * attempt.profile.maxSteps
  returned : ∀ workerId session, system.platform.sessions.find? workerId = some session →
    session.stage = .returned →
      AnsweredWithin platform.jsonb history system.platform.store session.context.runId
  succeeded : ∀ runId run, system.platform.store.agentRuns.find? runId = some run →
    run.status = .succeeded → AnsweredWithin platform.jsonb history system.platform.store runId

/-- What is sound for one deployment is sound for another on the same platform. -/
theorem Sound.of_platform {deployment other : Deployment} {system : System}
    (same : other.platform = deployment.platform) (sound : Sound deployment system) :
    Sound other system := by
  obtain ⟨chained, backed, loops⟩ := sound
  rw [← same] at chained backed loops
  exact ⟨chained, backed, loops⟩

theorem Advances.profile_eq {deployment : Deployment} {before after : Run.Store}
    {context : Run.ExecutionContext} {attempt next : Attempt} {move : Move}
    (keeps : KeepsValues deployment.platform.jsonb)
    (chained : Chained deployment.platform.jsonb before)
    (advances : Advances deployment before after context attempt move next) :
    next.profile = attempt.profile := by
  cases advances with
  | retrieved _ ok => exact (retrieved_movesOn ok).1.profile
  | check _ ok => exact (check_movesOn ok).1.profile
  | load _ ok => exact (load_movesOn keeps chained ok).1.profile
  | receive _ ok => exact (receive_movesOn ok).1.profile
  | judge _ ok => rw [(judge_counts ok).1]
  | permit _ ok => exact (permit_movesOn ok).1.profile
  | resume =>
    unfold Attempt.resume
    split <;> rfl
  | missed | restored | skip | save | invoke => rfl

theorem Budgeted.step (keeps : KeepsValues platform.jsonb)
    {history : List (Transition System (Deployment × Label))} {system next : System}
    {deployment : Deployment} {label : Label} (budgeted : Budgeted platform history system)
    (onPlatform : deployment.platform = platform) (ok : system.run deployment label = .ok next) :
    Budgeted platform (history ++ [⟨system, (deployment, label), next⟩]) next := by
  subst onPlatform
  have sound := budgeted.sound deployment rfl
  have effect := Effect.of_run keeps sound.chained ok
  have nextSound := sound.step keeps ok
  refine ⟨nextSound.chained, fun other same => nextSound.of_platform same, ?_, ?_, ?_⟩
  · intro workerId attempt found
    cases effect.loops workerId attempt found with
    | kept before notOwn stays =>
      obtain ⟨session, held, counted, steps, moves⟩ := budgeted.loops workerId attempt before
      obtain ⟨after, stood, same⟩ := stays session held
      rw [movesSince_other notOwn, movesSince_other notOwn]
      refine ⟨after, stood, ?_, steps, moves⟩
      rw [same]
      exact counted.mono effect.grows
    | @begun clock session isBegin held began =>
      obtain ⟨counted, first, place⟩ :=
        @begin_counted _ _ _ _ deployment.platform.jsonb session.context.runId _ began
      subst isBegin
      rw [movesSince_begin, movesSince_begin]
      refine ⟨session, held, counted.mono effect.grows, ?_, ?_⟩
      · simp [Attempt.begun, first, place, Place.isInside]
      · simp [Attempt.movesLeft, Attempt.begun, first, place, Place.isInside, Place.movesLeft]
    | @advanced move session after earlier isMove stood held stays same advances =>
      obtain ⟨other, also, counted, steps, moves⟩ := budgeted.loops workerId earlier stood
      rw [held] at also
      cases also
      subst isMove
      rw [movesSince_loop, movesSince_loop, steps, advances.begun_eq keeps sound.chained,
        advances.profile_eq keeps sound.chained]
      have fewer := advances.movesLeft_lt keeps sound.chained counted
      refine ⟨after, stays, ?_, rfl, ?_⟩
      · rw [same]
        exact counted.advance keeps sound.chained effect.grows advances
      · simp only [if_true]
        omega
  · intro workerId session found ended
    rcases effect.returned workerId session found ended with
      ⟨earlier, stood, same, already⟩ | ⟨attempt, response, returns⟩
    · rw [← same]
      exact (budgeted.returned workerId earlier stood already).mono effect.grows
    · obtain ⟨holder, held, sameRun⟩ := returns.holds
      obtain ⟨other, also, counted, _⟩ := budgeted.loops workerId attempt returns.found
      obtain ⟨third, alsoThird, stands⟩ := sound.loops workerId attempt returns.found
      rw [held] at also alsoThird
      cases also
      cases alsoThird
      rw [sameRun] at counted stands
      refine ⟨_, List.mem_append_right _ (List.mem_singleton_self _), workerId, attempt, response,
        returns, ?_⟩
      exact (spent_of_judge keeps counted stands returns.place returns.judged).mono effect.grows
  · intro runId run found ended
    rcases effect.succeeded runId run found ended with
      ⟨earlier, stood, already⟩ | ⟨workerId, session, held, returned, rfl⟩
    · exact (budgeted.succeeded runId earlier stood already).mono effect.grows
    · rw [← sound.backed.jobs workerId session held]
      exact (budgeted.returned workerId session held returned).mono effect.grows

theorem Budgeted.opening {system : System} (opening : Opening system) :
    Budgeted platform [] system := by
  have sound : ∀ deployment : Deployment, deployment.platform = platform → Sound deployment system :=
    fun _ _ => .opening opening
  obtain ⟨⟨quiet, memberships, agentDefinitions, unused⟩, idle⟩ := opening
  refine ⟨⟨?_, ?_, ?_⟩, sound, ?_, ?_, ?_⟩
  · simp [unused, Run.Store.empty]
  · simp [unused, Run.Store.empty]
  · simp [unused, Run.Store.empty]
  · simp [idle]
  · simp [quiet]
  · simp [unused, Run.Store.empty]

theorem budgeted_of_runs (keeps : KeepsValues platform.jsonb)
    {history : List (Transition System (Deployment × Label))} {system : System}
    (runs : (fleet platform).Runs history system) : Budgeted platform history system := by
  apply runs.invariantWithHistory (Budgeted platform) (fun _ => .opening)
  rintro history state ⟨deployment, label⟩ next budgeted ⟨onPlatform, ok⟩
  exact budgeted.step keeps onPlatform ok

theorem Attempt.Counted.keepsBudget {jsonb : Json → Json} {store : Run.Store}
    {context : Run.ExecutionContext} {attempt : Attempt} {moves : Nat}
    (counted : attempt.Counted jsonb store context.runId)
    (bounded : moves + attempt.movesLeft ≤ 1 + movesOfStep * attempt.profile.maxSteps) :
    attempt.KeepsBudget store context attempt.begun moves where
  steps := counted.begun
  ends := le_trans (Nat.le_add_right _ _) bounded
  counts := counted.total
  unspent := counted.below.2
  asks decision at_ := by
    have uncounted : attempt.counted = attempt.stepNo := by
      rw [Attempt.counted, at_]
      rfl
    have total := counted.total
    rw [uncounted] at total
    have unspent := counted.below.2
    have positive := attempt.profile.maxOutputTokens_range.1
    rw [← total]
    unfold Attempt.request
    dsimp only
    omega

/-- An executor keeps to its profile's steps and tokens whatever the earlier attempts of its run
have journalled and the providers answer; a run that has succeeded has spent no more than the
attempt that returned was allowed; and the steps of a journal are numbered from 0 on. -/
theorem execution_keeps_budget (platform : Run.Platform) (keeps : KeepsValues platform.jsonb)
    (history : List (Transition System (Deployment × Label))) (system : System)
    (runs : (fleet platform).Runs history system) :
    (∀ workerId attempt, system.attempts.find? workerId = some attempt →
      ∃ session, system.platform.sessions.find? workerId = some session ∧
        attempt.KeepsBudget system.platform.store session.context
          (movesSince Move.beginsStep workerId history)
          (movesSince (fun _ => true) workerId history)) ∧
    (∀ runId run, system.platform.store.agentRuns.find? runId = some run →
      run.status = .succeeded → ∃ transition ∈ history, ∃ workerId attempt response,
        Returns transition.label.1 transition.before transition.label.2 workerId runId attempt
          response ∧
        runTokens system.platform.store runId ≤ attempt.profile.maxTotalTokens) ∧
    ∀ runId, (journalOf system.platform.store runId).map Prod.fst =
      List.range (journalOf system.platform.store runId).length := by
  have budgeted := budgeted_of_runs keeps runs
  refine ⟨?_, ?_, fun runId => journalOf_numbers budgeted.chained⟩
  · intro workerId attempt found
    obtain ⟨session, held, counted, steps, moves⟩ := budgeted.loops workerId attempt found
    rw [steps]
    exact ⟨session, held, counted.keepsBudget moves⟩
  · intro runId run found ended
    obtain ⟨transition, member, workerId, attempt, response, returns, spent⟩ :=
      budgeted.succeeded runId run found ended
    exact ⟨transition, member, workerId, attempt, response, returns,
      spent.runTokens_le keeps budgeted.chained⟩

/-- A run of workers of one deployment is one of a fleet. -/
theorem fleet_of_runs {deployment : Deployment} {history : List (Transition System Label)}
    {system : System} (runs : (machine deployment).Runs history system) :
    (fleet deployment.platform).Runs
      (history.map fun transition =>
        ⟨transition.before, (deployment, transition.label), transition.after⟩) system := by
  induction runs with
  | initial opening => exact .initial opening
  | step prior ok ih =>
    rw [List.map_append]
    exact .step ih ⟨rfl, ok⟩

/-- `execution_keeps_budget` applies to a run whose model answers at once, within its budget. -/
theorem execution_keeps_budget_answered :
    ∃ history system, (fleet exampleDeployment.platform).Runs history system ∧
      ∃ run, system.platform.store.agentRuns.find? 3 = some run ∧ run.status = .succeeded ∧
        ∃ transition ∈ history, ∃ workerId attempt response,
          Returns transition.label.1 transition.before transition.label.2 workerId 3 attempt
            response ∧ runTokens system.platform.store 3 ≤ attempt.profile.maxTotalTokens := by
  obtain ⟨history, system, runs, checked⟩ := Machine.exists_run_of_trace Opening
    (fun system label => system.run exampleDeployment label)
    (exampleAttempt ⟨some (py "answer"), [], none, ⟨.int 1, .int 1⟩, "stop"⟩ ++
      [.platform (.finish "worker" 9 0 1)]) exampleOpening
    (fun _ system =>
      (system.platform.store.agentRuns.find? 3).any fun run => run.status = .succeeded)
    opening_exampleOpening (by decide +kernel)
  obtain ⟨run, stored, succeeded⟩ := (Option.any_eq_true _ _).mp checked
  have ended : run.status = .succeeded := of_decide_eq_true succeeded
  obtain ⟨_, answered, _⟩ := execution_keeps_budget exampleDeployment.platform keepsValues_id _
    system (fleet_of_runs runs)
  exact ⟨_, system, fleet_of_runs runs, run, stored, ended, answered 3 run stored ended⟩

end Nexora.Executor
