import Nexora.Std.Fallible
import Nexora.Data.Failure

/-!
# Budgets and their thresholds

The decision an owner records: a monthly limit, how it is enforced and at which
percentages of it to alert. Thresholds are stored normalized, so one crossing raises
one alert, and a threshold is reached by integer comparison alone.
-/

namespace Nexora.Spend

open Nexora.Std

/-- What a priced call was made for. -/
inductive SpendCategory where
  | agentRun
  | evaluationJudge
  | embedding
  deriving DecidableEq, Repr

/-- Whether a limit stops further paid work. -/
inductive BudgetEnforcement where
  | enforce
  | monitor
  deriving DecidableEq, Repr

/-- The largest limit a budget may set. -/
def maxLimitMicros : Nat := 1000000000000000

/-- How many thresholds a budget may declare. -/
def maxAlertThresholds : Nat := 5

/-- `tuple(sorted(set(values)))`, refused when it is too long or out of range. -/
def normalizeThresholds (values : List Int) : Except Failure (List Int) := do
  let thresholds := values.dedup.insertionSort (· ≤ ·)
  raiseIf (maxAlertThresholds < thresholds.length)
    (.valueError "at most 5 alert thresholds are allowed")
  raiseIf (∃ threshold ∈ thresholds, ¬ (1 ≤ threshold ∧ threshold ≤ 100))
    (.valueError "alert thresholds must be between 1 and 100 percent")
  pure thresholds

/-- A budget decision: its thresholds are distinct percentages in ascending order. -/
structure BudgetInput where
  monthlyLimitMicros : Nat
  enforcement : BudgetEnforcement
  alertThresholds : List Nat
  limitBounded : monthlyLimitMicros ≤ maxLimitMicros
  ascending : alertThresholds.Pairwise (· < ·)
  atMostFive : alertThresholds.length ≤ maxAlertThresholds
  percentages : ∀ threshold ∈ alertThresholds, 1 ≤ threshold ∧ threshold ≤ 100
  deriving DecidableEq

/-- Normalized thresholds are distinct percentages in ascending order, and the declared
ones. -/
theorem normalizeThresholds_ok {values thresholds : List Int}
    (ok : normalizeThresholds values = .ok thresholds) :
    thresholds.Pairwise (· < ·) ∧ thresholds.length ≤ maxAlertThresholds ∧
      (∀ threshold ∈ thresholds, 1 ≤ threshold ∧ threshold ≤ 100) ∧
      ∀ threshold, threshold ∈ thresholds ↔ threshold ∈ values := by
  simp only [normalizeThresholds, bind_eq_ok, raiseIf_eq_ok, pure_eq_ok] at ok
  obtain ⟨_, short, _, inRange, rfl⟩ := ok
  have sorted := values.dedup.pairwise_insertionSort (· ≤ ·)
  have distinct : (values.dedup.insertionSort (· ≤ ·)).Nodup :=
    (List.perm_insertionSort _ _).nodup_iff.mpr values.nodup_dedup
  refine ⟨?_, Nat.not_lt.mp short, ?_, ?_⟩
  · exact (sorted.and distinct).imp fun both => lt_of_le_of_ne both.1 both.2
  · intro threshold member
    by_contra outside
    exact inRange ⟨threshold, member, outside⟩
  · intro threshold
    simp

/-- A period's consumption has reached a percentage of a limit, compared without floating
point. -/
def reached (limitMicros consumedMicros threshold : Nat) : Bool :=
  threshold * limitMicros ≤ consumedMicros * 100

/-- Thresholds a period has reached. -/
def crossedThresholds (thresholds : List Nat) (limitMicros : Option Nat) (consumedMicros : Nat) :
    List Nat :=
  match limitMicros with
  | none => []
  | some limit => (thresholds.dedup.insertionSort (· ≤ ·)).filter (reached limit consumedMicros)

/-- Without spending, a percentage is reached of a limit of zero alone. -/
theorem reached_zero {limitMicros threshold : Nat} (positive : 1 ≤ threshold) :
    reached limitMicros 0 threshold = true ↔ limitMicros = 0 := by
  simp only [reached, Nat.zero_mul, Nat.le_zero, Nat.mul_eq_zero, decide_eq_true_eq]
  omega

end Nexora.Spend
