import Mathlib

/-!
# Sums of two reciprocals

Two sums of at most two reciprocals of small numbers are equal or apart by more than a rounding
can move them, so rounded sums are in the order of the exact ones.
-/

namespace Nexora.Std

/-- The reciprocal of a number, nothing in its absence. -/
def share : Option Nat → ℚ
  | some number => 1 / number
  | none => 0

/-- A number, when there is one, is positive and at most a bound. -/
def Within (bound : Nat) (number : Option Nat) : Prop :=
  ∀ value ∈ number, 0 < value ∧ value ≤ bound

variable {bound : Nat} {first second third fourth number : Option Nat} {reciprocal : Nat → ℚ}
  {error : ℚ}

/-- A share is a fraction with a small denominator. -/
theorem exists_fraction (positive : 0 < bound) (within : Within bound number) :
    ∃ numerator denominator : Nat, share number = numerator / denominator ∧ 0 < denominator ∧
      denominator ≤ bound := by
  cases number with
  | none => exact ⟨0, 1, by simp [share], Nat.one_pos, positive⟩
  | some value =>
    obtain ⟨above, below⟩ := within value rfl
    exact ⟨1, value, by simp [share], above, below⟩

/-- A sum of two shares is a fraction with a small denominator. -/
theorem exists_fraction_add (positive : 0 < bound) (firstWithin : Within bound first)
    (secondWithin : Within bound second) :
    ∃ numerator denominator : Nat, share first + share second = numerator / denominator ∧
      0 < denominator ∧ denominator ≤ bound ^ 2 := by
  obtain ⟨one, below, isOne, belowPositive, belowBound⟩ := exists_fraction positive firstWithin
  obtain ⟨two, under, isTwo, underPositive, underBound⟩ := exists_fraction positive secondWithin
  refine ⟨one * under + two * below, below * under, ?_, Nat.mul_pos belowPositive underPositive, ?_⟩
  · have belowNonzero : (below : ℚ) ≠ 0 := by exact_mod_cast belowPositive.ne'
    have underNonzero : (under : ℚ) ≠ 0 := by exact_mod_cast underPositive.ne'
    rw [isOne, isTwo]
    push_cast
    field_simp
  · rw [pow_two]
    exact Nat.mul_le_mul belowBound underBound

/-- Different sums are apart. -/
theorem sums_apart (positive : 0 < bound) (firstWithin : Within bound first)
    (secondWithin : Within bound second) (thirdWithin : Within bound third)
    (fourthWithin : Within bound fourth)
    (less : share first + share second < share third + share fourth) :
    share first + share second + 1 / (bound : ℚ) ^ 4 ≤ share third + share fourth := by
  obtain ⟨one, below, isLess, belowPositive, belowBound⟩ :=
    exists_fraction_add positive firstWithin secondWithin
  obtain ⟨two, under, isMore, underPositive, underBound⟩ :=
    exists_fraction_add positive thirdWithin fourthWithin
  have belowAbove : (0 : ℚ) < below := by exact_mod_cast belowPositive
  have underAbove : (0 : ℚ) < under := by exact_mod_cast underPositive
  rw [isLess, isMore] at less ⊢
  have crossed : one * under + 1 ≤ two * below := by
    rw [div_lt_div_iff₀ belowAbove underAbove] at less
    exact_mod_cast less
  have gap : (1 : ℚ) / (below * under) ≤ two / under - one / below := by
    rw [div_sub_div _ _ underAbove.ne' belowAbove.ne', mul_comm (below : ℚ) under]
    refine div_le_div_of_nonneg_right ?_ (mul_pos underAbove belowAbove).le
    have widened : ((one * under + 1 : Nat) : ℚ) ≤ ((two * below : Nat) : ℚ) := by
      exact_mod_cast crossed
    push_cast at widened
    linarith
  have small : (below : ℚ) * under ≤ (bound : ℚ) ^ 4 := by
    have product : below * under ≤ bound ^ 4 := by
      calc below * under ≤ bound ^ 2 * bound ^ 2 := Nat.mul_le_mul belowBound underBound
        _ = bound ^ 4 := by ring
    exact_mod_cast product
  have wider : (1 : ℚ) / (bound : ℚ) ^ 4 ≤ 1 / (below * under) :=
    one_div_le_one_div_of_le (mul_pos belowAbove underAbove) small
  linarith

/-- A rounding of reciprocals. -/
def rounded (reciprocal : Nat → ℚ) : Option Nat → ℚ
  | some number => reciprocal number
  | none => 0

/-- A rounding moves no share by more than an error. -/
theorem abs_rounded_sub (nonneg : 0 ≤ error)
    (near : ∀ number : Nat, 0 < number → |reciprocal number - 1 / number| ≤ error)
    (within : Within bound number) :
    |rounded reciprocal number - share number| ≤ error := by
  cases number with
  | none => simpa [rounded, share] using nonneg
  | some value => exact near value (within value rfl).1

/-- Rounded sums are in the order of the exact ones. -/
theorem rounded_lt (nonneg : 0 ≤ error)
    (near : ∀ number : Nat, 0 < number → |reciprocal number - 1 / number| ≤ error)
    (positive : 0 < bound) (small : 4 * error < 1 / (bound : ℚ) ^ 4)
    (firstWithin : Within bound first) (secondWithin : Within bound second)
    (thirdWithin : Within bound third) (fourthWithin : Within bound fourth)
    (less : share first + share second < share third + share fourth) :
    rounded reciprocal first + rounded reciprocal second <
      rounded reciprocal third + rounded reciprocal fourth := by
  have apart := sums_apart positive firstWithin secondWithin thirdWithin fourthWithin less
  have one := abs_le.mp (abs_rounded_sub nonneg near firstWithin)
  have two := abs_le.mp (abs_rounded_sub nonneg near secondWithin)
  have three := abs_le.mp (abs_rounded_sub nonneg near thirdWithin)
  have four := abs_le.mp (abs_rounded_sub nonneg near fourthWithin)
  linarith [one.2, two.2, three.1, four.1]

end Nexora.Std
