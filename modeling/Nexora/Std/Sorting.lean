import Mathlib

/-!
# Ordered queries

`ORDER BY` over a list of rows, and the row numbers of an ordered list. Where the key of
an ordering tells the rows apart, the ordered list depends on which rows there are and not
on the order in which they were listed.
-/

namespace Nexora.Std

universe u v

variable {α : Type u} {κ : Type v} [LinearOrder κ] (key : α → κ)

/-- `ORDER BY key`: the rows by rising keys; rows with one key stay in the order they came. -/
def orderBy (rows : List α) : List α :=
  rows.insertionSort fun left right => key left ≤ key right

theorem orderBy_perm (rows : List α) : (orderBy key rows).Perm rows :=
  List.perm_insertionSort _ rows

@[simp]
theorem mem_orderBy {rows : List α} {row : α} : row ∈ orderBy key rows ↔ row ∈ rows :=
  (orderBy_perm key rows).mem_iff

/-- A key tells the rows of a list apart. -/
def Distinguishes (rows : List α) : Prop :=
  ∀ left ∈ rows, ∀ right ∈ rows, key left = key right → left = right

variable {key}

/-- The same rows are ordered the same, however they were listed, by a key that tells them
apart. -/
theorem orderBy_eq_of_perm {rows others : List α} (distinguishes : Distinguishes key rows)
    (same : rows.Perm others) : orderBy key rows = orderBy key others := by
  have ordered : ∀ listed : List α,
      (orderBy key listed).Pairwise fun left right => key left ≤ key right :=
    fun listed => List.pairwise_insertionSort _ listed
  have permuted : (orderBy key rows).Perm (orderBy key others) :=
    (orderBy_perm key rows).trans (same.trans (orderBy_perm key others).symm)
  apply permuted.eq_of_pairwise _ (ordered rows) (ordered others)
  intro left right leftMember rightMember below above
  have rightIn : right ∈ rows := same.mem_iff.mpr ((mem_orderBy key).mp rightMember)
  exact distinguishes left ((mem_orderBy key).mp leftMember) right rightIn
    (le_antisymm below above)

theorem orderBy_sorted (key : α → κ) (rows : List α) :
    (orderBy key rows).Pairwise fun left right => key left ≤ key right :=
  List.pairwise_insertionSort _ rows

/-- Rising numbers without a gap below any of them are the first numbers there are. -/
theorem eq_range_of_closed {numbers : List Nat} (rising : numbers.Pairwise (· < ·))
    (closed : ∀ number, number + 1 ∈ numbers → number ∈ numbers) :
    numbers = List.range numbers.length := by
  induction numbers using List.reverseRecOn with
  | nil => rfl
  | append_singleton earlier last ih =>
    rw [List.pairwise_append] at rising
    obtain ⟨risingEarlier, _, below⟩ := rising
    have closedEarlier : ∀ number, number + 1 ∈ earlier → number ∈ earlier := by
      intro number member
      have under : number + 1 < last := below _ member last (by simp)
      rcases List.mem_append.mp (closed number (List.mem_append_left _ member)) with inside | is
      · exact inside
      · have same : number = last := List.mem_singleton.mp is
        omega
    have first := ih risingEarlier closedEarlier
    have isNext : last = earlier.length := by
      apply Nat.le_antisymm
      · cases last with
        | zero => exact Nat.zero_le _
        | succ number =>
          rcases List.mem_append.mp (closed number (by simp)) with inside | is
          · rw [first, List.mem_range] at inside
            exact inside
          · have same : number = number + 1 := List.mem_singleton.mp is
            omega
      · cases size : earlier.length with
        | zero => exact Nat.zero_le _
        | succ count =>
          have member : count ∈ earlier := by
            rw [first, List.mem_range, size]
            exact Nat.lt_succ_self count
          exact below count member last (by simp)
    rw [List.length_append, List.length_singleton, List.range_succ, ← first, isNext]

/-- `row_number()` of an element in an ordered list. -/
def rowNumber [DecidableEq α] (rows : List α) (row : α) : Option Nat :=
  if row ∈ rows then some (rows.idxOf row + 1) else none

end Nexora.Std
