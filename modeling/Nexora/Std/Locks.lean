import Nexora.Std.Table

/-!
# Row locks

Transactions in progress hold locks, and a lock is granted only while no other
transaction holds one that conflicts with it. `Exclusive` is what follows for any two
of them, and the rules below carry it through beginning, acquiring and finishing.
-/

namespace Nexora.Std

universe u v w

variable {Id : Type u} {Tx : Type v} {Lock : Type w} [DecidableEq Id]

/-- Another transaction holds a lock that conflicts with the requested one. -/
def blocked (locks : Tx → List Lock) (conflicts : Lock → Lock → Bool) (running : Table Id Tx)
    (id : Id) (lock : Lock) : Bool :=
  running.any fun other tx => other ≠ id && (locks tx).any fun held => conflicts lock held

/-- No two transactions hold conflicting locks. -/
def Exclusive (locks : Tx → List Lock) (conflicts : Lock → Lock → Bool)
    (running : Table Id Tx) : Prop :=
  ∀ first second firstTx secondTx, first ≠ second → running.find? first = some firstTx →
    running.find? second = some secondTx → ∀ lock ∈ locks firstTx, ∀ held ∈ locks secondTx,
      conflicts lock held = false

variable {locks : Tx → List Lock} {conflicts : Lock → Lock → Bool} {running : Table Id Tx}
  {id : Id} {tx changed : Tx}

/-- A lock that is not blocked conflicts with none another transaction holds. -/
theorem not_blocked {lock : Lock} (granted : ¬ blocked locks conflicts running id lock = true)
    {other : Id} {otherTx : Tx} (distinct : other ≠ id)
    (present : running.find? other = some otherTx) {held : Lock} (holds : held ∈ locks otherTx) :
    conflicts lock held = false := by
  by_contra conflict
  refine granted ((Table.any_eq_true _ _).mpr ⟨other, otherTx, present, ?_⟩)
  simp only [decide_eq_true distinct, Bool.true_and, List.any_eq_true]
  exact ⟨held, holds, Bool.of_not_eq_false conflict⟩

namespace Exclusive

theorem empty : Exclusive locks conflicts (Table.empty : Table Id Tx) := by
  intro first second firstTx secondTx _ present
  simp at present

/-- Storing a transaction keeps locks exclusive when each of its locks conflicts with none
another transaction holds. -/
theorem put (exclusive : Exclusive locks conflicts running)
    (symmetric : ∀ first second, conflicts first second = conflicts second first)
    (granted : ∀ other otherTx, other ≠ id → running.find? other = some otherTx →
      ∀ lock ∈ locks changed, ∀ held ∈ locks otherTx, conflicts lock held = false) :
    Exclusive locks conflicts (running.put id changed) := by
  intro first second firstTx secondTx distinct firstPresent secondPresent lock own held holds
  rw [Table.find?_put_eq] at firstPresent secondPresent
  by_cases firstIs : first = id
  · rw [if_pos firstIs, Option.some.injEq] at firstPresent
    have secondIs : second ≠ id := fun same => distinct (firstIs.trans same.symm)
    rw [if_neg secondIs] at secondPresent
    subst firstPresent
    exact granted second secondTx secondIs secondPresent lock own held holds
  · rw [if_neg firstIs] at firstPresent
    by_cases secondIs : second = id
    · rw [if_pos secondIs, Option.some.injEq] at secondPresent
      subst secondPresent
      rw [symmetric]
      exact granted first firstTx firstIs firstPresent held holds lock own
    · rw [if_neg secondIs] at secondPresent
      exact exclusive first second firstTx secondTx distinct firstPresent secondPresent lock own
        held holds

/-- A transaction may change anything but its locks, or give some of them up. -/
theorem put_subset (exclusive : Exclusive locks conflicts running)
    (symmetric : ∀ first second, conflicts first second = conflicts second first)
    (present : running.find? id = some tx) (kept : locks changed ⊆ locks tx) :
    Exclusive locks conflicts (running.put id changed) := by
  refine exclusive.put symmetric ?_
  intro other otherTx distinct otherPresent lock own held holds
  exact exclusive id other tx otherTx distinct.symm present otherPresent lock (kept own) held holds

/-- A transaction without locks may begin. -/
theorem put_unlocked (exclusive : Exclusive locks conflicts running)
    (symmetric : ∀ first second, conflicts first second = conflicts second first)
    (unlocked : locks changed = []) : Exclusive locks conflicts (running.put id changed) := by
  refine exclusive.put symmetric ?_
  intro other otherTx _ _ lock own
  rw [unlocked] at own
  cases own

/-- A transaction may acquire a lock nothing blocks. -/
theorem put_acquired {lock : Lock} (exclusive : Exclusive locks conflicts running)
    (symmetric : ∀ first second, conflicts first second = conflicts second first)
    (present : running.find? id = some tx) (acquired : locks changed = lock :: locks tx)
    (granted : ¬ blocked locks conflicts running id lock = true) :
    Exclusive locks conflicts (running.put id changed) := by
  refine exclusive.put symmetric ?_
  intro other otherTx distinct otherPresent own member held holds
  rw [acquired, List.mem_cons] at member
  obtain rfl | earlier := member
  · exact not_blocked granted distinct otherPresent holds
  · exact exclusive id other tx otherTx distinct.symm present otherPresent own earlier held holds

/-- A finished transaction releases its locks. -/
theorem erase (exclusive : Exclusive locks conflicts running) (id : Id) :
    Exclusive locks conflicts (running.erase id) := by
  intro first second firstTx secondTx distinct firstPresent secondPresent
  rw [Table.find?_erase] at firstPresent secondPresent
  split at firstPresent
  · cases firstPresent
  · split at secondPresent
    · cases secondPresent
    · exact exclusive first second firstTx secondTx distinct firstPresent secondPresent

end Exclusive

end Nexora.Std
