import Mathlib

/-!
# Relations that grow without cycles

A relation that only gains edges out of an element nothing leads to stays without cycles.
-/

namespace Nexora.Std

universe u

variable {α : Type u} {before after : α → α → Prop} {fresh : α}

/-- No element is reached from itself. -/
def Acyclic (relation : α → α → Prop) : Prop :=
  ∀ element, ¬ Relation.TransGen relation element element

/-- What is reached from an older element was reached before. -/
theorem transGen_of_fresh (gained : ∀ first second, after first second →
      before first second ∨ first = fresh)
    (unreached : ∀ first, ¬ after first fresh) {start finish : α} (older : start ≠ fresh)
    (path : Relation.TransGen after start finish) : Relation.TransGen before start finish := by
  induction path using Relation.TransGen.head_induction_on with
  | single edge => exact .single ((gained _ _ edge).resolve_right older)
  | @head first middle edge _ ih =>
    have olderNext : middle ≠ fresh := by
      rintro rfl
      exact unreached _ edge
    exact .head ((gained _ _ edge).resolve_right older) (ih olderNext)

/-- Edges out of an element nothing leads to close no cycle. -/
theorem Acyclic.grown (acyclic : Acyclic before)
    (gained : ∀ first second, after first second → before first second ∨ first = fresh)
    (unreached : ∀ first, ¬ after first fresh) : Acyclic after := by
  intro element path
  have older : element ≠ fresh := by
    rintro rfl
    obtain ⟨last, _, edge⟩ := Relation.TransGen.tail'_iff.mp path
    exact unreached last edge
  exact acyclic element (transGen_of_fresh gained unreached older path)

end Nexora.Std
