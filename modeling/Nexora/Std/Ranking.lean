import Mathlib

/-!
# The first row of an ordered query

`ORDER BY key DESC LIMIT 1` is `List.argmax`. The rule below describes a projection
of the chosen row without fixing the order in which the rows were listed: it is
enough that rows ranked equal agree on what is projected.
-/

namespace Nexora.Std

universe u v w

variable {α : Type u} {β : Type v} {γ : Type w} [LinearOrder β]

/-- A value is projected from the highest-ranked row exactly when some row that no
other outranks projects to it. -/
theorem argmax_map_eq_some (rank : α → β) (project : α → γ) (rows : List α)
    (agree : ∀ left ∈ rows, ∀ right ∈ rows, rank left = rank right →
      project left = project right) (value : γ) :
    (rows.argmax rank).map project = some value ↔
      ∃ row ∈ rows, project row = value ∧ ∀ other ∈ rows, rank other ≤ rank row := by
  constructor
  · intro chosen
    obtain ⟨row, highest, rfl⟩ := Option.map_eq_some_iff.mp chosen
    exact ⟨row, List.argmax_mem highest, rfl, fun other member =>
      List.le_of_mem_argmax member highest⟩
  · rintro ⟨row, member, rfl, highest⟩
    cases chosen : rows.argmax rank with
    | none =>
      rw [List.argmax_eq_none.mp chosen] at member
      simp at member
    | some best =>
      have bestMember : best ∈ rows := List.argmax_mem chosen
      have same : rank best = rank row :=
        le_antisymm (highest best bestMember) (List.le_of_mem_argmax member chosen)
      simp [agree best bestMember row member same]

end Nexora.Std
