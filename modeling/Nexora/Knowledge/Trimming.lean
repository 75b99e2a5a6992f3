import Nexora.Knowledge.Text

/-!
# Trimming

What is trimmed from a text and what is left of it, and a text around one of its slices.
-/

namespace Nexora.Knowledge

open Nexora.Std

section Trimming

variable {condition : Fin 0x110000 → Bool}

/-- A text by what is trimmed from its front and its back. -/
structure Trimmed (condition : Fin 0x110000 → Bool) (text front middle back : PyStr) : Prop where
  whole : text = front ++ middle ++ back
  front_met : ∀ point ∈ front, condition point = true
  back_met : ∀ point ∈ back, condition point = true
  first : ∀ point ∈ middle.head?, condition point = false
  last : ∀ point ∈ middle.getLast?, condition point = false

theorem dropWhile_append_eq {front rest : PyStr} (met : ∀ point ∈ front, condition point = true)
    (starts : ∀ point ∈ rest.head?, condition point = false) :
    (front ++ rest).dropWhile condition = rest := by
  rw [List.dropWhile_append_of_pos met]
  cases rest with
  | nil => rfl
  | cons point rest => rw [List.dropWhile_cons_of_neg (by simp [starts point rfl])]

theorem rdropWhile_append_eq {rest back : PyStr} (met : ∀ point ∈ back, condition point = true)
    (ends : ∀ point ∈ rest.getLast?, condition point = false) :
    (rest ++ back).rdropWhile condition = rest := by
  rw [List.rdropWhile, List.reverse_append, dropWhile_append_eq, List.reverse_reverse]
  · simpa using met
  · simpa using ends

theorem exists_trimmed (condition : Fin 0x110000 → Bool) (text : PyStr) :
    ∃ front middle back, Trimmed condition text front middle back := by
  refine ⟨text.takeWhile condition, (text.dropWhile condition).rdropWhile condition,
    (text.dropWhile condition).rtakeWhile condition, ?_, ?_, ?_, ?_, ?_⟩
  · rw [List.append_assoc, List.rdropWhile_append_rtakeWhile, List.takeWhile_append_dropWhile]
  · exact fun point member => List.mem_takeWhile_imp member
  · exact fun point member => List.mem_rtakeWhile_imp member
  · intro point isFirst
    -- What is left begins where the front ended.
    have starts : (text.dropWhile condition).head? = some point := by
      obtain ⟨rest, same⟩ := List.rdropWhile_prefix condition (text.dropWhile condition)
      rw [← same, List.head?_append, isFirst, Option.some_or]
    have nonempty : text.dropWhile condition ≠ [] := by
      intro nothing
      rw [nothing] at starts
      cases starts
    have unmet := List.head_dropWhile_not condition nonempty
    rw [List.head?_eq_some_head nonempty, Option.some.injEq] at starts
    rwa [starts] at unmet
  · intro point isLast
    have nonempty : (text.dropWhile condition).rdropWhile condition ≠ [] := by
      intro nothing
      rw [nothing] at isLast
      cases isLast
    have unmet := List.rdropWhile_last_not condition (text.dropWhile condition) nonempty
    rw [Option.mem_def, List.getLast?_eq_some_getLast nonempty, Option.some.injEq] at isLast
    rw [isLast] at unmet
    exact Bool.eq_false_of_not_eq_true unmet

namespace Trimmed

variable {text front middle back : PyStr}

theorem dropWhile_eq (trimmed : Trimmed condition text front middle back) (some_ : middle ≠ []) :
    text.dropWhile condition = middle ++ back := by
  rw [trimmed.whole, List.append_assoc]
  refine dropWhile_append_eq trimmed.front_met ?_
  intro point isFirst
  refine trimmed.first point ?_
  rwa [List.head?_append_of_ne_nil _ some_] at isFirst

theorem trim_eq (trimmed : Trimmed condition text front middle back) :
    trim condition text = middle := by
  by_cases some_ : middle = []
  · subst some_
    have all : ∀ point ∈ text, condition point = true := by
      rw [trimmed.whole, List.append_nil]
      intro point member
      exact (List.mem_append.mp member).elim (trimmed.front_met point) (trimmed.back_met point)
    have nothing : text.dropWhile condition = [] := List.dropWhile_eq_nil_iff.mpr all
    rw [trim, nothing, List.rdropWhile_nil]
  · rw [trim, trimmed.dropWhile_eq some_, rdropWhile_append_eq trimmed.back_met trimmed.last]

theorem rdropWhile_eq (trimmed : Trimmed condition text front middle back) (some_ : middle ≠ []) :
    text.rdropWhile condition = front ++ middle := by
  rw [trimmed.whole]
  refine rdropWhile_append_eq trimmed.back_met ?_
  intro point isLast
  refine trimmed.last point ?_
  rwa [List.getLast?_append_of_ne_nil _ some_] at isLast

end Trimmed

/-- A trimmed text is not trimmed any further. -/
theorem trim_trim (condition : Fin 0x110000 → Bool) (text : PyStr) :
    trim condition (trim condition text) = trim condition text := by
  obtain ⟨front, middle, back, trimmed⟩ := exists_trimmed condition text
  have again : Trimmed condition middle [] middle [] :=
    ⟨by simp, by simp, by simp, trimmed.first, trimmed.last⟩
  rw [trimmed.trim_eq, again.trim_eq]

end Trimming

theorem slice_append (before middle after : PyStr) :
    slice (before ++ middle ++ after) before.length (before.length + middle.length) = middle := by
  rw [slice, List.append_assoc, ← List.append_assoc, ← List.length_append, List.take_left,
    List.drop_left]

theorem append_slice {normalized : PyStr} {start stop : Nat} (ordered : start ≤ stop) :
    normalized.take start ++ slice normalized start stop ++ normalized.drop stop = normalized := by
  have before : normalized.take start = (normalized.take stop).take start := by
    rw [List.take_take, Nat.min_eq_left ordered]
  rw [slice, before, List.take_append_drop, List.take_append_drop]

end Nexora.Knowledge
