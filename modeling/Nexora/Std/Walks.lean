import Nexora.Std.Fallible

/-!
# Walks

A program that checks one thing after the other is a list of what it checks, in that order. It
passes if every check passes, and otherwise raises what the first check that fails raises. A
check is reached if every check before it passes.
-/

namespace Nexora.Std

universe u v

variable {Item : Type u} {Error : Type v} {check : Item → Except Error Unit} {items : List Item}

/-- Check one item after the other. -/
def goThrough (check : Item → Except Error Unit) : List Item → Except Error Unit
  | [] => .ok ()
  | item :: rest => check item >>= fun _ => goThrough check rest

/-- A walk comes to an item: every item before it passes. -/
inductive Reached (check : Item → Except Error Unit) (item : Item) : List Item → Prop where
  | here (rest : List Item) : Reached check item (item :: rest)
  | later {first : Item} {rest : List Item} (passes : check first = .ok ())
      (reached : Reached check item rest) : Reached check item (first :: rest)

theorem Reached.mem {item : Item} (reached : Reached check item items) : item ∈ items := by
  induction reached with
  | here => exact List.mem_cons_self
  | later _ _ ih => exact List.mem_cons_of_mem _ ih

/-- A walk of two stretches is the one after the other. -/
theorem goThrough_append (first second : List Item) :
    goThrough check (first ++ second) = goThrough check first >>= fun _ => goThrough check second := by
  induction first with
  | nil => rfl
  | cons item rest ih =>
    rw [List.cons_append, goThrough, goThrough, ih]
    cases check item <;> rfl

/-- A walk passes if each of its checks does. -/
theorem goThrough_eq_ok : goThrough check items = .ok () ↔ ∀ item ∈ items, check item = .ok () := by
  induction items with
  | nil => simp [goThrough]
  | cons item rest ih =>
    rw [goThrough, bind_eq_ok, List.forall_mem_cons, ih]
    constructor
    · rintro ⟨⟨⟩, passes, others⟩
      exact ⟨passes, others⟩
    · rintro ⟨passes, others⟩
      exact ⟨(), passes, others⟩

/-- A walk raises what the first check that fails raises. -/
theorem goThrough_eq_error {raised : Error} :
    goThrough check items = .error raised ↔
      ∃ item, Reached check item items ∧ check item = .error raised := by
  induction items with
  | nil =>
    constructor
    · intro fails
      cases fails
    · rintro ⟨_, reached, _⟩
      cases reached
  | cons first rest ih =>
    rw [goThrough]
    cases outcome : check first with
    | error failure =>
      constructor
      · intro fails
        cases fails
        exact ⟨first, .here rest, outcome⟩
      · rintro ⟨item, reached, fails⟩
        cases reached with
        | here =>
          rw [outcome] at fails
          cases fails
          rfl
        | later passes =>
          rw [outcome] at passes
          cases passes
    | ok =>
      constructor
      · intro fails
        obtain ⟨item, reached, fails⟩ := ih.mp fails
        exact ⟨item, .later outcome reached, fails⟩
      · rintro ⟨item, reached, fails⟩
        cases reached with
        | here =>
          rw [outcome] at fails
          cases fails
        | later _ reached => exact ih.mpr ⟨item, reached, fails⟩

end Nexora.Std
