import Mathlib

/-!
# Computations that may raise

Inversion rules for `Except` programs written as plain `do` blocks: from a result
one reads back, statement by statement, which checks passed and what every
statement returned. `raiseIf` and `orRaise` are the two statements that fail, so a
program built from them has no hidden join points and the rules apply as written.
-/

namespace Nexora.Std

universe u v w

variable {Error : Type u} {α : Type v} {β : Type v} {Item : Type w} {items : List Item}

/-- Raise an error when a condition holds. -/
def raiseIf (condition : Prop) [Decidable condition] (error : Error) : Except Error PUnit.{v + 1} :=
  if condition then .error error else .ok ⟨⟩

/-- The value of an option, or an error in its absence. -/
def orRaise (option : Option α) (error : Error) : Except Error α :=
  match option with
  | some value => .ok value
  | none => .error error

@[simp]
theorem raiseIf_eq_ok (condition : Prop) [Decidable condition] (error : Error)
    (result : PUnit.{v + 1}) : raiseIf condition error = .ok result ↔ ¬ condition := by
  unfold raiseIf
  by_cases holds : condition <;> simp [holds]

@[simp]
theorem orRaise_eq_ok (option : Option α) (error : Error) (value : α) :
    orRaise option error = .ok value ↔ option = some value := by
  cases option <;> simp [orRaise]

/-- A sequence of two computations succeeds when both do. -/
@[simp]
theorem bind_eq_ok (first : Except Error α) (second : α → Except Error β) (result : β) :
    (first >>= second) = .ok result ↔ ∃ value, first = .ok value ∧ second value = .ok result := by
  cases first with
  | error raised =>
    constructor
    · intro impossible
      cases impossible
    · rintro ⟨_, impossible, _⟩
      cases impossible
  | ok value =>
    constructor
    · intro holds
      exact ⟨value, rfl, holds⟩
    · rintro ⟨_, same, holds⟩
      cases same
      exact holds

/-- What follows a check succeeds if the check passes. -/
theorem bind_check_eq_ok (check : Except Error PUnit.{v + 1}) (second : PUnit → Except Error β)
    (result : β) :
    (check >>= second) = .ok result ↔ check = .ok ⟨⟩ ∧ second ⟨⟩ = .ok result := by
  rw [bind_eq_ok]
  constructor
  · rintro ⟨⟨⟩, passes, succeeds⟩
    exact ⟨passes, succeeds⟩
  · rintro ⟨passes, succeeds⟩
    exact ⟨⟨⟩, passes, succeeds⟩

/-- A check fails with its own error. -/
theorem raiseIf_eq_error (condition : Prop) [Decidable condition] (error raised : Error) :
    (raiseIf condition error : Except Error PUnit.{v + 1}) = .error raised ↔
      condition ∧ error = raised := by
  unfold raiseIf
  by_cases holds : condition <;> simp [holds]

/-- A sequence of two computations fails where the first of them does, or the second after it. -/
theorem bind_eq_error (first : Except Error α) (second : α → Except Error β) (raised : Error) :
    (first >>= second) = .error raised ↔
      first = .error raised ∨ ∃ value, first = .ok value ∧ second value = .error raised := by
  cases first with
  | error other =>
    constructor
    · intro same
      cases same
      exact .inl rfl
    · rintro (same | ⟨_, impossible, _⟩)
      · cases same
        rfl
      · cases impossible
  | ok value =>
    constructor
    · intro failed
      exact .inr ⟨value, rfl, failed⟩
    · rintro (impossible | ⟨_, same, failed⟩)
      · cases impossible
      · cases same
        exact failed

@[simp]
theorem pure_eq_ok (value result : α) :
    (pure value : Except Error α) = .ok result ↔ value = result := by
  constructor
  · intro same
    cases same
    rfl
  · rintro rfl
    rfl

@[simp]
theorem mapError_eq_ok {Other : Type w} (computation : Except Other α) (translate : Other → Error)
    (value : α) : computation.mapError translate = .ok value ↔ computation = .ok value := by
  cases computation <;> simp [Except.mapError]

/-- A computation whose result passes a check succeeds with such a result. -/
theorem exists_ok_of_check (computation : Except Error α) (check : α → Bool)
    (passes : computation.toOption.map check = some true) :
    ∃ value, computation = .ok value ∧ check value = true := by
  cases computation with
  | error raised => cases passes
  | ok value => exact ⟨value, rfl, Option.some.inj passes⟩

/-- A computation known to succeed returns the value it is read as. -/
theorem eq_ok_getD (computation : Except Error α) (default : α)
    (succeeds : computation.toOption.isSome = true) : computation = .ok (computation.toOption.getD default) := by
  cases computation with
  | error raised => cases succeeds
  | ok value => rfl

/-- What every step of a fallible fold over listed items preserves holds at its end. -/
theorem foldlM_invariant {State : Type v} (Inv : State → Prop)
    {step : State → Item → Except Error State}
    (preserved : ∀ state, ∀ item ∈ items, ∀ next,
      Inv state → step state item = .ok next → Inv next) {start final : State} (holds : Inv start)
    (ok : items.foldlM step start = .ok final) : Inv final := by
  induction items generalizing start with
  | nil =>
    rw [List.foldlM_nil, pure_eq_ok] at ok
    exact ok ▸ holds
  | cons item rest ih =>
    rw [List.foldlM_cons, bind_eq_ok] at ok
    obtain ⟨next, first, others⟩ := ok
    refine ih ?_ (preserved start item (by simp) next holds first) others
    intro state later member
    exact preserved state later (by simp [member])

/-- A check of every item passes when it passes on each. -/
theorem forM_eq_ok {check : Item → Except Error Unit} :
    items.forM check = .ok () ↔ ∀ item ∈ items, check item = .ok () := by
  induction items with
  | nil => simp
  | cons item rest ih =>
    change (check item >>= fun _ => rest.forM check) = .ok () ↔ _
    rw [bind_eq_ok, List.forall_mem_cons]
    constructor
    · rintro ⟨_, first, others⟩
      exact ⟨first, ih.mp others⟩
    · rintro ⟨first, others⟩
      exact ⟨(), first, ih.mpr others⟩

/-- A computation raises no error of a kind. -/
def Spares (kind : Error → Prop) (computation : Except Error α) : Prop :=
  ∀ raised, computation = .error raised → ¬ kind raised

namespace Spares

variable {kind : Error → Prop} {raised : Error} {first : Except Error α} {condition : Prop}

theorem ok (value : α) : Spares kind (.ok value : Except Error α) := by
  intro raised failed
  cases failed

theorem pure (value : α) : Spares kind (Pure.pure value : Except Error α) := by
  intro raised failed
  cases failed

theorem error (other : ¬ kind raised) :
    Spares kind (.error raised : Except Error α) := by
  intro _ same
  cases same
  exact other

/-- A sequence of two computations, of which the second starts where the first succeeded. -/
theorem bind {second : α → Except Error β} (head : Spares kind first)
    (tail : ∀ value, first = .ok value → Spares kind (second value)) :
    Spares kind (first >>= second) := by
  cases first with
  | error raised =>
    intro _ same
    cases same
    exact head raised rfl
  | ok value => exact tail value rfl

theorem raiseIf [Decidable condition] (never : kind raised → ¬ condition) :
    Spares kind (Nexora.Std.raiseIf.{u, v} condition raised) := by
  intro _ same
  unfold Nexora.Std.raiseIf at same
  split at same
  · rename_i holds
    cases same
    exact fun bad => never bad holds
  · cases same

theorem orRaise {option : Option α} (other : ¬ kind raised) :
    Spares kind (Nexora.Std.orRaise option raised) := by
  cases option with
  | none => exact error other
  | some value => exact ok value

theorem ite [Decidable condition] {second : Except Error α}
    (positive : condition → Spares kind first) (negative : ¬ condition → Spares kind second) :
    Spares kind (if condition then first else second) := by
  split
  · exact positive (by assumption)
  · exact negative (by assumption)

/-- Errors translated into one of another kind. -/
theorem mapError {Other : Type w} {translate : Other → Error} {computation : Except Other α}
    (other : ∀ raised, ¬ kind (translate raised)) :
    Spares kind (computation.mapError translate) := by
  cases computation with
  | error raised => exact error (other raised)
  | ok value => exact ok value

/-- A fold over listed items whose every step spares the kind while an invariant holds. -/
theorem foldlM {State : Type v} (Inv : State → Prop) {step : State → Item → Except Error State}
    (each : ∀ state item, Inv state → Spares kind (step state item))
    (preserved : ∀ state item next, Inv state → step state item = .ok next → Inv next)
    {start : State} (holds : Inv start) : Spares kind (items.foldlM step start) := by
  induction items generalizing start with
  | nil => exact pure start
  | cons item rest ih =>
    rw [List.foldlM_cons]
    exact bind (each start item holds) fun next first =>
      ih (preserved start item next holds first)

end Spares

end Nexora.Std
