import Nexora.Std.Fallible

/-!
# Computations that leave events behind

A computation that fails keeps the events it has left. What is said of its events and of the
errors it may end with follows its statements.
-/

namespace Nexora.Std

universe u v w

/-- A computation by the events it leaves, in order, and by its result. -/
structure Traced (Event : Type u) (Error : Type v) (α : Type w) where
  events : List Event
  result : Except Error α

namespace Traced

variable {Event : Type u} {Error : Type v} {α β : Type w}

instance : Monad (Traced Event Error) where
  pure value := ⟨[], .ok value⟩
  bind first second :=
    match first.result with
    | .error raised => ⟨first.events, .error raised⟩
    | .ok value => ⟨first.events ++ (second value).events, (second value).result⟩

/-- A computation that leaves no event. -/
def lift (result : Except Error α) : Traced Event Error α := ⟨[], result⟩

/-- Leave an event. -/
def emit (event : Event) : Traced Event Error PUnit := ⟨[event], .ok ⟨⟩⟩

/-- No event of a computation is of a kind. -/
def Avoids (kind : Event → Prop) (computation : Traced Event Error α) : Prop :=
  ∀ event ∈ computation.events, ¬ kind event

/-- A computation ends with no error of a kind. -/
def Spares (kind : Error → Prop) (computation : Traced Event Error α) : Prop :=
  Std.Spares kind computation.result

variable {first : Traced Event Error α} {second : α → Traced Event Error β}

namespace Avoids

variable {kind : Event → Prop}

theorem pure (value : α) : Avoids kind (Pure.pure value : Traced Event Error α) := by
  intro event member
  cases member

theorem lift (result : Except Error α) : Avoids kind (lift result : Traced Event Error α) := by
  intro event member
  cases member

theorem emit {event : Event} (other : ¬ kind event) :
    Avoids kind (emit event : Traced Event Error PUnit) := by
  intro found member
  rw [List.mem_singleton.mp member]
  exact other

theorem bind (head : Avoids kind first)
    (tail : ∀ value, first.result = .ok value → Avoids kind (second value)) :
    Avoids kind (first >>= second) := by
  intro event member
  cases result : first.result with
  | error raised =>
    have stopped : (first >>= second).events = first.events := by
      simp [Bind.bind, result]
    rw [stopped] at member
    exact head event member
  | ok value =>
    have went : (first >>= second).events = first.events ++ (second value).events := by
      simp [Bind.bind, result]
    rw [went, List.mem_append] at member
    rcases member with before | after
    · exact head event before
    · exact tail value result event after

end Avoids

namespace Spares

variable {kind : Error → Prop}

theorem pure (value : α) : Spares kind (Pure.pure value : Traced Event Error α) := Std.Spares.ok value

theorem lift {result : Except Error α} (spares : Std.Spares kind result) :
    Spares kind (lift result : Traced Event Error α) := spares

theorem emit (event : Event) : Spares kind (emit event : Traced Event Error PUnit) :=
  Std.Spares.ok _

theorem bind (head : Spares kind first)
    (tail : ∀ value, first.result = .ok value → Spares kind (second value)) :
    Spares kind (first >>= second) := by
  have result_bind : (first >>= second).result =
      first.result >>= fun value => (second value).result := by
    cases result : first.result with
    | error raised => simp [Bind.bind, Except.bind, result]
    | ok value => simp [Bind.bind, Except.bind, result]
  unfold Spares
  rw [result_bind]
  exact Std.Spares.bind head tail

end Spares

end Traced

end Nexora.Std
