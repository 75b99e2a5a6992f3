import Mathlib.Order.Notation

/-!
# Actions

Computations that change a state and return a value or raise an error. What was done before an
error was raised stays done, and a handler goes on from there. `Ensures` says what holds where an
action returns and where it raises, and has a rule for each way actions are put together.
-/

namespace Nexora.Std

universe u

/-- A computation on a state that returns a value or raises an error. -/
abbrev Action (State Error α : Type u) : Type u := ExceptT Error (StateM State) α

variable {State Error α β Item : Type u}

/-- The value or error of an action, and the state it leaves. -/
def Action.from (action : Action State Error α) (state : State) : Except Error α × State :=
  action.run.run state

/-- Raise an error where a condition holds. -/
def Action.raiseIf (condition : Prop) [Decidable condition] (error : Error) :
    Action State Error PUnit :=
  if condition then throw error else pure ⟨⟩

/-- A condition on what an action returns and one on what it raises, with the states it leaves. -/
def Ends (returns : α → State → Prop) (raises : Error → State → Prop) :
    Except Error α × State → Prop
  | (.ok value, state) => returns value state
  | (.error error, state) => raises error state

/-- From every state that meets a condition, an action ends as stated. -/
def Ensures (pre : State → Prop) (action : Action State Error α)
    (returns : α → State → Prop) (raises : Error → State → Prop) : Prop :=
  ∀ state, pre state → Ends returns raises (action.from state)

namespace Ensures

variable {pre stronger : State → Prop} {returns weaker : α → State → Prop}
  {raises : Error → State → Prop} {action : Action State Error α} {next : α → Action State Error β}
  {finally_ : β → State → Prop} {error : Error} {condition : Prop}

theorem mono {milder : Error → State → Prop} (ensures : Ensures pre action returns raises)
    (strengthen : ∀ state, stronger state → pre state)
    (weaken : ∀ value state, returns value state → weaker value state)
    (mild : ∀ error state, raises error state → milder error state) :
    Ensures stronger action weaker milder := by
  intro state holds
  have ends := ensures state (strengthen state holds)
  cases reached : action.from state with
  | mk result after =>
    rw [reached] at ends
    cases result with
    | ok value => exact weaken value after ends
    | error error => exact mild error after ends

/-- A part of the condition that is not about the state. -/
theorem given {fact : Prop} (ensures : fact → Ensures pre action returns raises) :
    Ensures (fun state => fact ∧ pre state) action returns raises :=
  fun state holds => ensures holds.1 state holds.2

/-- Two statements on one action. -/
theorem and {alsoReturns : α → State → Prop} {alsoRaises : Error → State → Prop}
    (first : Ensures pre action returns raises)
    (second : Ensures pre action alsoReturns alsoRaises) :
    Ensures pre action (fun value state => returns value state ∧ alsoReturns value state)
      (fun error state => raises error state ∧ alsoRaises error state) := by
  intro state holds
  have one := first state holds
  have two := second state holds
  cases reached : action.from state with
  | mk result after =>
    rw [reached] at one two
    cases result with
    | ok value => exact ⟨one, two⟩
    | error error => exact ⟨one, two⟩

theorem pure {value : α} (holds : ∀ state, pre state → returns value state) :
    Ensures pre (Pure.pure value) returns raises := holds

theorem throw (holds : ∀ state, pre state → raises error state) :
    Ensures pre (MonadExcept.throw error) returns raises := holds

theorem bind {middle : α → State → Prop} (first : Ensures pre action middle raises)
    (rest : ∀ value, Ensures (middle value) (next value) finally_ raises) :
    Ensures pre (action >>= next) finally_ raises := by
  intro state holds
  have ends := first state holds
  have runs : (action >>= next).from state =
      match action.from state with
      | (.ok value, after) => (next value).from after
      | (.error error, after) => (.error error, after) := by
    simp only [Action.from, ExceptT.run_bind, StateT.run_bind]
    cases reached : action.run.run state with
    | mk result after => cases result <;> rfl
  rw [runs]
  cases reached : action.from state with
  | mk result after =>
    rw [reached] at ends
    cases result with
    | ok value => exact rest value after ends
    | error error => exact ends

/-- `bind`, with what holds in between. -/
theorem through (middle : α → State → Prop) (first : Ensures pre action middle raises)
    (rest : ∀ value, Ensures (middle value) (next value) finally_ raises) :
    Ensures pre (action >>= next) finally_ raises := bind first rest

theorem get : Ensures pre (MonadState.get : Action State Error State)
    (fun value state => value = state ∧ pre state) raises :=
  fun _ holds => ⟨rfl, holds⟩

theorem set {new : State} : Ensures pre (MonadStateOf.set new : Action State Error PUnit)
    (fun _ state => state = new ∧ ∃ old, pre old) raises :=
  fun old holds => ⟨rfl, old, holds⟩

/-- A handler goes on from the state in which the error was raised. -/
theorem tryCatch {handler : Error → Action State Error α} (caught : Error → State → Prop)
    (body : Ensures pre action returns caught)
    (handled : ∀ error, Ensures (caught error) (handler error) returns raises) :
    Ensures pre (MonadExcept.tryCatch action handler) returns raises := by
  intro state holds
  have ends := body state holds
  have runs : Action.from (MonadExcept.tryCatch action handler) state =
      match action.from state with
      | (.ok value, after) => (.ok value, after)
      | (.error error, after) => (handler error).from after := by
    simp only [Action.from, ExceptT.run_tryCatch, StateT.run_bind]
    cases reached : action.run.run state with
    | mk result after => cases result <;> rfl
  rw [runs]
  cases reached : action.from state with
  | mk result after =>
    rw [reached] at ends
    cases result with
    | ok value => exact ends
    | error error => exact handled error after ends

theorem ite [Decidable condition] {other : Action State Error α}
    (first : condition → Ensures pre action returns raises)
    (second : ¬ condition → Ensures pre other returns raises) :
    Ensures pre (if condition then action else other) returns raises := by
  split
  · exact first ‹_›
  · exact second ‹_›

theorem raiseIf [Decidable condition]
    (raised : condition → ∀ state, pre state → raises error state) :
    Ensures pre (Action.raiseIf condition error)
      (fun _ state => ¬ condition ∧ pre state) raises :=
  ite (fun met => throw (raised met)) fun notMet => pure fun _ holds => ⟨notMet, holds⟩

/-- A loop with an accumulator keeps what every round keeps. -/
theorem foldlM {step : β → Item → Action State Error β} (raised : Error → State → Prop)
    (keeps : List Item → β → State → Prop) (items : List Item)
    (each : ∀ done item rest, items = done ++ item :: rest → ∀ value,
      Ensures (keeps done value) (step value item) (keeps (done ++ [item])) raised)
    (value : β) :
    Ensures (keeps [] value) (items.foldlM step value) (keeps items) raised := by
  -- The rounds so far and those to come make up the list.
  have onward : ∀ rest done, items = done ++ rest → ∀ value,
      Ensures (keeps done value) (rest.foldlM step value) (keeps items) raised := by
    intro rest
    induction rest with
    | nil =>
      intro done whole value
      rw [List.append_nil] at whole
      rw [whole]
      exact pure fun _ => id
    | cons item rest ih =>
      intro done whole value
      rw [List.foldlM_cons]
      apply bind (each done item rest whole value)
      exact ih (done ++ [item]) (by rw [whole, List.append_assoc]; rfl)
  exact onward items [] rfl value

/-- A loop keeps what every round keeps. -/
theorem forM {act : Item → Action State Error PUnit} {raised : Error → State → Prop}
    (keeps : List Item → State → Prop) (items : List Item)
    (each : ∀ done item rest, items = done ++ item :: rest →
      Ensures (keeps done) (act item) (fun _ => keeps (done ++ [item])) raised) :
    Ensures (keeps []) (items.forM act) (fun _ => keeps items) raised := by
  have onward : ∀ rest done, items = done ++ rest →
      Ensures (keeps done) (rest.forM act) (fun _ => keeps items) raised := by
    intro rest
    induction rest with
    | nil =>
      intro done whole
      rw [List.append_nil] at whole
      rw [whole]
      exact pure fun _ => id
    | cons item rest ih =>
      intro done whole
      change Ensures _ (act item >>= fun _ => rest.forM act) _ _
      refine bind (each done item rest whole) fun _ => ?_
      exact ih (done ++ [item]) (by rw [whole, List.append_assoc]; rfl)
  exact onward items [] rfl

end Ensures

end Nexora.Std
