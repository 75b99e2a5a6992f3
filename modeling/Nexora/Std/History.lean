import Mathlib
import Nexora.Std.Fallible

/-!
# Runs and their histories

A machine is a set of initial states and a labelled step relation. A run keeps the
history of the transitions it took, oldest first, so that a property may speak of
what happened earlier as well as of the state that was reached. The rules below
are the inductions over runs: an invariant of every step, an invariant of the
steps a side condition admits, and an induction on what a run extends.
-/

namespace Nexora.Std

universe u v

/-- A labelled transition relation with its initial states. -/
structure Machine (State : Type u) (Label : Type v) where
  Initial : State → Prop
  Step : State → Label → State → Prop

/-- One step of a run, with the states on both sides of it. -/
structure Transition (State : Type u) (Label : Type v) where
  before : State
  label : Label
  after : State

namespace Machine

variable {State : Type u} {Label : Type v} {machine : Machine State Label}
  {history earlier later : List (Transition State Label)} {start final : State}
  {transition : Transition State Label} {Error : Type} {run : State → Label → Except Error State}
  {labels : List Label}

/-- A finite sequence of steps from one state to another. -/
inductive Steps (machine : Machine State Label) (start : State) :
    List (Transition State Label) → State → Prop where
  | refl : Steps machine start [] start
  | step {history state label next}
      (prior : Steps machine start history state)
      (transition : machine.Step state label next) :
      Steps machine start (history ++ [⟨state, label, next⟩]) next

/-- A finite run from an initial state, with the whole history that led there. -/
inductive Runs (machine : Machine State Label) :
    List (Transition State Label) → State → Prop where
  | initial {state} (valid : machine.Initial state) : Runs machine [] state
  | step {history state label next}
      (prior : Runs machine history state)
      (transition : machine.Step state label next) :
      Runs machine (history ++ [⟨state, label, next⟩]) next

/-- A state some run ends in. -/
def Reachable (machine : Machine State Label) (state : State) : Prop :=
  ∃ history, machine.Runs history state

/-- What every admitted step preserves holds after any sequence of admitted steps. -/
theorem Steps.invariantWhile (Inv : State → Prop) (Admitted : Transition State Label → Prop)
    (preserved : ∀ state label next, Inv state → machine.Step state label next →
      Admitted ⟨state, label, next⟩ → Inv next) (steps : machine.Steps start history final)
    (holds : Inv start) (admitted : ∀ transition ∈ history, Admitted transition) : Inv final := by
  induction steps with
  | refl => exact holds
  | step prior transition ih =>
    refine preserved _ _ _ (ih ?_) transition (admitted _ (by simp))
    intro earlier member
    exact admitted earlier (by simp [member])

/-- What every step preserves holds after any sequence of steps. -/
theorem Steps.invariant (Inv : State → Prop)
    (preserved : ∀ state label next, Inv state → machine.Step state label next → Inv next)
    (steps : machine.Steps start history final) (holds : Inv start) :
    Inv final :=
  steps.invariantWhile Inv (fun _ => True)
    (fun state label next inv transition _ => preserved state label next inv transition)
    holds (fun _ _ => trivial)

/-- What holds of the empty history and is preserved by every admitted step, together with
the history so far, holds after every run of admitted steps. -/
theorem Runs.invariantWithHistoryWhile (Inv : List (Transition State Label) → State → Prop)
    (Admitted : Transition State Label → Prop)
    (initial : ∀ state, machine.Initial state → Inv [] state)
    (preserved : ∀ history state label next, machine.Runs history state → Inv history state →
      machine.Step state label next → Admitted ⟨state, label, next⟩ →
      Inv (history ++ [⟨state, label, next⟩]) next) {state : State}
    (runs : machine.Runs history state) (admitted : ∀ transition ∈ history, Admitted transition) :
    Inv history state := by
  induction runs with
  | initial valid => exact initial _ valid
  | step prior transition ih =>
    refine preserved _ _ _ _ prior (ih ?_) transition (admitted _ (by simp))
    intro earlier member
    exact admitted earlier (by simp [member])

/-- What holds of the empty history and is preserved by every step, together with the
history so far, holds after every run. -/
theorem Runs.invariantWithHistory (Inv : List (Transition State Label) → State → Prop)
    (initial : ∀ state, machine.Initial state → Inv [] state)
    (preserved : ∀ history state label next, Inv history state → machine.Step state label next →
      Inv (history ++ [⟨state, label, next⟩]) next) {state : State}
    (runs : machine.Runs history state) : Inv history state :=
  runs.invariantWithHistoryWhile Inv (fun _ => True) initial
    (fun history state label next _ inv step _ => preserved history state label next inv step)
    (fun _ _ => trivial)

/-- What holds initially and is preserved by every admitted step holds after every
run of admitted steps. -/
theorem Runs.invariantWhile (Inv : State → Prop) (Admitted : Transition State Label → Prop)
    (initial : ∀ state, machine.Initial state → Inv state)
    (preserved : ∀ state label next, Inv state → machine.Step state label next →
      Admitted ⟨state, label, next⟩ → Inv next) {state : State} (runs : machine.Runs history state)
    (admitted : ∀ transition ∈ history, Admitted transition) : Inv state :=
  runs.invariantWithHistoryWhile (fun _ => Inv) Admitted initial
    (fun _ state label next _ => preserved state label next) admitted

/-- What holds initially and is preserved by every step holds after every run. -/
theorem Runs.invariant (Inv : State → Prop) (initial : ∀ state, machine.Initial state → Inv state)
    (preserved : ∀ state label next, Inv state → machine.Step state label next → Inv next)
    {state : State} (runs : machine.Runs history state) : Inv state :=
  runs.invariantWithHistory (fun _ => Inv) initial fun _ => preserved

/-- A run up to one of its transitions is a run, and what follows it is a sequence of steps. -/
theorem Runs.split (runs : machine.Runs history final)
    (splits : history = earlier ++ transition :: later) :
    machine.Runs earlier transition.before ∧
      machine.Step transition.before transition.label transition.after ∧
      machine.Steps transition.after later final := by
  induction runs generalizing later with
  | initial => simp at splits
  | @step before state label next prior last ih =>
    rcases List.eq_nil_or_concat later with rfl | ⟨between, final, rfl⟩
    · obtain ⟨same, isLast⟩ := List.append_inj' splits rfl
      cases same
      cases isLast
      exact ⟨prior, last, .refl⟩
    · have regrouped : before ++ [⟨state, label, next⟩] =
          (earlier ++ transition :: between) ++ [final] := by simpa using splits
      obtain ⟨same, isFinal⟩ := List.append_inj' regrouped rfl
      cases isFinal
      obtain ⟨runs, step, steps⟩ := ih same
      rw [List.concat_eq_append]
      exact ⟨runs, step, .step steps last⟩

/-- Every transition of a run is a step. -/
theorem Runs.step_of_mem {state : State} (runs : machine.Runs history state)
    (member : transition ∈ history) :
    machine.Step transition.before transition.label transition.after := by
  obtain ⟨earlier, later, splits⟩ := List.append_of_mem member
  exact (runs.split splits).2.1

/-- What every step preserves holds before each step of a sequence. -/
theorem Steps.invariant_before (Inv : State → Prop)
    (preserved : ∀ state label next, Inv state → machine.Step state label next → Inv next)
    (steps : machine.Steps start history final) (holds : Inv start)
    (member : transition ∈ history) :
    Inv transition.before ∧
      machine.Step transition.before transition.label transition.after := by
  induction steps with
  | refl => cases member
  | step prior step ih =>
    rcases List.mem_append.mp member with earlier | last
    · exact ih earlier
    · rw [List.mem_singleton.mp last]
      exact ⟨prior.invariant Inv preserved holds, step⟩

/-- What holds of a run once it holds of every run the run extends. -/
theorem Runs.strongInduction {motive : List (Transition State Label) → State → Prop}
    (each : ∀ history state, machine.Runs history state →
      (∀ earlier transition later, history = earlier ++ transition :: later →
        motive earlier transition.before) → motive history state) {state : State}
    (runs : machine.Runs history state) : motive history state := by
  induction size : history.length using Nat.strong_induction_on generalizing history state with
  | _ size ih =>
    refine each history state runs fun earlier transition later splits => ?_
    refine ih earlier.length ?_ (runs.split splits).1 rfl
    rw [← size, splits]
    simp

/-- What every step preserves once it holds, and what it entails of every step since. -/
theorem Runs.afterwards (Inv : State → Prop) (Fact : Transition State Label → Prop)
    (preserved : ∀ state label next, Inv state → machine.Step state label next →
      Inv next ∧ Fact ⟨state, label, next⟩) {since : Transition State Label}
    (runs : machine.Runs history final) (splits : history = earlier ++ since :: later)
    (holds : Inv since.after) :
    Inv final ∧ ∀ transition ∈ later, Fact transition := by
  obtain ⟨-, -, steps⟩ := runs.split splits
  have kept (state label next) (inv : Inv state) (step : machine.Step state label next) :
      Inv next := (preserved state label next inv step).1
  refine ⟨steps.invariant Inv kept holds, fun transition member => ?_⟩
  obtain ⟨inv, step⟩ := steps.invariant_before Inv kept holds member
  exact (preserved _ _ _ inv step).2

/-- The machine of a fallible transition function: a step is a successful call. -/
def ofFunction {Error : Type} (initial : State → Prop)
    (run : State → Label → Except Error State) : Machine State Label where
  Initial := initial
  Step := fun state label next => run state label = .ok next

/-- Executing labels in order is a sequence of steps with those labels. -/
theorem steps_of_replay (initial : State → Prop) (replay : labels.foldlM run start = .ok final) :
    ∃ history, (ofFunction initial run).Steps start history final ∧
      history.map Transition.label = labels := by
  induction labels using List.reverseRecOn generalizing final with
  | nil =>
    rw [List.foldlM_nil, pure_eq_ok] at replay
    subst replay
    exact ⟨[], .refl, rfl⟩
  | append_singleton labels label ih =>
    rw [List.foldlM_append, bind_eq_ok] at replay
    obtain ⟨middle, earlier, last⟩ := replay
    rw [List.foldlM_cons, bind_eq_ok] at last
    obtain ⟨next, transition, done⟩ := last
    rw [List.foldlM_nil, pure_eq_ok] at done
    subst done
    obtain ⟨history, steps, listed⟩ := ih earlier
    exact ⟨history ++ [⟨middle, label, next⟩], .step steps transition, by simp [listed]⟩

/-- A sequence of steps from an initial state is a run. -/
theorem Runs.ofSteps (valid : machine.Initial start) (steps : machine.Steps start history final) :
    machine.Runs history final := by
  induction steps with
  | refl => exact .initial valid
  | step _ transition ih => exact .step ih transition

/-- Executing labels from an initial state to one that passes a check is a run with those
labels that ends in such a state. -/
theorem exists_run_of_replay (initial : State → Prop) (run : State → Label → Except Error State)
    (labels : List Label) (start : State) (check : State → Bool) (valid : initial start)
    (passes : (labels.foldlM run start).toOption.map check = some true) :
    ∃ history final, (ofFunction initial run).Runs history final ∧
      history.map Transition.label = labels ∧ check final = true := by
  obtain ⟨final, replay, checked⟩ := exists_ok_of_check _ check passes
  obtain ⟨history, steps, listed⟩ := steps_of_replay initial replay
  exact ⟨history, final, .ofSteps valid steps, listed, checked⟩

/-- A step before a sequence of steps. -/
theorem Steps.cons {middle : State} {label : Label} (transition : machine.Step start label middle)
    (later : machine.Steps middle history final) :
    machine.Steps start (⟨start, label, middle⟩ :: history) final := by
  induction later with
  | refl => exact .step .refl transition
  | step _ last ih => exact .step ih last

/-- What is checked of every element of a list and what stands before it. -/
theorem of_all_splits {Item : Type} {check : List Item → Item → Bool} {items earlier later : List Item}
    {item : Item} (passes : ((List.range items.length).all fun index =>
      items[index]?.all (check (items.take index))) = true)
    (splits : items = earlier ++ item :: later) : check earlier item = true := by
  have here := List.all_eq_true.mp passes earlier.length (by simp [splits])
  simpa [splits] using here

/-- An element of a list passes a check together with what stands before and after it. -/
def splitsAt {Item : Type} (items : List Item) (index : Nat)
    (check : List Item → Item → List Item → Bool) : Bool :=
  items[index]?.any fun item => check (items.take index) item (items.drop (index + 1))

/-- The element a check at one index is about. -/
theorem exists_split {Item : Type} {items : List Item} {index : Nat}
    {check : List Item → Item → List Item → Bool} (passes : splitsAt items index check = true) :
    ∃ earlier item later, items = earlier ++ item :: later ∧ check earlier item later = true := by
  obtain ⟨item, at_, checked⟩ := (Option.any_eq_true _ _).mp passes
  obtain ⟨inside, rfl⟩ := List.getElem?_eq_some_iff.mp at_
  refine ⟨items.take index, items[index], items.drop (index + 1), ?_, checked⟩
  rw [← List.drop_eq_getElem_cons inside, List.take_append_drop]

/-- The transitions of executing labels in order, with the state they end in. -/
def trace {Error : Type} (run : State → Label → Except Error State) (start : State) :
    List Label → Except Error (List (Transition State Label) × State)
  | [] => .ok ([], start)
  | label :: rest =>
    match run start label with
    | .error raised => .error raised
    | .ok next =>
      (trace run next rest).map fun later => (⟨start, label, next⟩ :: later.1, later.2)

/-- The transitions of executing labels in order are a sequence of steps. -/
theorem steps_of_trace (initial : State → Prop)
    (traced : trace run start labels = .ok (history, final)) :
    (ofFunction initial run).Steps start history final := by
  induction labels generalizing start history with
  | nil =>
    cases traced
    exact .refl
  | cons label rest ih =>
    unfold trace at traced
    split at traced
    case h_1 => cases traced
    case h_2 next transition =>
      cases others : trace run next rest with
      | error raised =>
        rw [others] at traced
        cases traced
      | ok later =>
        rw [others] at traced
        cases traced
        exact .cons transition (ih others)

/-- Executing labels from an initial state, where the history and the state it ends in pass
a check. -/
theorem exists_run_of_trace (initial : State → Prop) (run : State → Label → Except Error State)
    (labels : List Label) (start : State) (check : List (Transition State Label) → State → Bool)
    (valid : initial start)
    (passes : (trace run start labels).toOption.map (fun traced => check traced.1 traced.2) =
      some true) :
    ∃ history final, (ofFunction initial run).Runs history final ∧ check history final = true := by
  obtain ⟨⟨history, final⟩, traced, checked⟩ := exists_ok_of_check _ _ passes
  exact ⟨history, final, .ofSteps valid (steps_of_trace initial traced), checked⟩

end Machine

end Nexora.Std
