import Mathlib

/-!
# Self-delimiting encodings

An encoding is self-delimiting when what follows an encoded value can be told from it. Such
encodings may be written one after the other without losing what was encoded.
-/

namespace Nexora.Std

universe u v

variable {α : Type u} {β : Type v} {encode : α → List β} {rest other mark : List β}
  {first second : List α} {item : β} {stop : β → Prop}

/-- What an encoded value is, and what follows it, is known from both together. -/
def SelfDelimiting (encode : α → List β) : Prop :=
  ∀ first second rest other, encode first ++ rest = encode second ++ other →
    first = second ∧ rest = other

/-- An encoding that a reader can take off the front of a text is self-delimiting. -/
theorem SelfDelimiting.ofReader (read : List β → Option (α × List β))
    (reads : ∀ value rest, read (encode value ++ rest) = some (value, rest)) :
    SelfDelimiting encode := by
  intro first second rest other same
  have both := reads first rest
  rw [same, reads second other, Option.some.injEq, Prod.mk.injEq] at both
  exact ⟨both.1.symm, both.2.symm⟩

/-- A list of values between which nothing stands, up to an item no value starts with. -/
theorem SelfDelimiting.terminated (each : SelfDelimiting encode) (stop : β)
    (clean : ∀ value rest other, encode value ++ rest ≠ stop :: other) :
    SelfDelimiting fun values : List α => values.flatMap encode ++ [stop] := by
  intro first
  induction first with
  | nil =>
    intro second rest other same
    cases second with
    | nil => exact ⟨rfl, by simpa using same⟩
    | cons head tail =>
      refine absurd ?_ (clean head (tail.flatMap encode ++ [stop] ++ other) rest)
      simpa using same.symm
  | cons value values ih =>
    intro second rest other same
    cases second with
    | nil =>
      refine absurd ?_ (clean value (values.flatMap encode ++ [stop] ++ rest) other)
      simpa using same
    | cons head tail =>
      simp only [List.flatMap_cons, List.append_assoc] at same
      obtain ⟨isHead, others⟩ := each _ _ _ _ same
      rw [← List.append_assoc, ← List.append_assoc] at others
      obtain ⟨sameTail, sameRest⟩ := ih _ _ _ others
      exact ⟨by rw [isHead, sameTail], sameRest⟩

/-- Where the encodings of valid values tell what follows them, lists of such values are told
apart by what they are written as. -/
theorem flatMap_inj {valid : α → Prop}
    (each : ∀ first second, valid first → valid second → ∀ rest other,
      encode first ++ rest = encode second ++ other → first = second ∧ rest = other)
    (some_ : ∀ value, valid value → encode value ≠ []) {first second : List α}
    (firstValid : ∀ value ∈ first, valid value) (secondValid : ∀ value ∈ second, valid value)
    (same : first.flatMap encode = second.flatMap encode) : first = second := by
  induction first generalizing second with
  | nil =>
    cases second with
    | nil => rfl
    | cons value values =>
      rw [List.forall_mem_cons] at secondValid
      rw [List.flatMap_nil, List.flatMap_cons, eq_comm, List.append_eq_nil_iff] at same
      exact absurd same.1 (some_ value secondValid.1)
  | cons value values ih =>
    rw [List.forall_mem_cons] at firstValid
    cases second with
    | nil =>
      rw [List.flatMap_nil, List.flatMap_cons, List.append_eq_nil_iff] at same
      exact absurd same.1 (some_ value firstValid.1)
    | cons next others =>
      rw [List.forall_mem_cons] at secondValid
      rw [List.flatMap_cons, List.flatMap_cons] at same
      obtain ⟨rfl, sameRest⟩ := each value next firstValid.1 secondValid.1 _ _ same
      rw [ih firstValid.2 secondValid.2 sameRest]

/-- A mark that occurs in a text with the mark behind it only at its end. -/
def EndsAt (mark text : List β) : Prop :=
  ∀ index < text.length, ¬ mark <+: (text ++ mark).drop index

/-- A text is known from what it and a mark behind it are the front of, where the mark occurs
there at the end only. -/
theorem EndsAt.unique {first second : List β} (firstEnds : EndsAt mark first)
    (secondEnds : EndsAt mark second) (same : first ++ (mark ++ rest) = second ++ (mark ++ other)) :
    first = second ∧ rest = other := by
  -- The shorter text's mark would occur in the longer text.
  have notShorter : ∀ {shorter longer behind following : List β}, EndsAt mark longer →
      shorter ++ (mark ++ behind) = longer ++ (mark ++ following) →
      ¬ shorter.length < longer.length := by
    intro shorter longer behind following ends isSame short
    have front : mark <+: mark ++ behind := List.prefix_append mark behind
    refine ends shorter.length short (List.prefix_of_prefix_length_le front ?_ ?_)
    · have dropped := congrArg (List.drop shorter.length) isSame
      rw [List.drop_left] at dropped
      rw [dropped, List.drop_append_of_le_length short.le,
        List.drop_append_of_le_length short.le, ← List.append_assoc]
      exact List.prefix_append _ _
    · simp only [List.length_drop, List.length_append]
      omega
  have length : first.length = second.length := by
    have atLeast := notShorter secondEnds same
    have atMost := notShorter firstEnds same.symm
    omega
  obtain ⟨rfl, same⟩ := List.append_inj same length
  exact ⟨rfl, List.append_cancel_left (List.append_cancel_left same)⟩

/-- A mark whose first item is no part of a text occurs behind the text only. -/
theorem EndsAt.of_notMem {item : β} {mark text : List β} (absent : item ∉ text) :
    EndsAt (item :: mark) text := by
  intro index inside occurs
  rw [List.drop_append_of_le_length inside.le, List.drop_eq_getElem_cons inside,
    List.cons_append, List.cons_prefix_cons] at occurs
  exact absent (occurs.1 ▸ List.getElem_mem inside)

/-! ## Encodings that end where something else starts -/

/-- Nothing is left, or what is left starts with an item at which an encoding ends. -/
def Stops (stop : β → Prop) (rest : List β) : Prop := ∀ item ∈ rest.head?, stop item

theorem Stops.nil (stop : β → Prop) : Stops stop [] := by
  intro item member
  cases member

theorem Stops.cons (stops : stop item) (rest : List β) :
    Stops stop (item :: rest) := by
  intro other member
  cases member
  exact stops

/-- A run of items of one kind ends where an item of another kind starts. -/
theorem run_unique {inside : β → Prop} {first second : List β}
    (firstInside : ∀ item ∈ first, inside item) (secondInside : ∀ item ∈ second, inside item)
    (restStops : Stops (fun item => ¬ inside item) rest)
    (otherStops : Stops (fun item => ¬ inside item) other)
    (same : first ++ rest = second ++ other) : first = second ∧ rest = other := by
  induction first generalizing second with
  | nil =>
    cases second with
    | nil => exact ⟨rfl, same⟩
    | cons item tail =>
      rw [List.forall_mem_cons] at secondInside
      rw [List.nil_append] at same
      rw [same] at restStops
      exact absurd secondInside.1 (restStops item rfl)
  | cons item tail ih =>
    rw [List.forall_mem_cons] at firstInside
    cases second with
    | nil =>
      rw [List.nil_append] at same
      rw [← same] at otherStops
      exact absurd firstInside.1 (otherStops item rfl)
    | cons next others =>
      rw [List.forall_mem_cons] at secondInside
      rw [List.cons_append, List.cons_append, List.cons.injEq] at same
      obtain ⟨rfl, same⟩ := same
      obtain ⟨rfl, sameRest⟩ := ih firstInside.2 secondInside.2 same
      exact ⟨rfl, sameRest⟩

/-- Two lists of values, each value after a separator, with a closing item behind the last one:
where an encoding ends at the separator and at the closing item, equal texts encode lists of
values that are related one by one. -/
theorem separated_related {related : α → α → Prop} {separator closing : β}
    (separates : stop separator) (closes : stop closing) (distinct : separator ≠ closing)
    (each : ∀ value ∈ first, ∀ next ∈ second, ∀ rest other, Stops stop rest → Stops stop other →
      encode value ++ rest = encode next ++ other → related value next ∧ rest = other)
    (same : first.flatMap (fun value => separator :: encode value) ++ closing :: rest =
      second.flatMap (fun value => separator :: encode value) ++ closing :: other) :
    List.Forall₂ related first second ∧ rest = other := by
  have stops : ∀ (values : List α) (rest : List β),
      Stops stop (values.flatMap (fun value => separator :: encode value) ++ closing :: rest) := by
    intro values rest
    cases values with
    | nil => exact .cons closes _
    | cons value values => exact .cons separates _
  induction first generalizing second with
  | nil =>
    cases second with
    | nil =>
      simp only [List.flatMap_nil, List.nil_append, List.cons.injEq, true_and] at same
      exact ⟨.nil, same⟩
    | cons next others =>
      simp only [List.flatMap_nil, List.flatMap_cons, List.nil_append, List.cons_append,
        List.cons.injEq] at same
      exact absurd same.1.symm distinct
  | cons value values ih =>
    cases second with
    | nil =>
      simp only [List.flatMap_nil, List.flatMap_cons, List.nil_append, List.cons_append,
        List.cons.injEq] at same
      exact absurd same.1 distinct
    | cons next others =>
      simp only [List.flatMap_cons, List.cons_append, List.cons.injEq, true_and,
        List.append_assoc] at same
      obtain ⟨isRelated, same⟩ := each value List.mem_cons_self next List.mem_cons_self _ _
        (stops values rest) (stops others other) same
      obtain ⟨others', sameRest⟩ := ih
        (fun value member next isNext => each value (List.mem_cons_of_mem _ member) next
          (List.mem_cons_of_mem _ isNext)) same
      exact ⟨.cons isRelated others', sameRest⟩

end Nexora.Std
