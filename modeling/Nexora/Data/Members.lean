import Nexora.Data.Json

/-!
# Members of objects

What a key finds among the members of an object, whose keys are distinct as in a `dict`.
-/

namespace Nexora.Json

/-- A text of characters has no unpaired surrogate. -/
theorem py_noSurrogate (text : String) : (py text).any isSurrogate = false := by
  rw [List.any_eq_false]
  intro point member
  obtain ⟨character, -, rfl⟩ := List.mem_map.mp member
  intro inside
  simp only [isSurrogate, Bool.and_eq_true, decide_eq_true_eq] at inside
  rcases character.valid with low | high
  · exact absurd inside.1 (Nat.not_le.mpr low)
  · exact absurd inside.2 (Nat.not_le.mpr high.1)

variable {members : List (PyStr × Json)} {key : PyStr} {member : PyStr × Json} {value : Json}

/-- A member is found under its key. -/
theorem lookup_of_mem (distinct : (members.map Prod.fst).Nodup) (present : member ∈ members) :
    lookup member.1 members = some member.2 := by
  induction members with
  | nil => cases present
  | cons first rest ih =>
    rw [List.map_cons, List.nodup_cons] at distinct
    rw [lookup]
    rcases List.mem_cons.mp present with rfl | later
    · rw [if_pos rfl]
    · have other : first.1 ≠ member.1 := by
        intro same
        exact distinct.1 (same ▸ List.mem_map.mpr ⟨member, later, rfl⟩)
      rw [if_neg other]
      exact ih distinct.2 later

/-- What is found under a key is a member. -/
theorem mem_of_lookup (found : lookup key members = some value) :
    (key, value) ∈ members := by
  induction members with
  | nil => cases found
  | cons first rest ih =>
    rw [lookup] at found
    split at found
    · rename_i same
      cases found
      exact same ▸ List.mem_cons_self
    · exact List.mem_cons_of_mem _ (ih found)

theorem lookup_eq_none : lookup key members = none ↔ key ∉ members.map Prod.fst := by
  induction members with
  | nil => simp [lookup]
  | cons first rest ih =>
    rw [lookup, List.map_cons, List.mem_cons, not_or]
    split
    · rename_i same
      simp [same]
    · rename_i other
      simp [ih, Ne.symm other]

/-- A list or an object. -/
def isContainer : Json → Bool
  | .array _ | .object _ => true
  | _ => false

/-- Different texts are different strings. -/
theorem py_injective : Function.Injective py := by
  intro first second same
  refine String.toList_inj.mp (List.map_injective_iff.mpr ?_ same)
  intro one two points
  simp only [Fin.mk.injEq] at points
  exact Char.ext (UInt32.toNat_inj.mp points)

/-! ## Induction on what a value holds -/

/-- A member's value is smaller than the object. -/
theorem sizeOf_member (present : member ∈ members) :
    sizeOf member.2 < sizeOf (object members) := by
  have inside := List.sizeOf_lt_of_mem present
  obtain ⟨key, value⟩ := member
  simp only [Prod.mk.sizeOf_spec, object.sizeOf_spec] at inside ⊢
  omega

theorem sizeOf_lookup (found : lookup key members = some value) :
    sizeOf value < sizeOf (object members) :=
  sizeOf_member (mem_of_lookup found)

/-- An item is smaller than the array. -/
theorem sizeOf_item {items : List Json} {item : Json} (present : item ∈ items) :
    sizeOf item < sizeOf (array items) := by
  have inside := List.sizeOf_lt_of_mem present
  simp only [array.sizeOf_spec]
  omega

/-- What holds of a value once it holds of all smaller ones holds of every value. -/
theorem smallerInduction {motive : Json → Prop}
    (each : ∀ value : Json, (∀ smaller : Json, sizeOf smaller < sizeOf value → motive smaller) →
      motive value) (value : Json) : motive value := by
  induction size : sizeOf value using Nat.strong_induction_on generalizing value with
  | _ size ih =>
    apply each
    intro smaller less
    exact ih (sizeOf smaller) (size ▸ less) smaller rfl

theorem anyItem_eq (string : PyStr → Bool) (scalar : Json → Bool) (items : List Json) :
    anyItem string scalar items = items.any (anyPart string scalar) := by
  induction items with
  | nil => rfl
  | cons item rest ih => rw [anyItem, ih, List.any_cons]

theorem anyMember_eq (string : PyStr → Bool) (scalar : Json → Bool)
    (members : List (PyStr × Json)) :
    anyMember string scalar members =
      members.any fun member => string member.1 || anyPart string scalar member.2 := by
  induction members with
  | nil => rfl
  | cons member rest ih => rw [anyMember, ih, List.any_cons]

/-- Conditions that agree on the elements of a list agree on whether one of them satisfies them. -/
theorem any_congr {Item : Type} {items : List Item} {first second : Item → Bool}
    (same : ∀ item ∈ items, first item = second item) : items.any first = items.any second := by
  induction items with
  | nil => rfl
  | cons item rest ih =>
    rw [List.forall_mem_cons] at same
    rw [List.any_cons, List.any_cons, same.1, ih same.2]

/-- Members that are filtered by their keys. -/
theorem lookup_filter_keys (kept : PyStr → Bool) (key : PyStr) :
    lookup key (members.filter fun member => kept member.1) =
      if kept key then lookup key members else none := by
  induction members with
  | nil => simp [lookup]
  | cons member rest ih =>
    obtain ⟨name, value⟩ := member
    by_cases stays : kept name = true
    · rw [List.filter_cons_of_pos (by simpa using stays), lookup, ih, lookup]
      by_cases same : name = key
      · subst same
        simp [stays]
      · simp [same]
    · rw [List.filter_cons_of_neg (by simpa using stays), ih, lookup]
      by_cases same : name = key
      · subst same
        simp [stays]
      · simp [same]

end Nexora.Json
