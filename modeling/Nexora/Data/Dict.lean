import Mathlib

/-!
# Dictionaries in insertion order

A Python `dict` with text keys. The keys are distinct by construction, so a filter
keeps exactly the entries a lookup would have found.
-/

namespace Nexora

universe u

/-- A `dict` from texts to values: distinct keys, in insertion order. -/
structure Dict (α : Type u) where
  entries : List (String × α)
  distinct : (entries.map Prod.fst).Nodup

namespace Dict

variable {α : Type u}

instance [DecidableEq α] : DecidableEq (Dict α) := fun left right =>
  decidable_of_iff (left.entries = right.entries)
    ⟨fun same => by cases left; cases right; simpa using same, fun same => by rw [same]⟩

/-- The dictionary without entries. -/
def empty : Dict α := ⟨[], by simp⟩

/-- `d.get(key)`. -/
def get? (dict : Dict α) (key : String) : Option α :=
  (dict.entries.find? fun entry => entry.1 = key).map Prod.snd

/-- The keys, in insertion order. -/
def keys (dict : Dict α) : List String := dict.entries.map Prod.fst

/-- The entries that satisfy a condition. -/
def filter (dict : Dict α) (condition : String → α → Bool) : Dict α where
  entries := dict.entries.filter fun entry => condition entry.1 entry.2
  distinct := (List.filter_sublist.map Prod.fst).nodup dict.distinct

/-- Replace the values of a key that is present, in place. -/
def replace (dict : Dict α) (key : String) (value : α) : Dict α where
  entries := dict.entries.map fun entry => (entry.1, if entry.1 = key then value else entry.2)
  distinct := by
    have same : (dict.entries.map fun entry =>
        (entry.1, if entry.1 = key then value else entry.2)).map Prod.fst =
        dict.entries.map Prod.fst := by
      simp [Function.comp_def]
    rw [same]
    exact dict.distinct

/-- The only value a lookup can find is the one entered under the key. -/
theorem get?_eq_some (dict : Dict α) (key : String) (value : α) :
    dict.get? key = some value ↔ (key, value) ∈ dict.entries := by
  obtain ⟨entries, distinct⟩ := dict
  unfold get?
  dsimp only
  induction entries with
  | nil => simp
  | cons head rest ih =>
    obtain ⟨name, stored⟩ := head
    rw [List.map_cons, List.nodup_cons] at distinct
    have tail := ih distinct.2
    by_cases same : name = key
    · subst same
      have absent : (name, value) ∉ rest := fun member =>
        distinct.1 (List.mem_map.mpr ⟨_, member, rfl⟩)
      simp [absent, eq_comm]
    · simpa [same, Ne.symm same] using tail

/-- Filtering keeps what a lookup finds when it satisfies the condition. -/
theorem get?_filter (dict : Dict α) (condition : String → α → Bool) (key : String) :
    (dict.filter condition).get? key = (dict.get? key).filter (condition key) := by
  ext value
  rw [Option.filter_eq_some_iff, get?_eq_some, get?_eq_some, filter, List.mem_filter]

end Dict

end Nexora
