import Mathlib

/-!
# Keyed tables

A table is a finite map from primary keys to rows. `Table.find?` is the one
observation every other lemma is stated through: an insertion, an update by key,
an update of every row and a deletion are each described by what `find?` returns
afterwards, so an invariant of the rows never opens the representation.
-/

namespace Nexora.Std

universe u v

/-- A finite set of rows under distinct primary keys. -/
structure Table (Key : Type u) (Row : Type v) where
  alist : AList (fun _ : Key => Row)

namespace Table

variable {Key : Type u} {Row : Type v} [DecidableEq Key] {table : Table Key Row}
  {condition : Key → Row → Bool}

instance [DecidableEq Row] : DecidableEq (Table Key Row) := fun left right =>
  decidable_of_iff (left.alist = right.alist)
    ⟨fun same => by cases left; cases right; simpa using same, fun same => by rw [same]⟩

/-- The table without rows. -/
def empty : Table Key Row := ⟨∅⟩

instance : Inhabited (Table Key Row) := ⟨empty⟩

/-- The row stored under a key. -/
def find? (table : Table Key Row) (key : Key) : Option Row :=
  table.alist.lookup key

/-- Store a row under a key, whatever was there before. -/
def put (table : Table Key Row) (key : Key) (row : Row) : Table Key Row :=
  ⟨table.alist.insert key row⟩

/-- Store a row under a new key; a key already taken is refused. -/
def insert? (table : Table Key Row) (key : Key) (row : Row) : Option (Table Key Row) :=
  match table.find? key with
  | none => some (table.put key row)
  | some _ => none

/-- Change the row stored under a key and leave a missing key missing. -/
def modify (table : Table Key Row) (key : Key) (change : Row → Row) : Table Key Row :=
  match table.find? key with
  | none => table
  | some row => table.put key (change row)

/-- Rewrite every row, keeping its key. -/
def mapRows (table : Table Key Row) (change : Key → Row → Row) : Table Key Row :=
  ⟨⟨table.alist.entries.map (Sigma.map id change),
    List.NodupKeys.map₂ change _ table.alist.nodupKeys⟩⟩

/-- Remove the row stored under a key. -/
def erase (table : Table Key Row) (key : Key) : Table Key Row :=
  ⟨table.alist.erase key⟩

/-- The rows with their keys, in no order a caller may rely on. -/
def entries (table : Table Key Row) : List (Key × Row) :=
  table.alist.entries.map fun entry => (entry.1, entry.2)

/-- The rows that satisfy a condition, with their keys. -/
def select (table : Table Key Row) (condition : Key → Row → Bool) : List (Key × Row) :=
  table.entries.filter fun entry => condition entry.1 entry.2

/-- A row that satisfies a condition, with its key. -/
def first? (table : Table Key Row) (condition : Key → Row → Bool) : Option (Key × Row) :=
  (table.select condition).head?

/-- Some row satisfies a condition. -/
def any (table : Table Key Row) (condition : Key → Row → Bool) : Bool :=
  table.entries.any fun entry => condition entry.1 entry.2

/-- Build a table from rows under distinct keys; the first row of a key wins. -/
def ofList : List (Key × Row) → Table Key Row
  | [] => empty
  | (key, row) :: rest => (ofList rest).put key row

@[simp]
theorem find?_empty (key : Key) : (empty : Table Key Row).find? key = none :=
  AList.lookup_empty key

@[simp]
theorem find?_put (table : Table Key Row) (key : Key) (row : Row) :
    (table.put key row).find? key = some row :=
  AList.lookup_insert _

@[simp]
theorem find?_put_ne (table : Table Key Row) {key other : Key} (row : Row)
    (distinct : other ≠ key) : (table.put key row).find? other = table.find? other :=
  AList.lookup_insert_ne distinct

/-- Lookup after a store, by whether the key is the one stored. -/
theorem find?_put_eq (table : Table Key Row) (key other : Key) (row : Row) :
    (table.put key row).find? other = if other = key then some row else table.find? other := by
  by_cases same : other = key
  · subst same
    simp
  · simp [same]

/-- An insertion succeeds exactly when the key was free, and then stores the row. -/
theorem insert?_eq_some (table next : Table Key Row) (key : Key) (row : Row) :
    table.insert? key row = some next ↔ table.find? key = none ∧ next = table.put key row := by
  unfold insert?
  cases found : table.find? key with
  | none => simp [eq_comm]
  | some _ => simp

/-- Lookup after a change by key: the row under that key changes, no other does. -/
theorem find?_modify (table : Table Key Row) (key other : Key) (change : Row → Row) :
    (table.modify key change).find? other =
      if other = key then (table.find? key).map change else table.find? other := by
  unfold modify
  cases found : table.find? key with
  | none =>
    by_cases same : other = key
    · subst same
      simpa using found
    · simp [same]
  | some row => simp [find?_put_eq]

@[simp]
theorem find?_modify_self (table : Table Key Row) (key : Key) (change : Row → Row) :
    (table.modify key change).find? key = (table.find? key).map change := by
  simp [find?_modify]

@[simp]
theorem find?_modify_ne (table : Table Key Row) {key other : Key} (change : Row → Row)
    (distinct : other ≠ key) : (table.modify key change).find? other = table.find? other := by
  simp [find?_modify, distinct]

@[simp]
theorem find?_mapRows (table : Table Key Row) (change : Key → Row → Row) (key : Key) :
    (table.mapRows change).find? key = (table.find? key).map (change key) :=
  List.dlookup_map₂ key

/-- One row is stored or changed, and no other. -/
def Written (before after : Table Key Row) (key : Key) (row : Row) : Prop :=
  ∀ other, after.find? other = if other = key then some row else before.find? other

namespace Written

variable {before after : Table Key Row} {key : Key} {row : Row}

theorem put (before : Table Key Row) (key : Key) (row : Row) :
    Written before (before.put key row) key row := fun other => find?_put_eq before key other row

theorem modify (change : Row → Row) (found : before.find? key = some row) :
    Written before (before.modify key change) key (change row) := by
  intro other
  rw [find?_modify, found]
  rfl

theorem ofModify {change : Row → Row} (same : after = before.modify key change)
    (found : before.find? key = some row) : Written before after key (change row) := by
  rw [same]
  exact .modify change found

theorem self (written : Written before after key row) : after.find? key = some row := by
  rw [written key, if_pos rfl]

theorem other (written : Written before after key row) {other : Key} (distinct : other ≠ key) :
    after.find? other = before.find? other := by
  rw [written other, if_neg distinct]

/-- A row that is found afterwards is the one written or was there before. -/
theorem found (written : Written before after key row) {other : Key} {later : Row}
    (present : after.find? other = some later) :
    (other = key ∧ later = row) ∨ (other ≠ key ∧ before.find? other = some later) := by
  rw [written other] at present
  split at present
  · exact .inl ⟨by assumption, (Option.some.inj present).symm⟩
  · exact .inr ⟨by assumption, present⟩

/-- A row that was there before is there or has been written over. -/
theorem kept (written : Written before after key row) {other : Key} {earlier : Row}
    (present : before.find? other = some earlier) :
    (other = key ∧ after.find? other = some row) ∨
      (other ≠ key ∧ after.find? other = some earlier) := by
  by_cases same : other = key
  · exact .inl ⟨same, same ▸ written.self⟩
  · exact .inr ⟨same, (written.other same).trans present⟩

/-- A row written twice is the one written last. -/
theorem again {last : Table Key Row} {final : Row} (written : Written before after key row)
    (rewritten : Written after last key final) : Written before last key final := by
  intro other
  rw [rewritten other]
  split
  · rfl
  · exact written.other (by assumption)

end Written

/-- Lookup after a removal. -/
theorem find?_erase (table : Table Key Row) (key other : Key) :
    (table.erase key).find? other = if other = key then none else table.find? other := by
  by_cases same : other = key
  · subst same
    simp [find?, erase]
  · simp [find?, erase, same]

/-- A row that is found after a removal was there, under another key. -/
theorem of_find?_erase {key other : Key} {row : Row}
    (present : (table.erase key).find? other = some row) :
    other ≠ key ∧ table.find? other = some row := by
  rw [find?_erase] at present
  split at present
  · cases present
  · exact ⟨by assumption, present⟩

/-- Removing keys one after the other leaves the rows under the other keys. -/
theorem find?_foldl_erase (keys : List Key) (table : Table Key Row) (key : Key) :
    (keys.foldl erase table).find? key = if key ∈ keys then none else table.find? key := by
  induction keys generalizing table with
  | nil => rfl
  | cons head rest ih =>
    rw [List.foldl_cons, ih, find?_erase]
    by_cases isHead : key = head <;> by_cases inRest : key ∈ rest <;>
      simp [isHead, inRest]

/-- The entries of a table are exactly what lookup returns. -/
@[simp]
theorem mem_entries (table : Table Key Row) (key : Key) (row : Row) :
    (key, row) ∈ table.entries ↔ table.find? key = some row := by
  have lookup := AList.mem_lookup_iff (a := key) (b := row) (s := table.alist)
  rw [Option.mem_def] at lookup
  rw [find?, lookup, entries, List.mem_map]
  constructor
  · rintro ⟨⟨_, _⟩, member, same⟩
    cases same
    exact member
  · intro member
    exact ⟨⟨key, row⟩, member, rfl⟩

omit [DecidableEq Key] in
/-- A table without entries is the empty one. -/
theorem eq_empty_of_entries (none : table.entries = []) :
    table = empty := by
  obtain ⟨alist⟩ := table
  have entries : alist.entries = [] := List.map_eq_nil_iff.mp none
  exact congrArg Table.mk (AList.ext entries)

@[simp]
theorem mem_select (table : Table Key Row) (condition : Key → Row → Bool) (key : Key)
    (row : Row) : (key, row) ∈ table.select condition ↔
      table.find? key = some row ∧ condition key row = true := by
  simp [select]

omit [DecidableEq Key] in
/-- No key is listed twice. -/
theorem nodup_select (table : Table Key Row) (condition : Key → Row → Bool) :
    ((table.select condition).map Prod.fst).Nodup := by
  have distinct : (table.entries.map Prod.fst).Nodup := by
    simpa [entries, List.NodupKeys, List.keys, Function.comp_def] using table.alist.nodupKeys
  exact (List.filter_sublist.map Prod.fst).nodup distinct

/-- A search returns a row of the table that satisfies the condition. -/
theorem of_first? {key : Key} {row : Row} (listed : table.first? condition = some (key, row)) :
    table.find? key = some row ∧ condition key row = true := by
  have member : (key, row) ∈ table.select condition := List.mem_of_head? listed
  rwa [mem_select] at member

/-- A search fails when no row satisfies the condition. -/
theorem first?_eq_none (table : Table Key Row) (condition : Key → Row → Bool) :
    table.first? condition = none ↔
      ∀ key row, table.find? key = some row → condition key row = false := by
  rw [first?, List.head?_eq_none_iff, List.eq_nil_iff_forall_not_mem]
  simp only [Prod.forall, mem_select, not_and, Bool.not_eq_true]

/-- A search finds the only row that satisfies the condition. -/
theorem first?_eq_some_of_unique {key : Key} {row : Row} (present : table.find? key = some row)
    (meets : condition key row = true)
    (unique : ∀ other otherRow, table.find? other = some otherRow →
      condition other otherRow = true → other = key) :
    table.first? condition = some (key, row) := by
  cases found : table.first? condition with
  | none =>
    have fails := (first?_eq_none table condition).mp found key row present
    rw [meets] at fails
    cases fails
  | some entry =>
    obtain ⟨other, otherRow⟩ := entry
    obtain ⟨otherPresent, otherMeets⟩ := of_first? found
    have same := unique other otherRow otherPresent otherMeets
    rw [same, present] at otherPresent
    rw [same, Option.some.inj otherPresent]

/-- A condition holds of some row exactly when lookup finds such a row. -/
@[simp]
theorem any_eq_true (table : Table Key Row) (condition : Key → Row → Bool) :
    table.any condition = true ↔
      ∃ key row, table.find? key = some row ∧ condition key row = true := by
  simp only [any, List.any_eq_true, Prod.exists, mem_entries]

end Table

end Nexora.Std
