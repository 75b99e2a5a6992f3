import Nexora.Std.Table

/-!
# Statements on many rows

Deleting and changing the rows that meet a condition, and inserting a list of rows, each
described by what lookup returns afterwards; and what a query for one key lists.
-/

namespace Nexora.Std.Table

universe u v

variable {Key : Type u} {Row : Type v} [DecidableEq Key] {table : Table Key Row} {key : Key}
  {row : Row}

/-- Delete the rows that meet a condition. -/
def deleteWhere (table : Table Key Row) (condition : Key → Row → Bool) : Table Key Row :=
  ((table.select condition).map Prod.fst).foldl erase table

/-- Change the rows that meet a condition. -/
def updateWhere (table : Table Key Row) (condition : Key → Row → Bool) (change : Row → Row) :
    Table Key Row :=
  table.mapRows fun key row => if condition key row then change row else row

/-- Insert rows one after the other; a key already taken is refused. -/
def insertAll? (table : Table Key Row) (rows : List (Key × Row)) : Option (Table Key Row) :=
  rows.foldlM (fun current row => current.insert? row.1 row.2) table

/-- The rows that are left after a deletion are those that did not meet its condition. -/
theorem find?_deleteWhere (table : Table Key Row) (condition : Key → Row → Bool) (key : Key) :
    (table.deleteWhere condition).find? key =
      (table.find? key).filter fun row => !condition key row := by
  have listed : key ∈ (table.select condition).map Prod.fst ↔
      ∃ row, table.find? key = some row ∧ condition key row = true := by
    simp only [List.mem_map, Prod.exists, mem_select, exists_and_right, exists_eq_right]
  rw [deleteWhere, find?_foldl_erase]
  cases found : table.find? key with
  | none => simp
  | some row =>
    by_cases meets : condition key row = true
    · have member := listed.mpr ⟨row, found, meets⟩
      simp [member, meets, Option.filter]
    · have absent : key ∉ (table.select condition).map Prod.fst := by
        rw [listed, found]
        rintro ⟨_, same, holds⟩
        cases same
        exact meets holds
      simp only [if_neg absent, Option.filter, Bool.of_not_eq_true meets, Bool.not_false, if_true]

/-- A row that is left after a deletion was there and did not meet its condition. -/
theorem find?_deleteWhere_eq_some {condition : Key → Row → Bool} :
    (table.deleteWhere condition).find? key = some row ↔
      table.find? key = some row ∧ condition key row = false := by
  rw [find?_deleteWhere]
  simp

/-- Lookup after a change of the rows that meet a condition. -/
theorem find?_updateWhere (table : Table Key Row) (condition : Key → Row → Bool)
    (change : Row → Row) (key : Key) :
    (table.updateWhere condition change).find? key =
      (table.find? key).map fun row => if condition key row then change row else row :=
  find?_mapRows table _ key

/-- Inserted rows are added to those that were there; their keys were free. -/
theorem insertAll?_eq_some {next : Table Key Row} {rows : List (Key × Row)}
    (inserted : table.insertAll? rows = some next) :
    (∀ key row, next.find? key = some row ↔ table.find? key = some row ∨ (key, row) ∈ rows) ∧
      ∀ entry ∈ rows, table.find? entry.1 = none := by
  induction rows generalizing table with
  | nil =>
    cases inserted
    simp
  | cons entry rest ih =>
    simp only [insertAll?, List.foldlM_cons, Option.bind_eq_bind, Option.bind_eq_some_iff,
      insert?_eq_some] at inserted
    obtain ⟨middle, ⟨free, rfl⟩, others⟩ := inserted
    obtain ⟨rows, absent⟩ := ih others
    constructor
    · intro key row
      rw [rows, find?_put_eq, List.mem_cons]
      by_cases same : key = entry.1
      · subst same
        simp only [if_true, free, Option.some.injEq, reduceCtorEq, false_or]
        constructor
        · rintro (rfl | member)
          · exact .inl rfl
          · exact .inr member
        · rintro (isEntry | member)
          · exact .inl (by rw [← isEntry])
          · exact .inr member
      · simp only [same, if_false]
        constructor
        · rintro (present | member)
          · exact .inl present
          · exact .inr (.inr member)
        · rintro (present | isEntry | member)
          · exact .inl present
          · exact absurd (congrArg Prod.fst isEntry) same
          · exact .inr member
    · intro other member
      rcases List.mem_cons.mp member with rfl | later
      · exact free
      · have missing := absent other later
        rw [find?_put_eq] at missing
        split at missing
        · cases missing
        · exact missing

/-- A query for a key lists the row under it once. -/
theorem select_key (present : table.find? key = some row) :
    table.select (fun other _ => other = key) = [(key, row)] := by
  have only : ∀ entry ∈ table.select fun other _ => other = key, entry = (key, row) := by
    rintro ⟨other, found⟩ member
    obtain ⟨isFound, same⟩ := (mem_select _ _ _ _).mp member
    rw [of_decide_eq_true same, present] at isFound
    rw [of_decide_eq_true same, Option.some.inj isFound]
  have listed : (key, row) ∈ table.select fun other _ => other = key :=
    (mem_select _ _ _ _).mpr ⟨present, decide_eq_true rfl⟩
  have alone := List.eq_replicate_iff.mpr ⟨rfl, only⟩
  have distinct := table.nodup_select fun other _ => decide (other = key)
  rw [alone, List.map_replicate, List.nodup_replicate] at distinct
  have positive := List.length_pos_of_mem listed
  rw [alone, show (table.select fun other _ => decide (other = key)).length = 1 by omega]
  rfl

end Nexora.Std.Table
