import Mathlib.Data.List.Nodup

/-!
# Rows with a unique key

A table keeps its rows in the order of insertion and refuses a row whose key it already
holds, so no two of its rows share a key. What selects a row by more than its key finds
that row or none.
-/

namespace UniqueKeys

universe u v
variable {α : Type u} {β : Type v} {key : α → β}

/-- Rows in the order of their insertion, no two with the same key. -/
structure Table (key : α → β) where
  rows : List α
  unique : (rows.map key).Nodup

namespace Table

/-- A table without rows. -/
def empty (key : α → β) : Table key := ⟨[], List.nodup_nil⟩

/-- A new row whose key is not held keeps the keys apart. -/
theorem unique_append {rows : List α} {row : α} (unique : (rows.map key).Nodup)
    (fresh : key row ∉ rows.map key) : ((rows ++ [row]).map key).Nodup := by
  rw [List.map_append, List.map_singleton]
  apply unique.append (List.nodup_singleton _)
  rw [List.disjoint_singleton]
  exact fresh

/-- A row with a new key is put behind the others. -/
def insert [DecidableEq β] (table : Table key) (row : α) : Option (Table key) :=
  if held : key row ∈ table.rows.map key then none
  else some ⟨table.rows ++ [row], unique_append table.unique held⟩

/-- The first row that is selected. -/
def find? (table : Table key) (selected : α → Bool) : Option α := table.rows.find? selected

variable [DecidableEq β] {table : Table key} {row : α}

/-- A row whose key is held is turned away. -/
theorem insert_held (held : key row ∈ table.rows.map key) : table.insert row = none :=
  dif_pos held

/-- A row whose key is new is stored behind the others. -/
theorem insert_fresh (fresh : key row ∉ table.rows.map key) :
    ∃ after, table.insert row = some after ∧ after.rows = table.rows ++ [row] :=
  ⟨_, dif_neg fresh, rfl⟩

omit [DecidableEq β] in
/-- A condition that only rows with one key meet finds the row of the table with it. -/
theorem find?_eq {selected : α → Bool} (member : row ∈ table.rows) (met : selected row = true)
    (only : ∀ other, selected other = true → key other = key row) :
    table.find? selected = some row := by
  cases found : table.rows.find? selected with
  | none => exact absurd met (List.find?_eq_none.mp found row member)
  | some other =>
    have same := only other (List.find?_some found)
    have equal := List.inj_on_of_nodup_map table.unique (List.mem_of_find?_eq_some found)
      member same
    rw [find?, found, equal]

end Table

end UniqueKeys
