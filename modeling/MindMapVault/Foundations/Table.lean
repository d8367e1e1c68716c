import Mathlib.Data.List.Nodup
import Mathlib.Data.List.Perm.Basic

/-!
# Keyed tables

A table is a list of rows in which no key occurs twice, as a primary key
demands. The statements that change one say what they do to a row and to which
rows; each comes with what it does to the row a key finds, so that the list
itself need not be looked at again.
-/

universe u v

/-- Rows with pairwise distinct keys. -/
structure Table {Row : Type u} {Key : Type v} (key : Row → Key) where
  rows : List Row
  distinct : (rows.map key).Nodup

namespace Table

variable {Row : Type u} {Key : Type v} {key : Row → Key}

/-- A table without rows. -/
def empty : Table key := ⟨[], List.nodup_nil⟩

/-- `SELECT` the rows that satisfy a condition. -/
def select (table : Table key) (condition : Row → Bool) : List Row := table.rows.filter condition

/-- Changing rows without their keys leaves the keys of the table. -/
theorem map_key_update {change : Row → Row} (keepsKey : ∀ row, key (change row) = key row)
    (condition : Row → Bool) (rows : List Row) :
    (rows.map fun row => if condition row then change row else row).map key = rows.map key := by
  rw [List.map_map]
  refine List.map_congr_left fun row _ => ?_
  simp only [Function.comp_apply]
  split_ifs
  · exact keepsKey row
  · rfl

/-- `INSERT` a row whose key is new. -/
def insert (table : Table key) (row : Row) (new : key row ∉ table.rows.map key) :
    Table key where
  rows := table.rows ++ [row]
  distinct := by
    rw [List.map_append, List.nodup_append]
    refine ⟨table.distinct, List.nodup_singleton _, ?_⟩
    intro old present added last
    rw [List.map_singleton, List.mem_singleton] at last
    rintro rfl
    exact new (last ▸ present)

/-- `UPDATE` the rows that satisfy a condition, leaving their keys. -/
def update (table : Table key) (condition : Row → Bool) (change : Row → Row)
    (keepsKey : ∀ row, key (change row) = key row) : Table key where
  rows := table.rows.map fun row => if condition row then change row else row
  distinct := by
    rw [map_key_update keepsKey]
    exact table.distinct

/-- `DELETE` the rows that satisfy a condition. -/
def delete (table : Table key) (condition : Row → Bool) : Table key where
  rows := table.rows.filter fun row => !condition row
  distinct := table.distinct.sublist (List.filter_sublist.map key)

@[simp] theorem mem_select
    {table : Table key} {condition : Row → Bool} {row : Row} :
    row ∈ table.select condition ↔ row ∈ table.rows ∧ condition row = true :=
  List.mem_filter

/-- The row of a key is unique. -/
theorem eq_of_key_eq (table : Table key) {row other : Row}
    (present : row ∈ table.rows) (otherPresent : other ∈ table.rows)
    (same : key row = key other) : row = other :=
  List.inj_on_of_nodup_map table.distinct present otherPresent same

theorem mem_rows_update {table : Table key} {condition : Row → Bool} {change : Row → Row}
    {keepsKey : ∀ row, key (change row) = key row} {after : Row} :
    after ∈ (table.update condition change keepsKey).rows ↔
      ∃ row ∈ table.rows, (if condition row then change row else row) = after :=
  List.mem_map

@[simp] theorem keys_update
    (table : Table key) (condition : Row → Bool) (change : Row → Row)
    (keepsKey : ∀ row, key (change row) = key row) :
    (table.update condition change keepsKey).rows.map key = table.rows.map key :=
  map_key_update keepsKey condition table.rows

@[simp] theorem mem_rows_delete
    {table : Table key} {condition : Row → Bool} {row : Row} :
    row ∈ (table.delete condition).rows ↔ row ∈ table.rows ∧ condition row = false := by
  simp [delete]

@[simp] theorem mem_rows_insert
    {table : Table key} {row other : Row} (new : key row ∉ table.rows.map key) :
    other ∈ (table.insert row new).rows ↔ other ∈ table.rows ∨ other = row := by
  simp [insert]

section Find

variable [DecidableEq Key]

/-- The row of a key. -/
def find? (table : Table key) (wanted : Key) : Option Row :=
  table.rows.find? fun row => decide (key row = wanted)

theorem find?_eq_some {table : Table key} {wanted : Key} {row : Row} :
    table.find? wanted = some row ↔ row ∈ table.rows ∧ key row = wanted := by
  constructor
  · intro found
    exact ⟨List.mem_of_find?_eq_some found, by simpa using List.find?_some found⟩
  · rintro ⟨present, same⟩
    cases found : table.find? wanted with
    | none =>
        have differs := List.find?_eq_none.mp found row present
        simp [same] at differs
    | some other =>
        have otherKey : key other = wanted := by
          simpa using List.find?_some found
        rw [table.eq_of_key_eq (List.mem_of_find?_eq_some found) present (otherKey.trans same.symm)]

/-- An update changes the row of a key where its condition says so. -/
theorem find?_update (table : Table key) (condition : Row → Bool) (change : Row → Row)
    (keepsKey : ∀ row, key (change row) = key row) (wanted : Key) :
    (table.update condition change keepsKey).find? wanted =
      (table.find? wanted).map fun row =>
        if condition row then change row else row := by
  cases found : table.find? wanted with
  | none =>
      rw [Option.map_none]
      refine List.find?_eq_none.mpr fun after present => ?_
      obtain ⟨row, old, rfl⟩ := mem_rows_update.mp present
      have differs := List.find?_eq_none.mp found row old
      split_ifs
      · rw [keepsKey]
        exact differs
      · exact differs
  | some row =>
      obtain ⟨present, same⟩ := find?_eq_some.mp found
      rw [Option.map_some]
      refine find?_eq_some.mpr ⟨mem_rows_update.mpr ⟨row, present, rfl⟩, ?_⟩
      split_ifs
      · rw [keepsKey, same]
      · exact same

end Find

/-- The row of a key in a list whose keys are distinct. -/
theorem list_find?_of_distinct [DecidableEq Key]
    {rows : List Row} (distinct : (rows.map key).Nodup) {row : Row} (present : row ∈ rows) :
    rows.find? (key · == key row) = some row := by
  have found : find? (⟨rows, distinct⟩ : Table key) (key row) = some row :=
    find?_eq_some.mpr ⟨present, rfl⟩
  exact found

/-- What a list of pairs with distinct keys says of a key. -/
theorem lookup_of_distinct {Value : Type u} [BEq Key] [LawfulBEq Key]
    {pairs : List (Key × Value)} (distinct : (pairs.map Prod.fst).Nodup)
    {key : Key} {value : Value} (present : (key, value) ∈ pairs) :
    pairs.lookup key = some value := by
  obtain ⟨before, after, rfl⟩ := List.append_of_mem present
  refine List.lookup_eq_some_iff.mpr ⟨before, after, rfl, fun pair earlier => ?_⟩
  rw [bne_iff_ne]
  rintro rfl
  rw [List.map_append, List.nodup_append] at distinct
  exact distinct.2.2 pair.1 (List.mem_map_of_mem earlier) pair.1 (by simp) rfl

end Table
