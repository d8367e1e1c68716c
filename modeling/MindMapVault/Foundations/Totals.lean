import MindMapVault.Foundations.Table
import Mathlib.Algebra.Order.BigOperators.Group.List

/-!
# Totals over a table

`SELECT SUM(...)` over the rows that satisfy a condition is a total of weights, where
the other rows weigh nothing. An insert adds the weight of its row, an update is a
total of other weights, and totals compare as their weights do.
-/

universe u v w

namespace Table

variable {Row : Type u} {Key : Type v} {key : Row → Key}

section Monoid

variable {M : Type w} [AddCommMonoid M]

/-- What the rows weigh together. -/
def total (table : Table key) (weight : Row → M) : M := (table.rows.map weight).sum

/-- `SUM` with a `WHERE`. -/
theorem sum_select (table : Table key) (condition : Row → Bool) (size : Row → M) :
    ((table.select condition).map size).sum =
      table.total fun row => if condition row then size row else 0 := by
  unfold select total
  induction table.rows with
  | nil => rfl
  | cons row rows ih =>
      rw [List.map_cons, List.sum_cons, ← ih]
      cases holds : condition row with
      | false => simp [holds]
      | true => simp [holds]

theorem total_insert (table : Table key) {row : Row} (new : key row ∉ table.rows.map key)
    (weight : Row → M) :
    (table.insert row new).total weight = table.total weight + weight row := by
  simp [total, insert]

theorem total_update (table : Table key) (condition : Row → Bool) (change : Row → Row)
    (keepsKey : ∀ row, key (change row) = key row) (weight : Row → M) :
    (table.update condition change keepsKey).total weight =
      table.total fun row => weight (if condition row then change row else row) := by
  rw [total, update, List.map_map]
  rfl

theorem total_add (table : Table key) (first second : Row → M) :
    table.total (fun row => first row + second row) = table.total first + table.total second :=
  List.sum_map_add

theorem total_congr {table : Table key} {first second : Row → M}
    (same : ∀ row ∈ table.rows, first row = second row) :
    table.total first = table.total second :=
  congrArg List.sum (List.map_congr_left same)

end Monoid

theorem total_le {M : Type w} [AddCommMonoid M] [Preorder M] [AddLeftMono M] [AddRightMono M]
    {table : Table key} {first second : Row → M}
    (below : ∀ row ∈ table.rows, first row ≤ second row) :
    table.total first ≤ table.total second :=
  List.sum_le_sum below

/-- A total that is less weighs some row less. -/
theorem exists_lt_of_total_lt
    {M : Type w} [AddCommMonoid M] [LinearOrder M] [AddLeftMono M] [AddRightMono M]
    {table : Table key} {first second : Row → M} (less : table.total first < table.total second) :
    ∃ row ∈ table.rows, first row < second row :=
  List.exists_lt_of_sum_lt first second less

section Ordered

variable {M : Type w} [AddCommMonoid M] [PartialOrder M] [IsOrderedAddMonoid M]

theorem total_nonneg
    {table : Table key} {weight : Row → M} (nonneg : ∀ row ∈ table.rows, 0 ≤ weight row) :
    0 ≤ table.total weight := by
  refine List.sum_nonneg fun value present => ?_
  obtain ⟨row, rowPresent, rfl⟩ := List.mem_map.mp present
  exact nonneg row rowPresent

/-- A row that is selected and weighs something makes the `SUM` positive. -/
theorem sum_select_pos {table : Table key} {condition : Row → Bool} {size : Row → M} {row : Row}
    (nonneg : ∀ other ∈ table.rows, 0 ≤ size other) (present : row ∈ table.rows)
    (selected : condition row = true) (weighs : 0 < size row) :
    0 < ((table.select condition).map size).sum := by
  refine weighs.trans_le (List.single_le_sum ?_ _
    (List.mem_map_of_mem (mem_select.mpr ⟨present, selected⟩)))
  intro value valuePresent
  obtain ⟨other, otherSelected, rfl⟩ := List.mem_map.mp valuePresent
  exact nonneg other (mem_select.mp otherSelected).1

end Ordered

end Table
