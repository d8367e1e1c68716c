import Mathlib.Data.List.Nodup
import MindMapVault.Foundations.RoseTree

/-!
# What is drawn with consecutive numbers

One who draws a name for each thing he builds has drawn those of an interval. Intervals that
follow each other are one interval, and where no two draws are the same, no two of an interval
are.
-/

universe u v w

variable {α : Type u}

/-- The items are the draws from one number to another. -/
structure Drawn (draw : Nat → α) (first after : Nat) (items : List α) : Prop where
  le : first ≤ after
  eq : items = (List.range' first (after - first)).map draw

namespace Drawn

variable {draw : Nat → α} {first middle after : Nat} {items others : List α}

theorem nil (first : Nat) : Drawn draw first first [] where
  le := Nat.le_refl first
  eq := by rw [Nat.sub_self]; rfl

theorem one (first : Nat) : Drawn draw first (first + 1) [draw first] where
  le := Nat.le_succ first
  eq := by rw [Nat.add_sub_cancel_left]; rfl

theorem append (front : Drawn draw first middle items) (back : Drawn draw middle after others) :
    Drawn draw first after (items ++ others) where
  le := Nat.le_trans front.le back.le
  eq := by
    have length : after - first = middle - first + (after - middle) := by
      have := front.le
      have := back.le
      omega
    rw [length, ← List.range'_append_1, Nat.add_sub_of_le front.le, List.map_append, front.eq,
      back.eq]

theorem cons (rest : Drawn draw (first + 1) after items) :
    Drawn draw first after (draw first :: items) :=
  (one first).append rest

/-- No two of them are the same, if no two draws are. -/
theorem nodup (drawn : Drawn draw first after items) (injective : Function.Injective draw) :
    items.Nodup := by
  rw [drawn.eq, List.nodup_map_iff injective]
  exact List.nodup_range'

/-- Each of them is a draw. -/
theorem exists_draw (drawn : Drawn draw first after items) {item : α} (listed : item ∈ items) :
    ∃ number, draw number = item := by
  rw [drawn.eq] at listed
  obtain ⟨number, -, same⟩ := List.mem_map.mp listed
  exact ⟨number, same⟩

end Drawn

section Walk

variable {β : Type v} {γ : Type w} (draw : Nat → α) (visit : Nat → β → Nat × γ) (name : γ → α)
  (counts : ∀ number item, (visit number item).1 = number + 1)
  (names : ∀ number item, name (visit number item).2 = draw number)

include counts names

theorem drawn_walkList (first : Nat) (items : List β) :
    Drawn draw first (RoseTree.walkList visit first items).1
      ((RoseTree.walkList visit first items).2.map name) := by
  induction items generalizing first with
  | nil => exact .nil first
  | cons item items ih =>
      rw [RoseTree.walkList, List.map_cons, names, counts]
      exact (ih (first + 1)).cons

/-- A walk that draws a name at every node names the nodes with consecutive numbers. -/
theorem drawn_walk (first : Nat) (tree : RoseTree β) :
    Drawn draw first (RoseTree.walk visit first tree).1
      ((RoseTree.walk visit first tree).2.labels.map name) := by
  have drawn := drawn_walkList draw visit name counts names first tree.labels
  rw [← RoseTree.walk_labels] at drawn
  exact drawn

end Walk
