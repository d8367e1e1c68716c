import Mathlib.Data.List.Basic

/-!
# Lists with a place in them

A place in a list of states, with what is behind it, newest first, and what is ahead. A
new state takes the place of what is ahead. The newest states of a zipper are a zipper.
-/

universe u v

/-- A state, what came before it, newest first, and what was undone. -/
structure Zipper (T : Type u) where
  past : List T
  present : T
  future : List T

namespace Zipper

variable {T : Type u} {S : Type v}

/-- One state and nothing else. -/
def start (state : T) : Zipper T := ⟨[], state, []⟩

/-- A new state, behind the one there is. -/
def push (zipper : Zipper T) (state : T) : Zipper T := ⟨zipper.present :: zipper.past, state, []⟩

/-- One state back. -/
def undo (zipper : Zipper T) : Option (Zipper T) :=
  match zipper.past with
  | [] => none
  | state :: past => some ⟨past, state, zipper.present :: zipper.future⟩

/-- One state forward. -/
def redo (zipper : Zipper T) : Option (Zipper T) :=
  match zipper.future with
  | [] => none
  | state :: future => some ⟨zipper.present :: zipper.past, state, future⟩

/-- How many states there are. -/
def size (zipper : Zipper T) : Nat := zipper.past.length + 1 + zipper.future.length

/-- Only the newest states: the oldest are forgotten, down to a limit. -/
def newest (limit : Nat) (zipper : Zipper T) : Zipper T :=
  { zipper with past := zipper.past.take (limit - (zipper.future.length + 1)) }

/-- The zipper with every state changed. -/
def map (change : T → S) (zipper : Zipper T) : Zipper S :=
  ⟨zipper.past.map change, change zipper.present, zipper.future.map change⟩

/-- The state is one of them. -/
def Mem (zipper : Zipper T) (state : T) : Prop :=
  state ∈ zipper.past ∨ state = zipper.present ∨ state ∈ zipper.future

theorem map_congr {first second : T → S} {zipper : Zipper T}
    (same : ∀ state, zipper.Mem state → first state = second state) :
    zipper.map first = zipper.map second := by
  have past : zipper.past.map first = zipper.past.map second :=
    List.map_congr_left fun state present => same state (.inl present)
  have future : zipper.future.map first = zipper.future.map second :=
    List.map_congr_left fun state present => same state (.inr (.inr present))
  rw [map, map, past, future, same _ (.inr (.inl rfl))]

@[simp] theorem size_map (change : T → S) (zipper : Zipper T) :
    (zipper.map change).size = zipper.size := by
  simp only [size, map, List.length_map]

/-- Within the limit, nothing is forgotten. -/
theorem newest_eq_self {limit : Nat} {zipper : Zipper T} (within : zipper.size ≤ limit) :
    zipper.newest limit = zipper := by
  have kept : zipper.past.take (limit - (zipper.future.length + 1)) = zipper.past := by
    apply List.take_of_length_le
    unfold size at within
    omega
  rw [newest, kept]

theorem map_push (change : T → S) (zipper : Zipper T) (state : T) :
    (zipper.push state).map change = (zipper.map change).push (change state) := rfl

theorem map_newest (change : T → S) (limit : Nat) (zipper : Zipper T) :
    (zipper.newest limit).map change = (zipper.map change).newest limit := by
  simp only [newest, map, List.map_take, List.length_map]

theorem map_undo (change : T → S) (zipper : Zipper T) :
    (zipper.map change).undo = zipper.undo.map (map change) := by
  obtain ⟨past, present, future⟩ := zipper
  cases past <;> rfl

theorem map_redo (change : T → S) (zipper : Zipper T) :
    (zipper.map change).redo = zipper.redo.map (map change) := by
  obtain ⟨past, present, future⟩ := zipper
  cases future <;> rfl

end Zipper
