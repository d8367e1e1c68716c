/-!
# Calls that may fail

A call to something remote is done and says so, is refused with nothing done, or
is done while its answer is lost. The caller sees the last two as the same
failure; what the call would change is changed in the first and the last.
-/

universe u

namespace Remote

/-- How a call ends. -/
inductive Outcome
  | done
  | refused
  | unanswered
  deriving DecidableEq

namespace Outcome

/-- The caller is told that the call succeeded. -/
def reported : Outcome → Bool
  | .done => true
  | .refused | .unanswered => false

/-- What the call leaves behind of a change it was asked to make. -/
def applied {α : Type u} : Outcome → (α → α) → α → α
  | .done, change, before | .unanswered, change, before => change before
  | .refused, _, before => before

@[simp] theorem applied_done {α : Type u} (change : α → α) (before : α) :
    applied .done change before = change before := rfl

@[simp] theorem applied_refused {α : Type u} (change : α → α) (before : α) :
    applied .refused change before = before := rfl

@[simp] theorem applied_unanswered {α : Type u} (change : α → α) (before : α) :
    applied .unanswered change before = change before := rfl

/-- What a call leaves behind is what was there or what it was asked to leave. -/
theorem applied_eq {α : Type u} (outcome : Outcome) (change : α → α) (before : α) :
    outcome.applied change before = before ∨ outcome.applied change before = change before := by
  cases outcome with
  | done => exact .inr rfl
  | refused => exact .inl rfl
  | unanswered => exact .inr rfl

/-- A write that may be refused for what it is ends: what it leaves behind, and what the
caller is told. -/
def perform {Store Error : Type} (outcome : Outcome) (store : Store)
    (executed : Except Error Store) (error : Error) : Store × Except Error Unit :=
  match outcome, executed with
  | .done, .ok after => (after, .ok ())
  | .unanswered, .ok after => (after, .error error)
  | .done, .error refusal => (store, .error refusal)
  | .unanswered, .error _ | .refused, _ => (store, .error error)

/-- It leaves what there was, or has gone through. -/
theorem perform_cases {Store Error : Type} (outcome : Outcome) (store : Store)
    (executed : Except Error Store) (error : Error) :
    (outcome.perform store executed error).1 = store ∧
        (outcome = .refused ∨ ∃ refusal, executed = .error refusal) ∨
      outcome ≠ .refused ∧ executed = .ok (outcome.perform store executed error).1 := by
  cases executed with
  | error refusal =>
      left
      cases outcome with
      | refused => exact ⟨rfl, .inl rfl⟩
      | done | unanswered => exact ⟨rfl, .inr ⟨refusal, rfl⟩⟩
  | ok after =>
      cases outcome with
      | refused => exact .inl ⟨rfl, .inl rfl⟩
      | done | unanswered => exact .inr ⟨by simp, rfl⟩

end Outcome

end Remote
