import Mathlib.Data.List.Basic

/-!
# Sequences of fallible statements

What a successful sequence of `Except` computations has gone through: one lemma
for a bind and one for a loop whose body checks first and then acts.
-/

universe u v w x

namespace Result

variable {ε : Type u} {α : Type v} {β : Type v}

/-- Whatever the computation yields has the property. -/
def Ensures (property : α → Prop) (result : Except ε α) : Prop :=
  ∀ value, result = .ok value → property value

section Ensures

variable {property : α → Prop}

theorem ensures_ok {value : α} (holds : property value) :
    Ensures property (.ok value : Except ε α) := by
  rintro _ ⟨⟩
  exact holds

theorem ensures_error (error : ε) : Ensures property (.error error) := nofun

/-- What the rest of a sequence ensures, the sequence does. -/
theorem ensures_bind {first : Except ε β} {rest : β → Except ε α}
    (later : ∀ value, first = .ok value → Ensures property (rest value)) :
    Ensures property (first >>= rest) := by
  cases first with
  | error error => exact ensures_error error
  | ok value => exact later value rfl

theorem ensures_ite {condition : Prop} [Decidable condition] {first second : Except ε α}
    (holds : Ensures property first) (otherwise : Ensures property second) :
    Ensures property (if condition then first else second) := by
  split_ifs
  · exact holds
  · exact otherwise

end Ensures

/-- A sequence succeeds when its first part does and the rest does from there. -/
theorem bind_eq_ok {first : Except ε α} {rest : α → Except ε β} {result : β} :
    (first >>= rest) = .ok result ↔ ∃ value, first = .ok value ∧ rest value = .ok result := by
  cases first with
  | error error => simp [bind, Except.bind]
  | ok value => simp [bind, Except.bind]

/-- A check that refuses where its condition holds passes where it does not. -/
theorem refuse_eq_ok {condition : Prop} [Decidable condition]
    {error : ε} {rest : Except ε α} {result : α} :
    (if condition then .error error else rest) = .ok result ↔ ¬ condition ∧ rest = .ok result := by
  by_cases holds : condition
  · simp [holds]
  · simp [holds]

/-- A loop that may be refused at every element succeeds when it is refused at
none, and then has folded its step over all of them. -/
theorem foldlM_eq_ok {σ : Type v} {Item : Type w}
    (allow : Item → Except ε PUnit.{v + 1}) (step : σ → Item → σ)
    (items : List Item) {start result : σ} :
    items.foldlM (fun state item => do
        allow item
        pure (step state item)) start = .ok result ↔
      (∀ item ∈ items, allow item = .ok ⟨⟩) ∧ items.foldl step start = result := by
  induction items generalizing start with
  | nil => simp [pure, Except.pure]
  | cons item items ih =>
      rw [List.foldlM_cons, bind_eq_ok]
      constructor
      · rintro ⟨next, taken, rest⟩
        obtain ⟨_, allowed, moved⟩ := bind_eq_ok.mp taken
        cases Except.ok.inj moved
        obtain ⟨others, folded⟩ := ih.mp rest
        refine ⟨fun other present => ?_, folded⟩
        rcases List.mem_cons.mp present with rfl | later
        · exact allowed
        · exact others other later
      · rintro ⟨allowed, folded⟩
        refine ⟨step start item, ?_, ?_⟩
        · exact bind_eq_ok.mpr ⟨⟨⟩, allowed item List.mem_cons_self, rfl⟩
        · exact ih.mpr ⟨fun other later => allowed other (List.mem_cons_of_mem _ later), folded⟩

/-- Renaming the error leaves the successes. -/
theorem mapError_eq_ok {ε' : Type w} {first : Except ε α} {rename : ε → ε'} {result : α} :
    first.mapError rename = .ok result ↔ first = .ok result := by
  cases first with
  | error error => simp [Except.mapError]
  | ok value => simp [Except.mapError]

theorem map_eq_ok {first : Except ε α} {change : α → β} {result : β} :
    first.map change = .ok result ↔ ∃ value, first = .ok value ∧ change value = result := by
  cases first with
  | error error => simp [Except.map]
  | ok value => simp [Except.map]

/-- Forgetting the errors leaves the successes. -/
theorem toOption_eq_some {result : Except ε α} {value : α} :
    result.toOption = some value ↔ result = .ok value := by
  cases result with
  | error error => simp [Except.toOption]
  | ok other => simp [Except.toOption]

/-- A fallible map that succeeds pairs the elements with the results. -/
theorem mapM_mem {Item : Type w} {f : Item → Except ε α} {items : List Item} {results : List α}
    (mapped : items.mapM f = .ok results) :
    (∀ item ∈ items, ∃ result ∈ results, f item = .ok result) ∧
      ∀ result ∈ results, ∃ item ∈ items, f item = .ok result := by
  induction items generalizing results with
  | nil =>
      cases mapped
      exact ⟨by simp, by simp⟩
  | cons item items ih =>
      rw [List.mapM_cons] at mapped
      obtain ⟨first, taken, rest⟩ := bind_eq_ok.mp mapped
      obtain ⟨others, later, same⟩ := bind_eq_ok.mp rest
      cases same
      obtain ⟨forward, backward⟩ := ih later
      constructor
      · intro other present
        rcases List.mem_cons.mp present with rfl | inRest
        · exact ⟨first, List.mem_cons_self, taken⟩
        · obtain ⟨result, listed, paired⟩ := forward other inRest
          exact ⟨result, List.mem_cons_of_mem _ listed, paired⟩
      · intro result present
        rcases List.mem_cons.mp present with rfl | inRest
        · exact ⟨item, List.mem_cons_self, taken⟩
        · obtain ⟨other, listed, paired⟩ := backward result inRest
          exact ⟨other, List.mem_cons_of_mem _ listed, paired⟩

/-- A fallible map that keeps a key keeps the keys in their order. -/
theorem mapM_map_key {Item : Type w} {Key : Type x} {f : Item → Except ε α}
    {itemKey : Item → Key} {key : α → Key}
    (keeps : ∀ item result, f item = .ok result → key result = itemKey item)
    {items : List Item} {results : List α} (mapped : items.mapM f = .ok results) :
    results.map key = items.map itemKey := by
  induction items generalizing results with
  | nil =>
      cases mapped
      rfl
  | cons item items ih =>
      rw [List.mapM_cons] at mapped
      obtain ⟨first, taken, rest⟩ := bind_eq_ok.mp mapped
      obtain ⟨others, later, same⟩ := bind_eq_ok.mp rest
      cases same
      rw [List.map_cons, List.map_cons, keeps item first taken, ih later]

end Result
