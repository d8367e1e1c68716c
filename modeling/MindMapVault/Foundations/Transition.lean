import Mathlib.Logic.Basic

/-!
# Labelled transition systems and their finite runs

A system is a partial step function: a label resolves every choice the
environment makes, and `none` is a label that is not enabled. Runs are finite
lists of labels. Two predicates range over a run, `EveryStep` over its
transitions and `EveryState` over its states, and each induction over a run is
proved here once: an invariant holds at the end of every run, and a property of
all steps or of all states is traded for a condition on the steps.
-/

universe u v

namespace Transition

variable {State : Type u} {Label : Type v}

/-- A labelled transition system given by its partial step function. -/
abbrev System (State : Type u) (Label : Type v) := State → Label → Option State

/-- Follow a list of labels, stopping at the first that is not enabled. -/
def exec (step : System State Label) : State → List Label → Option State
  | state, [] => some state
  | state, label :: labels =>
      (step state label).bind fun next => exec step next labels

@[simp] theorem exec_cons
    (step : System State Label)
    (state : State)
    (label : Label)
    (labels : List Label) :
    exec step state (label :: labels) =
      (step state label).bind fun next => exec step next labels := rfl

/-- A state at the end of some run from `start`. -/
def Reaches (step : System State Label) (start finish : State) : Prop :=
  ∃ labels, exec step start labels = some finish

/-- Every transition of the run stands in `relation`. -/
def EveryStep (step : System State Label)
    (relation : State → Label → State → Prop) : State → List Label → Prop
  | _, [] => True
  | state, label :: labels =>
      match step state label with
      | none => True
      | some next =>
          relation state label next ∧ EveryStep step relation next labels

/-- Every state of the run, its first one included, satisfies `property`. -/
def EveryState (step : System State Label) (property : State → Prop) : State → List Label → Prop
  | state, [] => property state
  | state, label :: labels =>
      property state ∧
        match step state label with
        | none => True
        | some next => EveryState step property next labels

/-- Every step of the run is taken where `allowed` permits its label. -/
abbrev EveryStepAllowed
    (step : System State Label)
    (allowed : State → Label → Prop) : State → List Label → Prop :=
  EveryStep step fun state label _ => allowed state label

section Cons

variable {step : System State Label}

@[simp] theorem everyStep_nil
    (relation : State → Label → State → Prop) (state : State) :
    EveryStep step relation state [] := trivial

theorem everyStep_cons {relation : State → Label → State → Prop}
    {state next : State} {label : Label} {labels : List Label}
    (taken : step state label = some next) :
    EveryStep step relation state (label :: labels) ↔
      relation state label next ∧ EveryStep step relation next labels := by
  simp [EveryStep, taken]

theorem everyStep_cons_disabled {relation : State → Label → State → Prop}
    {state : State} {label : Label} {labels : List Label} (disabled : step state label = none) :
    EveryStep step relation state (label :: labels) := by
  simp [EveryStep, disabled]

theorem everyState_cons {property : State → Prop}
    {state next : State} {label : Label} {labels : List Label}
    (taken : step state label = some next) :
    EveryState step property state (label :: labels) ↔
      property state ∧ EveryState step property next labels := by
  simp [EveryState, taken]

theorem everyState_cons_disabled {property : State → Prop}
    {state : State} {label : Label} {labels : List Label} (disabled : step state label = none) :
    EveryState step property state (label :: labels) ↔ property state := by
  simp [EveryState, disabled]

theorem EveryState.first {property : State → Prop} {state : State} {labels : List Label}
    (holds : EveryState step property state labels) : property state := by
  cases labels with
  | nil => exact holds
  | cons label labels => exact holds.1

theorem EveryState.mono {property property' : State → Prop}
    (implies : ∀ state, property state → property' state) {state : State} {labels : List Label}
    (holds : EveryState step property state labels) :
    EveryState step property' state labels := by
  induction labels generalizing state with
  | nil => exact implies state holds
  | cons label labels ih =>
      cases taken : step state label with
      | none =>
          rw [everyState_cons_disabled taken] at holds ⊢
          exact implies state holds
      | some next =>
          rw [everyState_cons taken] at holds ⊢
          exact ⟨implies state holds.1, ih holds.2⟩

/-- Where two properties agree in every state of a run, one holds of all of them exactly
if the other does. -/
theorem everyState_congr {bound property property' : State → Prop}
    (agree : ∀ state, bound state → (property state ↔ property' state))
    {state : State} {labels : List Label} (within : EveryState step bound state labels) :
    EveryState step property state labels ↔ EveryState step property' state labels := by
  induction labels generalizing state with
  | nil => exact agree state within
  | cons label labels ih =>
      cases taken : step state label with
      | none =>
          rw [everyState_cons_disabled taken, everyState_cons_disabled taken]
          exact agree state within.first
      | some next =>
          rw [everyState_cons taken] at within
          rw [everyState_cons taken, everyState_cons taken, agree state within.1, ih within.2]

end Cons

instance decidableEveryStep
    (step : System State Label)
    (relation : State → Label → State → Prop)
    [∀ state label next, Decidable (relation state label next)] :
    ∀ state labels, Decidable (EveryStep step relation state labels)
  | _, [] => .isTrue trivial
  | state, label :: labels =>
      match taken : step state label with
      | none => .isTrue (everyStep_cons_disabled taken)
      | some next =>
          have := decidableEveryStep step relation next labels
          decidable_of_iff _ (everyStep_cons taken).symm

instance decidableEveryState
    (step : System State Label)
    (property : State → Prop)
    [∀ state, Decidable (property state)] :
    ∀ state labels, Decidable (EveryState step property state labels)
  | state, [] => inferInstanceAs (Decidable (property state))
  | state, label :: labels =>
      match taken : step state label with
      | none => decidable_of_iff _ (everyState_cons_disabled taken).symm
      | some next =>
          have := decidableEveryState step property next labels
          decidable_of_iff _ (everyState_cons taken).symm

/-- An invariant of the steps holds at the end of every run. -/
theorem exec_invariant {step : System State Label} {invariant : State → Prop}
    (preserved : ∀ state label next, invariant state →
      step state label = some next → invariant next)
    {start finish : State} {labels : List Label}
    (initially : invariant start)
    (run : exec step start labels = some finish) : invariant finish := by
  induction labels generalizing start with
  | nil => exact Option.some.inj run ▸ initially
  | cons label labels ih =>
      obtain ⟨next, taken, rest⟩ := Option.bind_eq_some_iff.mp run
      exact ih (preserved start label next initially taken) rest

/-- What an invariant of the allowed steps implies holds in every state of a
run whose steps are all allowed. -/
theorem everyState_of_allowed {step : System State Label} {allowed : State → Label → Prop}
    {invariant property : State → Prop}
    (preserved : ∀ state label next, invariant state →
      allowed state label → step state label = some next → invariant next)
    (implies : ∀ state, invariant state → property state)
    {start : State} {labels : List Label}
    (initially : invariant start)
    (permitted : EveryStepAllowed step allowed start labels) :
    EveryState step property start labels := by
  induction labels generalizing start with
  | nil => exact implies start initially
  | cons label labels ih =>
      cases taken : step start label with
      | none =>
          rw [everyState_cons_disabled taken]
          exact implies start initially
      | some next =>
          obtain ⟨first, others⟩ := (everyStep_cons taken).mp permitted
          rw [everyState_cons taken]
          exact ⟨implies start initially, ih
            (preserved start label next initially first taken) others⟩

/-- A condition that excludes no step permits every run. -/
theorem everyStepAllowed_true (step : System State Label) (start : State) (labels : List Label) :
    EveryStepAllowed step (fun _ _ => True) start labels := by
  induction labels generalizing start with
  | nil => trivial
  | cons label labels ih =>
      cases taken : step start label with
      | none => exact everyStep_cons_disabled taken
      | some next => exact (everyStep_cons taken).mpr ⟨trivial, ih next⟩

/-- An invariant of the steps holds in every state of every run. -/
theorem everyState_of_invariant {step : System State Label} {invariant : State → Prop}
    (preserved : ∀ state label next, invariant state →
      step state label = some next → invariant next)
    {start : State}
    (initially : invariant start)
    (labels : List Label) :
    EveryState step invariant start labels :=
  everyState_of_allowed (fun state label next holds _ => preserved state label next holds)
    (fun _ holds => holds) initially (everyStepAllowed_true step start labels)

/-- What an allowed step from an invariant state satisfies holds of every step of a
run whose steps are all allowed. -/
theorem everyStep_of_allowed {step : System State Label} {allowed : State → Label → Prop}
    {invariant : State → Prop} {relation : State → Label → State → Prop}
    (preserved : ∀ state label next, invariant state →
      allowed state label → step state label = some next → invariant next)
    (implies : ∀ state label next, invariant state →
      allowed state label → step state label = some next → relation state label next)
    {start : State} {labels : List Label}
    (initially : invariant start)
    (permitted : EveryStepAllowed step allowed start labels) :
    EveryStep step relation start labels := by
  induction labels generalizing start with
  | nil => trivial
  | cons label labels ih =>
      cases taken : step start label with
      | none => exact everyStep_cons_disabled taken
      | some next =>
          obtain ⟨first, others⟩ := (everyStep_cons taken).mp permitted
          exact (everyStep_cons taken).mpr
            ⟨implies start label next initially first taken, ih
              (preserved start label next initially first taken) others⟩

/-- What a step from an invariant state satisfies holds of every step of every run. -/
theorem everyStep_of_invariant {step : System State Label} {invariant : State → Prop}
    {relation : State → Label → State → Prop}
    (preserved : ∀ state label next, invariant state →
      step state label = some next → invariant next)
    (implies : ∀ state label next, invariant state →
      step state label = some next → relation state label next)
    {start : State}
    (initially : invariant start)
    (labels : List Label) :
    EveryStep step relation start labels :=
  everyStep_of_allowed (fun state label next holds _ => preserved state label next holds)
    (fun state label next holds _ => implies state label next holds) initially
    (everyStepAllowed_true step start labels)

/-- Where an invariant makes two step relations agree, they agree along whole
runs. -/
theorem everyStep_congr {step : System State Label} {invariant : State → Prop}
    {relation relation' : State → Label → State → Prop}
    (preserved : ∀ state label next, invariant state →
      step state label = some next → invariant next)
    (agree : ∀ state label next, invariant state →
      step state label = some next →
      (relation state label next ↔ relation' state label next))
    {start : State}
    (initially : invariant start)
    (labels : List Label) :
    EveryStep step relation start labels ↔ EveryStep step relation' start labels := by
  induction labels generalizing start with
  | nil => simp
  | cons label labels ih =>
      cases taken : step start label with
      | none => simp [everyStep_cons_disabled taken]
      | some next =>
          rw [everyStep_cons taken, everyStep_cons taken,
            agree start label next initially taken,
            ih (preserved start label next initially taken)]

/-- Along a run whose steps are all permitted, a property holds in every state exactly
when every step is allowed, provided that from a good state the next state has the property
exactly when the step was allowed, and is then good again. -/
theorem everyState_iff_of_permitted {step : System State Label} {good property : State → Prop}
    {permitted allowed : State → Label → Prop} (holds : ∀ state, good state → property state)
    (agree : ∀ state label next, good state → permitted state label →
      step state label = some next → (property next ↔ allowed state label))
    (preserved : ∀ state label next, good state → permitted state label →
      step state label = some next → property next → good next)
    {start : State} {labels : List Label}
    (initially : good start)
    (run : EveryStepAllowed step permitted start labels) :
    EveryState step property start labels ↔ EveryStepAllowed step allowed start labels := by
  induction labels generalizing start with
  | nil => exact ⟨fun _ => trivial, fun _ => holds start initially⟩
  | cons label labels ih =>
      cases taken : step start label with
      | none =>
          rw [everyState_cons_disabled taken]
          exact ⟨fun _ => everyStep_cons_disabled taken, fun _ => holds start initially⟩
      | some next =>
          obtain ⟨fine, later⟩ := (everyStep_cons taken).mp run
          rw [everyState_cons taken, EveryStepAllowed, everyStep_cons taken]
          have same := agree start label next initially fine taken
          constructor
          · rintro ⟨_, rest⟩
            have nextGood := preserved start label next initially fine taken rest.first
            exact ⟨same.mp rest.first, (ih nextGood later).mp rest⟩
          · rintro ⟨isAllowed, rest⟩
            have nextGood := preserved start label next initially fine taken (same.mpr isAllowed)
            exact ⟨holds start initially, (ih nextGood later).mpr rest⟩

/-- The same of any run. -/
theorem everyState_iff_everyStepAllowed {step : System State Label}
    {good property : State → Prop} {allowed : State → Label → Prop}
    (holds : ∀ state, good state → property state)
    (agree : ∀ state label next, good state →
      step state label = some next → (property next ↔ allowed state label))
    (preserved : ∀ state label next, good state →
      step state label = some next → property next → good next)
    {start : State}
    (initially : good start)
    (labels : List Label) :
    EveryState step property start labels ↔ EveryStepAllowed step allowed start labels := by
  exact everyState_iff_of_permitted holds
    (fun state label next isGood _ => agree state label next isGood)
    (fun state label next isGood _ => preserved state label next isGood) initially
    (everyStepAllowed_true step start labels)

/-- A property of every state of every run holds of every reachable state. -/
theorem EveryState.last {step : System State Label} {property : State → Prop}
    {start finish : State} {labels : List Label} (holds : EveryState step property start labels)
    (run : exec step start labels = some finish) : property finish := by
  induction labels generalizing start with
  | nil => exact Option.some.inj run ▸ holds
  | cons label labels ih =>
      obtain ⟨next, taken, rest⟩ := Option.bind_eq_some_iff.mp run
      exact ih ((everyState_cons taken).mp holds).2 rest

/-- The run from `start` takes `label` in `state`. -/
def Takes (step : System State Label) (start : State) (labels : List Label) (state : State)
    (label : Label) : Prop :=
  ∃ index, labels[index]? = some label ∧ exec step start (labels.take index) = some state

theorem takes_cons {step : System State Label} {start next state : State} {first label : Label}
    {labels : List Label} (taken : step start first = some next) :
    Takes step start (first :: labels) state label ↔
      (first = label ∧ start = state) ∨ Takes step next labels state label := by
  constructor
  · rintro ⟨index, isLabel, run⟩
    cases index with
    | zero => exact .inl ⟨Option.some.inj isLabel, Option.some.inj run⟩
    | succ index =>
        rw [List.take_succ_cons, exec_cons, taken, Option.bind_some] at run
        exact .inr ⟨index, isLabel, run⟩
  · rintro (⟨rfl, rfl⟩ | ⟨index, isLabel, run⟩)
    · exact ⟨0, rfl, rfl⟩
    · refine ⟨index + 1, isLabel, ?_⟩
      rw [List.take_succ_cons, exec_cons, taken, Option.bind_some, run]

/-- What holds where a label is taken holds of every step. -/
theorem everyStepAllowed_of_takes {step : System State Label} {allowed : State → Label → Prop}
    {start : State} {labels : List Label}
    (holds : ∀ state label, Takes step start labels state label → allowed state label) :
    EveryStepAllowed step allowed start labels := by
  induction labels generalizing start with
  | nil => trivial
  | cons first labels ih =>
      cases taken : step start first with
      | none => exact everyStep_cons_disabled taken
      | some next =>
          refine (everyStep_cons taken).mpr ⟨holds start first ⟨0, rfl, rfl⟩, ?_⟩
          exact ih fun state label takes =>
            holds state label ((takes_cons taken).mpr (.inr takes))

/-- Steps that are all allowed one way and all allowed another are allowed both ways. -/
theorem EveryStep.and {step : System State Label} {allowed allowed' : State → Label → Prop}
    {start : State} {labels : List Label} (one : EveryStepAllowed step allowed start labels)
    (two : EveryStepAllowed step allowed' start labels) :
    EveryStepAllowed step (fun state label => allowed state label ∧ allowed' state label) start
      labels := by
  induction labels generalizing start with
  | nil => trivial
  | cons first labels ih =>
      cases taken : step start first with
      | none => exact everyStep_cons_disabled taken
      | some next =>
          obtain ⟨first, others⟩ := (everyStep_cons taken).mp one
          obtain ⟨first', others'⟩ := (everyStep_cons taken).mp two
          exact (everyStep_cons taken).mpr ⟨⟨first, first'⟩, ih others others'⟩

end Transition
