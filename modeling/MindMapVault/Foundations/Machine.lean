import Mathlib.Data.List.Basic

/-!
# Machines that answer

A machine takes one input at a time, answers it and moves on; the environment
chooses the inputs. Its behaviour is the transcript of a run: every input with
its answer. Three facts are packaged here. An invariant of the steps holds
after every run. Two machines in a simulation have equal transcripts. And inputs
that leave the simulation standing can be left out of a run without changing
what the others are answered.
-/

universe u v w x

/-- A deterministic component: an input yields an answer and the next state. -/
abbrev Machine (State : Type u) (Input : Type v) (Answer : Type w) := State → Input → Answer × State

namespace Machine

variable {State : Type u} {Input : Type v} {Answer : Type w}

/-- The state after a list of inputs. -/
def after (machine : Machine State Input Answer) : State → List Input → State
  | state, [] => state
  | state, input :: inputs => after machine (machine state input).2 inputs

/-- Every input of a run with its answer. -/
def transcript (machine : Machine State Input Answer) :
    State → List Input → List (Input × Answer)
  | _, [] => []
  | state, input :: inputs =>
      (input, (machine state input).1) :: transcript machine (machine state input).2 inputs

section Runs

variable (machine : Machine State Input Answer)

@[simp] theorem after_nil (state : State) : machine.after state [] = state := rfl

@[simp] theorem after_cons (state : State) (input : Input) (inputs : List Input) :
    machine.after state (input :: inputs) = machine.after (machine state input).2 inputs := rfl

@[simp] theorem transcript_cons
    (state : State) (input : Input) (inputs : List Input) :
    machine.transcript state (input :: inputs) =
      (input, (machine state input).1) :: machine.transcript (machine state input).2 inputs := rfl

theorem after_append (state : State) (first second : List Input) :
    machine.after state (first ++ second) = machine.after (machine.after state first) second := by
  induction first generalizing state with
  | nil => rfl
  | cons input first ih => exact ih _

/-- The last input of a run is answered by the state the others led to. -/
theorem after_concat (state : State) (inputs : List Input) (input : Input) :
    machine.after state (inputs ++ [input]) = (machine (machine.after state inputs) input).2 := by
  rw [after_append, after_cons, after_nil]

end Runs

/-- What the steps of a run keep holds after the run. -/
theorem after_invariant_of_mem {machine : Machine State Input Answer} (invariant : State → Prop)
    {inputs : List Input}
    (preserved : ∀ input ∈ inputs, ∀ state, invariant state → invariant (machine state input).2)
    {start : State} (initially : invariant start) :
    invariant (machine.after start inputs) := by
  induction inputs generalizing start with
  | nil => exact initially
  | cons input inputs ih =>
      exact ih
        (fun other present => preserved other (List.mem_cons_of_mem _ present))
        (preserved input List.mem_cons_self start initially)

section Simulation

variable {State' : Type x}
  {machine : Machine State Input Answer} {machine' : Machine State' Input Answer}

/-- The second machine, which gets only the kept inputs, answers them as the
first does. The relation may look at the inputs still to come. -/
theorem filter_transcript_of_simulation (kept : Input → Bool)
    (related : List Input → State → State' → Prop)
    (both : ∀ input inputs state state',
      related (input :: inputs) state state' → kept input = true →
        (machine state input).1 = (machine' state' input).1 ∧
          related inputs (machine state input).2 (machine' state' input).2)
    (alone : ∀ input inputs state state',
      related (input :: inputs) state state' → kept input = false →
        related inputs (machine state input).2 state')
    {inputs : List Input} {start : State} {start' : State'}
    (initially : related inputs start start') :
    (machine.transcript start inputs).filter (fun entry => kept entry.1) =
      machine'.transcript start' (inputs.filter kept) := by
  induction inputs generalizing start start' with
  | nil => rfl
  | cons input inputs ih =>
      cases keeps : kept input with
      | true =>
          obtain ⟨same, next⟩ := both input inputs start start' initially keeps
          simp [keeps, same, ih next]
      | false =>
          have next := alone input inputs start start' initially keeps
          simp [keeps, ih next]

/-- Machines in a simulation answer every run of allowed inputs alike. -/
theorem transcript_eq_of_simulation (allowed : Input → Prop) (related : State → State' → Prop)
    (both : ∀ input state state', related state state' → allowed input →
      (machine state input).1 = (machine' state' input).1 ∧
        related (machine state input).2 (machine' state' input).2)
    {inputs : List Input} (permitted : ∀ input ∈ inputs, allowed input)
    {start : State} {start' : State'} (initially : related start start') :
    machine.transcript start inputs = machine'.transcript start' inputs := by
  induction inputs generalizing start start' with
  | nil => rfl
  | cons input inputs ih =>
      obtain ⟨same, next⟩ := both input start start' initially (permitted input List.mem_cons_self)
      rw [transcript_cons, transcript_cons, same, ih
        (fun other present => permitted other (List.mem_cons_of_mem _ present)) next]

end Simulation

end Machine
