import MindMapVault.Foundations.Transition
import Mathlib.Data.List.Basic
import Mathlib.Data.List.Perm.Subperm

/-!
# Requests interleaving over a shared state

A program is a set of atomic actions over a shared state: events from outside,
the first action of a new thread, and the next action of a thread that is
already under way. Its transition system takes them in any order, one at a
time, over any number of threads, and a thread may be left where it stands for
ever. The invariant rule here is the usual one for such systems: what a thread
knows about the shared state has to be stable under everybody else's actions.
-/

universe u v w x y z

namespace Threads

/-- A shared state and the local states of the threads under way. -/
structure Pool (Shared : Type u) (Own : Type v) where
  shared : Shared
  threads : List Own
  deriving DecidableEq

/-- One move of a pool. -/
inductive Move (Outside : Type w) (Spawn : Type x) (Act : Type y)
  | outside (event : Outside)
  | spawn (request : Spawn)
  | advance (thread : Nat) (act : Act)
  deriving DecidableEq

/-- The atomic actions of a program. -/
structure Program
    (Shared : Type u) (Own : Type v)
    (Outside : Type w) (Spawn : Type x) (Act : Type y) where
  outside : Shared → Outside → Option Shared
  spawn : Shared → Spawn → Option (Shared × Own)
  advance : Shared → Own → Act → Option (Shared × Own)

namespace Program

variable {Shared : Type u} {Own : Type v}
variable {Outside : Type w} {Spawn : Type x} {Act : Type y}

/-- The transition system of a program. -/
def system (program : Program Shared Own Outside Spawn Act) :
    Transition.System (Pool Shared Own) (Move Outside Spawn Act)
  | pool, .outside event =>
      (program.outside pool.shared event).map fun shared =>
        { pool with shared := shared }
  | pool, .spawn request =>
      (program.spawn pool.shared request).map fun (shared, own) =>
        { shared := shared, threads := pool.threads ++ [own] }
  | pool, .advance thread act =>
      pool.threads[thread]?.bind fun before =>
        (program.advance pool.shared before act).map fun (shared, after) =>
          { shared := shared, threads := pool.threads.set thread after }

variable {program : Program Shared Own Outside Spawn Act}
variable {pool next : Pool Shared Own}

theorem system_outside_eq_some {event : Outside} :
    program.system pool (.outside event) = some next ↔
      ∃ shared, program.outside pool.shared event = some shared ∧
        { pool with shared := shared } = next :=
  Option.map_eq_some_iff

theorem system_spawn_eq_some {request : Spawn} :
    program.system pool (.spawn request) = some next ↔
      ∃ shared own, program.spawn pool.shared request = some (shared, own) ∧
        { shared := shared, threads := pool.threads ++ [own] } = next := by
  refine Option.map_eq_some_iff.trans ⟨?_, ?_⟩
  · rintro ⟨⟨shared, own⟩, taken, same⟩
    exact ⟨shared, own, taken, same⟩
  · rintro ⟨shared, own, taken, same⟩
    exact ⟨(shared, own), taken, same⟩

theorem system_advance_eq_some {thread : Nat} {act : Act} :
    program.system pool (.advance thread act) = some next ↔
      ∃ before shared after, pool.threads[thread]? = some before ∧
        program.advance pool.shared before act = some (shared, after) ∧
          { shared := shared, threads := pool.threads.set thread after } = next := by
  refine Option.bind_eq_some_iff.trans ⟨?_, ?_⟩
  · rintro ⟨before, present, moved⟩
    obtain ⟨⟨shared, after⟩, taken, same⟩ := Option.map_eq_some_iff.mp moved
    exact ⟨before, shared, after, present, taken, same⟩
  · rintro ⟨before, shared, after, present, taken, same⟩
    exact ⟨before, present, Option.map_eq_some_iff.mpr ⟨(shared, after), taken, same⟩⟩

/-- A move of the pool is an action of the program. -/
theorem system_cases {motive : Move Outside Spawn Act → Pool Shared Own → Prop}
    (outside : ∀ event shared,
      program.outside pool.shared event = some shared →
        motive (.outside event) { pool with shared := shared })
    (spawn : ∀ request shared own,
      program.spawn pool.shared request = some (shared, own) →
        motive (.spawn request) { shared := shared, threads := pool.threads ++ [own] })
    (advance : ∀ thread act before shared after,
      pool.threads[thread]? = some before →
        program.advance pool.shared before act = some (shared, after) →
          motive (.advance thread act)
            { shared := shared, threads := pool.threads.set thread after })
    {move : Move Outside Spawn Act}
    (taken : program.system pool move = some next) : motive move next := by
  cases move with
  | outside event =>
      obtain ⟨shared, action, rfl⟩ := system_outside_eq_some.mp taken
      exact outside event shared action
  | spawn request =>
      obtain ⟨shared, own, action, rfl⟩ := system_spawn_eq_some.mp taken
      exact spawn request shared own action
  | advance thread act =>
      obtain ⟨before, shared, after, present, action, rfl⟩ := system_advance_eq_some.mp taken
      exact advance thread act before shared after present action

/-- Taking one action again and again, a thread leads from one state to another. -/
inductive Leads (program : Program Shared Own Outside Spawn Act) (act : Act) :
    Shared → Own → Shared → Own → Prop
  | refl (shared : Shared) (own : Own) : Leads program act shared own shared own
  | step {shared next final : Shared} {before own after : Own}
      (action : program.advance shared before act = some (next, own))
      (rest : Leads program act next own final after) :
      Leads program act shared before final after

/-- So it does in the pool, if it is the last one and nobody else moves. -/
theorem Leads.exec {shared final : Shared} {before after : Own} {act : Act}
    (leads : program.Leads act shared before final after) (threads : List Own) :
    ∃ steps,
      Transition.exec program.system
          { shared := shared, threads := threads ++ [before] }
          (List.replicate steps (.advance threads.length act)) =
        some { shared := final, threads := threads ++ [after] } := by
  induction leads with
  | refl shared own => exact ⟨0, rfl⟩
  | step action rest ih =>
      obtain ⟨steps, run⟩ := ih
      refine ⟨steps + 1, ?_⟩
      rw [List.replicate_succ, Transition.exec_cons, ← run]
      simp [system, action]

end Program

section Set

variable {Own : Type v} {threads : List Own} {thread : Nat}
variable {before after other : Own}

/-- After one thread moved, a fact holds of all if it holds of the thread that
moved and still holds of the others. -/
theorem forall_mem_set {property : Own → Prop}
    (others : ∀ own ∈ threads, property own) (moved : property after) :
    ∀ own ∈ threads.set thread after, property own := by
  intro own present
  rcases List.mem_or_eq_of_mem_set present with stays | rfl
  · exact others own stays
  · exact moved

theorem forall_mem_append_singleton {property : Own → Prop}
    (others : ∀ own ∈ threads, property own) (added : property after) :
    ∀ own ∈ threads ++ [after], property own := by
  intro own present
  rcases List.mem_append.mp present with stays | new
  · exact others own stays
  · rw [List.mem_singleton.mp new]
    exact added

/-- A thread unlike the one that moved is still there. -/
theorem mem_set_of_ne (present : threads[thread]? = some before)
    (stays : other ∈ threads) (differs : other ≠ before) :
    other ∈ threads.set thread after := by
  obtain ⟨index, inRange, rfl⟩ := List.mem_iff_getElem.mp stays
  have elsewhere : thread ≠ index := by
    rintro rfl
    rw [List.getElem?_eq_getElem inRange] at present
    exact differs (Option.some.inj present)
  have unchanged := List.getElem_set_ne (l := threads) (a := after) elsewhere
    (by simpa using inRange)
  rw [← unchanged]
  exact List.getElem_mem _

/-- Whoever stands somewhere after a spawn stood there before or is new. -/
theorem getElem?_append_singleton {position : Nat}
    (there : (threads ++ [after])[position]? = some other) :
    threads[position]? = some other ∨ other = after := by
  rw [List.getElem?_append] at there
  split_ifs at there with old
  · exact .inl there
  · have added := List.mem_of_getElem? there
    exact .inr (List.mem_singleton.mp added)

/-- Whoever stands somewhere after a step is the thread that moved, or stood there
before. -/
theorem getElem?_set_cases {position : Nat}
    (there : (threads.set thread after)[position]? = some other) :
    (position = thread ∧ other = after) ∨ threads[position]? = some other := by
  rw [List.getElem?_set] at there
  split_ifs at there with same inRange
  · cases there
    exact .inl ⟨same.symm, rfl⟩
  · exact .inr there

/-- The threads beside one of them. -/
theorem perm_set (present : threads[thread]? = some before) (after : Own) :
    ∃ others, threads.Perm (before :: others) ∧
      (threads.set thread after).Perm (after :: others) := by
  induction threads generalizing thread with
  | nil => simp at present
  | cons first rest ih =>
      cases thread with
      | zero =>
          cases Option.some.inj present
          exact ⟨rest, .refl _, .refl _⟩
      | succ thread =>
          obtain ⟨others, old, new⟩ := ih present
          exact ⟨first :: others, (old.cons first).trans (.swap _ _ _),
            (new.cons first).trans (.swap _ _ _)⟩

end Set

section Held

variable {Own : Type v} {Item : Type u}

/-- What the threads hold, one thread after the other. -/
def held (holds : Own → List Item) (threads : List Own) : List Item := threads.flatMap holds

variable {holds : Own → List Item} {threads : List Own} {thread : Nat}
variable {before : Own}

theorem held_append_singleton (own : Own) :
    held holds (threads ++ [own]) = held holds threads ++ holds own := by
  simp [held]

variable (holds) in
/-- One thread moves: what the others hold stays. -/
theorem perm_held_set (present : threads[thread]? = some before) (after : Own) :
    ∃ others, (held holds threads).Perm (holds before ++ others) ∧
      (held holds (threads.set thread after)).Perm (holds after ++ others) := by
  obtain ⟨others, old, new⟩ := perm_set present after
  refine ⟨held holds others, (old.flatMap_right holds).trans ?_, (new.flatMap_right holds).trans ?_⟩
  · rw [List.flatMap_cons, held]
  · rw [List.flatMap_cons, held]

/-- What a thread passes on was its own or in store: nothing is there twice that was
not. -/
theorem held_subperm_set {after : Own} {stored stored' : List Item}
    (present : threads[thread]? = some before)
    (moved : (holds after ++ stored').Subperm (holds before ++ stored)) :
    (held holds (threads.set thread after) ++ stored').Subperm (held holds threads ++ stored) := by
  obtain ⟨others, old, new⟩ := perm_held_set holds present after
  have front : ∀ own store : List Item,
      ((own ++ others) ++ store).Perm ((own ++ store) ++ others) := by
    intro own store
    rw [List.append_assoc, List.append_assoc]
    exact List.perm_append_comm.append_left own
  have reordered := (new.append_right stored').trans (front (holds after) stored')
  refine reordered.subperm.trans ?_
  refine (List.subperm_append_right others).mpr moved |>.trans ?_
  exact ((old.append_right stored).trans (front (holds before) stored)).symm.subperm

end Held

section Weight

variable {Own : Type v}

/-- What the threads weigh together. -/
def weight (weigh : Own → Nat) : List Own → Nat
  | [] => 0
  | own :: rest => weigh own + weight weigh rest

variable {weigh other : Own → Nat} {threads : List Own} {thread : Nat}
variable {before : Own}

@[simp] theorem weight_append_singleton (own : Own) :
    weight weigh (threads ++ [own]) = weight weigh threads + weigh own := by
  induction threads with
  | nil => exact Nat.add_comm _ _
  | cons first rest ih =>
      rw [List.cons_append, weight, weight, ih, Nat.add_assoc]

/-- One thread moves: the others weigh what they did. -/
theorem weight_set (present : threads[thread]? = some before) (after : Own) :
    weight weigh (threads.set thread after) + weigh before =
      weight weigh threads + weigh after := by
  induction threads generalizing thread with
  | nil => simp at present
  | cons first rest ih =>
      cases thread with
      | zero =>
          cases Option.some.inj present
          rw [List.set_cons_zero, weight, weight]
          omega
      | succ thread =>
          have moved := ih present
          rw [List.set_cons_succ, weight, weight]
          omega

theorem weight_le (each : ∀ own ∈ threads, weigh own ≤ other own) :
    weight weigh threads ≤ weight other threads := by
  induction threads with
  | nil => exact Nat.le_refl _
  | cons first rest ih =>
      exact Nat.add_le_add (each first List.mem_cons_self)
        (ih fun own present => each own (List.mem_cons_of_mem _ present))

/-- Weights add up thread by thread. -/
theorem weight_add (threads : List Own) :
    weight (fun own => weigh own + other own) threads =
      weight weigh threads + weight other threads := by
  induction threads with
  | nil => rfl
  | cons first rest ih =>
      rw [weight, weight, weight, ih]
      omega

end Weight

section Stable

variable {Shared : Type u} {Own : Type v}
variable {Outside : Type w} {Spawn : Type x} {Act : Type y}

/-- The shared state is as it should be, and every thread's knowledge of it is
true. -/
def Holds (shared : Shared → Prop) (knows : Shared → Own → Prop) (pool : Pool Shared Own) : Prop :=
  shared pool.shared ∧ ∀ own ∈ pool.threads, knows pool.shared own

/-- The invariant rule: every action keeps the shared part, leaves its own
thread with true knowledge, and does not falsify that of the others. -/
theorem holds_preserved {program : Program Shared Own Outside Spawn Act}
    (allowed : Pool Shared Own → Move Outside Spawn Act → Prop)
    {good : Shared → Prop} {knows : Shared → Own → Prop}
    (outside : ∀ pool event shared, Holds good knows pool →
      allowed pool (.outside event) →
      program.outside pool.shared event = some shared →
        good shared ∧ ∀ own, knows pool.shared own → knows shared own)
    (spawn : ∀ pool request shared new, Holds good knows pool →
      allowed pool (.spawn request) →
      program.spawn pool.shared request = some (shared, new) →
        good shared ∧ knows shared new ∧ ∀ own, knows pool.shared own → knows shared own)
    (advance : ∀ pool thread act before shared after, Holds good knows pool →
      allowed pool (.advance thread act) →
      pool.threads[thread]? = some before → knows pool.shared before →
      program.advance pool.shared before act = some (shared, after) →
        good shared ∧ knows shared after ∧ ∀ own, knows pool.shared own → knows shared own)
    (pool : Pool Shared Own) (move : Move Outside Spawn Act)
    (next : Pool Shared Own)
    (holds : Holds good knows pool)
    (permitted : allowed pool move)
    (taken : program.system pool move = some next) :
    Holds good knows next := by
  obtain ⟨sharedGood, known⟩ := holds
  revert permitted
  refine Program.system_cases (motive := fun move next =>
    allowed pool move → Holds good knows next) ?_ ?_ ?_ taken
  · intro event shared action permitted
    obtain ⟨stillGood, stable⟩ := outside pool event shared ⟨sharedGood, known⟩ permitted action
    exact ⟨stillGood, fun own present => stable own (known own present)⟩
  · intro request shared new action permitted
    obtain ⟨stillGood, fresh, stable⟩ :=
      spawn pool request shared new ⟨sharedGood, known⟩ permitted action
    exact ⟨stillGood, forall_mem_append_singleton
      (fun own present => stable own (known own present)) fresh⟩
  · intro thread act before shared after present action permitted
    obtain ⟨stillGood, moved, stable⟩ :=
      advance pool thread act before shared after ⟨sharedGood, known⟩ permitted
        present (known before (List.mem_of_getElem? present)) action
    exact ⟨stillGood, forall_mem_set (fun own present => stable own (known own present)) moved⟩

/-- Where every action gives and takes between the shared state and its own thread
only, what there is in all stays the same. -/
theorem balance_preserved {program : Program Shared Own Outside Spawn Act}
    (free : Shared → Nat) (weigh : Own → Nat)
    (outside : ∀ shared event after,
      program.outside shared event = some after → free after = free shared)
    (spawn : ∀ shared request after own,
      program.spawn shared request = some (after, own) → free after + weigh own = free shared)
    (advance : ∀ shared before act after own,
      program.advance shared before act = some (after, own) →
        free after + weigh own = free shared + weigh before)
    {pool next : Pool Shared Own} {move : Move Outside Spawn Act}
    (taken : program.system pool move = some next) :
    free next.shared + weight weigh next.threads =
      free pool.shared + weight weigh pool.threads := by
  refine Program.system_cases (motive := fun _ next =>
    free next.shared + weight weigh next.threads =
      free pool.shared + weight weigh pool.threads) ?_ ?_ ?_ taken
  · intro event shared action
    rw [outside _ _ _ action]
  · intro request shared own action
    have balance := spawn _ _ _ _ action
    simp only [weight_append_singleton]
    omega
  · intro thread act before shared after present action
    have balance := advance _ _ _ _ _ action
    have moved : weight weigh (pool.threads.set thread after) + weigh before =
        weight weigh pool.threads + weigh after :=
      weight_set present after
    simp only
    omega

end Stable

section Exclusive

variable {Shared : Type u} {Own : Type v}
variable {Outside : Type w} {Spawn : Type x} {Act : Type y}

/-- At most one thread is active, and what is known of the shared state and of the
active thread is true. -/
def Exclusive (active : Own → Bool) (known : Shared → Option Own → Prop)
    (pool : Pool Shared Own) : Prop :=
  ∃ worker : Option Own, ∃ others,
    pool.threads.Perm (worker.toList ++ others) ∧
      (∀ own ∈ worker, active own = true) ∧ (∀ own ∈ others, active own = false) ∧
        known pool.shared worker

/-- What is known of a thread that comes to rest need not be known of any. -/
theorem exclusive_of_after
    {active : Own → Bool} {known : Shared → Option Own → Prop} {shared : Shared}
    {threads others : List Own} {after : Own}
    (rests : active after = false → known shared (some after) → known shared none)
    (arranged : threads.Perm (after :: others))
    (idle : ∀ own ∈ others, active own = false) (knows : known shared (some after)) :
    Exclusive active known { shared := shared, threads := threads } := by
  cases isActive : active after with
  | true =>
      refine ⟨some after, others, arranged, ?_, idle, knows⟩
      rintro own ⟨⟩
      exact isActive
  | false =>
      refine ⟨none, after :: others, arranged, by simp, ?_, rests isActive knows⟩
      exact List.forall_mem_cons.mpr ⟨isActive, idle⟩

/-- A thread that is active is the one. -/
theorem Exclusive.known_of_active
    {active : Own → Bool} {known : Shared → Option Own → Prop} {pool : Pool Shared Own}
    {own : Own} (exclusive : Exclusive active known pool)
    (present : own ∈ pool.threads) (isActive : active own = true) :
    known pool.shared (some own) := by
  obtain ⟨worker, others, arranged, _, idle, knows⟩ := exclusive
  rcases List.mem_append.mp (arranged.mem_iff.mp present) with first | other
  · rwa [← Option.mem_toList.mp first]
  · rw [idle own other] at isActive
    exact absurd isActive (by simp)

/-- The invariant rule for an exclusive thread: whoever starts or moves leaves the known
facts true, and an active thread starts only where there is none. -/
theorem exclusive_preserved {program : Program Shared Own Outside Spawn Act}
    (allowed : Pool Shared Own → Move Outside Spawn Act → Prop)
    {active : Own → Bool} {known : Shared → Option Own → Prop}
    (rests : ∀ shared own, active own = false → known shared (some own) → known shared none)
    (outside : ∀ pool event shared worker, known pool.shared worker →
      allowed pool (.outside event) → (∀ own ∈ worker, own ∈ pool.threads) →
      (∀ own ∈ worker, active own = true) →
      program.outside pool.shared event = some shared → known shared worker)
    (spawn : ∀ pool request shared new worker, known pool.shared worker →
      allowed pool (.spawn request) → (∀ own ∈ worker, own ∈ pool.threads) →
      (∀ own ∈ worker, active own = true) →
      program.spawn pool.shared request = some (shared, new) →
        active new = false ∧ known shared worker ∨ worker = none ∧ known shared (some new))
    (working : ∀ pool thread act before shared after, active before = true →
      known pool.shared (some before) → allowed pool (.advance thread act) →
      pool.threads[thread]? = some before →
      program.advance pool.shared before act = some (shared, after) → known shared (some after))
    (idling : ∀ pool thread act before shared after worker, active before = false →
      known pool.shared worker → allowed pool (.advance thread act) →
      (∀ own ∈ worker, own ∈ pool.threads) → (∀ own ∈ worker, active own = true) →
      pool.threads[thread]? = some before →
      program.advance pool.shared before act = some (shared, after) →
        active after = false ∧ known shared worker ∨ worker = none ∧ known shared (some after))
    (pool : Pool Shared Own) (move : Move Outside Spawn Act)
    (next : Pool Shared Own)
    (exclusive : Exclusive active known pool)
    (permitted : allowed pool move)
    (taken : program.system pool move = some next) :
    Exclusive active known next := by
  obtain ⟨worker, others, arranged, isActive, idle, knows⟩ := exclusive
  have present : ∀ own ∈ worker, own ∈ pool.threads := by
    intro own isWorker
    rw [arranged.mem_iff, List.mem_append, Option.mem_toList]
    exact .inl isWorker
  revert permitted
  refine Program.system_cases (motive := fun move next =>
    allowed pool move → Exclusive active known next) ?_ ?_ ?_ taken
  · intro event shared action permitted
    exact ⟨worker, others, arranged, isActive, idle,
      outside pool event shared worker knows permitted present isActive action⟩
  · intro request shared new action permitted
    rcases spawn pool request shared new worker knows permitted present isActive action
      with ⟨idleNew, stillKnown⟩ | ⟨rfl, newKnown⟩
    · refine ⟨worker, others ++ [new], ?_, isActive, ?_, stillKnown⟩
      · rw [← List.append_assoc]
        exact arranged.append_right [new]
      · exact forall_mem_append_singleton idle idleNew
    · refine exclusive_of_after (rests shared new) ?_ idle newKnown
      exact (arranged.append_right [new]).trans (List.perm_append_singleton new others)
  · intro thread act before shared after stands action permitted
    obtain ⟨beside, old, new⟩ := perm_set stands after
    cases moves : active before with
    | true =>
        have isWorker : worker = some before := by
          have listed := arranged.mem_iff.mp (List.mem_of_getElem? stands)
          rcases List.mem_append.mp listed with first | other
          · exact Option.mem_toList.mp first
          · rw [idle before other] at moves
            exact absurd moves (by simp)
        subst isWorker
        have same : beside.Perm others := (old.symm.trans arranged).cons_inv
        refine exclusive_of_after (rests shared after) new ?_
          (working pool thread act before shared after moves knows permitted stands action)
        exact fun own stays => idle own (same.mem_iff.mp stays)
    | false =>
        have listed := arranged.mem_iff.mp (List.mem_of_getElem? stands)
        have inOthers : before ∈ others := by
          rcases List.mem_append.mp listed with first | other
          · rw [isActive before (Option.mem_toList.mp first)] at moves
            exact absurd moves (by simp)
          · exact other
        obtain ⟨front, back, rfl⟩ := List.append_of_mem inOthers
        have same : beside.Perm (worker.toList ++ (front ++ back)) := by
          refine (old.symm.trans (arranged.trans ?_)).cons_inv
          exact (List.perm_middle.append_left _).trans List.perm_middle
        have stillIdle : ∀ own ∈ front ++ back, active own = false := fun own stays =>
          idle own (List.perm_middle.mem_iff.mpr (List.mem_cons_of_mem _ stays))
        rcases idling pool thread act before shared after worker moves knows permitted
          present isActive stands action with ⟨idleAfter, stillKnown⟩ | ⟨rfl, afterKnown⟩
        · refine ⟨worker, after :: (front ++ back), ?_, isActive, ?_, stillKnown⟩
          · exact (new.trans (same.cons after)).trans List.perm_middle.symm
          · exact List.forall_mem_cons.mpr ⟨idleAfter, stillIdle⟩
        · exact exclusive_of_after (rests shared after) (new.trans (same.cons after))
            stillIdle afterKnown

end Exclusive

/-! ### Threads that remember their request

To say whose request a step is taken for, every thread carries the request it began with. It
does so in name only: what is remembered is dropped again, and the runs are those of the program.
What one request can do is told by the runs of its thread alone. -/

namespace Program

variable {Shared : Type u} {Own : Type v} {Outside : Type w} {Spawn : Type x} {Act : Type y}

/-- The program whose threads remember their requests. -/
def remembering (program : Program Shared Own Outside Spawn Act) :
    Program Shared (Spawn × Own) Outside Spawn Act where
  outside := program.outside
  spawn := fun shared request =>
    (program.spawn shared request).map fun begun => (begun.1, request, begun.2)
  advance := fun shared thread act =>
    (program.advance shared thread.2 act).map fun ended => (ended.1, thread.1, ended.2)

/-- The pool without what is remembered. -/
def forget (pool : Pool Shared (Spawn × Own)) : Pool Shared Own where
  shared := pool.shared
  threads := pool.threads.map Prod.snd

variable (program : Program Shared Own Outside Spawn Act)

theorem forget_system (pool : Pool Shared (Spawn × Own)) (move : Move Outside Spawn Act) :
    (program.remembering.system pool move).map forget = program.system (forget pool) move := by
  cases move with
  | outside event =>
      rw [system, system, Option.map_map]
      rfl
  | spawn request =>
      simp only [system, remembering, Option.map_map]
      refine congrArg (fun change => (program.spawn pool.shared request).map change) ?_
      funext begun
      simp only [Function.comp_apply, forget, List.map_append, List.map_cons, List.map_nil]
  | advance thread act =>
      simp only [system, forget, List.getElem?_map]
      cases pool.threads[thread]? with
      | none => rfl
      | some before =>
          simp only [remembering, Option.bind_some, Option.map_some, Option.map_map]
          refine congrArg (fun change => (program.advance pool.shared before.2 act).map change) ?_
          funext ended
          exact congrArg (Pool.mk ended.1) List.map_set

/-- Its runs are those of the program. -/
theorem forget_exec (pool : Pool Shared (Spawn × Own)) (moves : List (Move Outside Spawn Act)) :
    (Transition.exec program.remembering.system pool moves).map forget =
      Transition.exec program.system (forget pool) moves := by
  induction moves generalizing pool with
  | nil => rfl
  | cons move moves ih =>
      rw [Transition.exec_cons, Transition.exec_cons, ← forget_system]
      cases program.remembering.system pool move with
      | none => rfl
      | some next => exact ih next

/-! ### A thread alone -/

variable {program : Program Shared Own Outside Spawn Act}

/-- What every step of a thread keeps and implies holds along its runs alone. -/
theorem everyStep_alone (knows : Shared → Own → Prop)
    {relation : Pool Shared Own → Move Outside Spawn Act → Pool Shared Own → Prop}
    (advance : ∀ shared before act next after, knows shared before →
      program.advance shared before act = some (next, after) →
        knows next after ∧ relation ⟨shared, [before]⟩ (.advance 0 act) ⟨next, [after]⟩)
    {shared : Shared} {own : Own} (known : knows shared own) (acts : List Act) :
    Transition.EveryStep program.system relation ⟨shared, [own]⟩ (acts.map (.advance 0)) := by
  induction acts generalizing shared own with
  | nil => trivial
  | cons act acts ih =>
      cases action : program.advance shared own act with
      | none =>
          refine Transition.everyStep_cons_disabled ?_
          simp [system, action]
      | some ended =>
          obtain ⟨stillKnown, related⟩ := advance shared own act ended.1 ended.2 known action
          have taken : program.system ⟨shared, [own]⟩ (.advance 0 act) =
              some ⟨ended.1, [ended.2]⟩ := by
            simp [system, action]
          exact (Transition.everyStep_cons taken).mpr ⟨related, ih stillKnown⟩

end Program

/-! ### Notes taken of a program

A program can be run with a note beside its shared state, which is brought up to date whenever a
thread moves. Nothing that happens depends on the note, so every run of the program is a run
with notes, and the other way round. A note says of a whole run what no state remembers. -/

namespace Program

variable {Shared : Type u} {Own : Type v} {Note : Type z}
variable {Outside : Type w} {Spawn : Type x} {Act : Type y}

/-- A program with a note that is taken before each action of a thread. -/
def noted (program : Program Shared Own Outside Spawn Act) (write : Shared → Own → Note → Note) :
    Program (Shared × Note) Own Outside Spawn Act where
  outside := fun (shared, note) event =>
    (program.outside shared event).map fun shared => (shared, note)
  spawn := fun (shared, note) request =>
    (program.spawn shared request).map fun (shared, own) => ((shared, note), own)
  advance := fun (shared, note) before act =>
    (program.advance shared before act).map fun (after, own) =>
      ((after, write shared before note), own)

/-- A pool without its note. -/
def erase (pool : Pool (Shared × Note) Own) : Pool Shared Own where
  shared := pool.shared.1
  threads := pool.threads

variable {program : Program Shared Own Outside Spawn Act} {write : Shared → Own → Note → Note}

/-- A move with a note is a move. -/
theorem system_erase (pool : Pool (Shared × Note) Own) (move : Move Outside Spawn Act) :
    ((program.noted write).system pool move).map erase = program.system (erase pool) move := by
  obtain ⟨⟨shared, note⟩, threads⟩ := pool
  cases move with
  | outside event =>
      simp only [system, noted, erase, Option.map_map]
      rfl
  | spawn request =>
      simp only [system, noted, erase, Option.map_map]
      rfl
  | advance thread act =>
      simp only [system, noted, erase]
      cases threads[thread]? with
      | none => rfl
      | some before =>
          simp only [Option.bind_some, Option.map_map]
          rfl

/-- A move changes the note if a thread takes it. -/
theorem noted_cases {motive : Move Outside Spawn Act → Pool (Shared × Note) Own → Prop}
    {pool next : Pool (Shared × Note) Own}
    (outside : ∀ event shared, program.outside pool.shared.1 event = some shared →
      motive (.outside event) ⟨(shared, pool.shared.2), pool.threads⟩)
    (spawn : ∀ request shared own, program.spawn pool.shared.1 request = some (shared, own) →
      motive (.spawn request) ⟨(shared, pool.shared.2), pool.threads ++ [own]⟩)
    (advance : ∀ thread act before shared after, pool.threads[thread]? = some before →
      program.advance pool.shared.1 before act = some (shared, after) →
        motive (.advance thread act)
          ⟨(shared, write pool.shared.1 before pool.shared.2), pool.threads.set thread after⟩)
    {move : Move Outside Spawn Act}
    (taken : (program.noted write).system pool move = some next) : motive move next := by
  refine system_cases (motive := motive) ?_ ?_ ?_ taken
  · intro event shared action
    obtain ⟨after, isAfter, rfl⟩ := Option.map_eq_some_iff.mp action
    exact outside event after isAfter
  · intro request shared own action
    obtain ⟨⟨after, new⟩, isAfter, same⟩ := Option.map_eq_some_iff.mp action
    obtain ⟨rfl, rfl⟩ := Prod.mk.inj same
    exact spawn request after new isAfter
  · intro thread act before shared after present action
    obtain ⟨⟨later, own⟩, isLater, same⟩ := Option.map_eq_some_iff.mp action
    obtain ⟨rfl, rfl⟩ := Prod.mk.inj same
    exact advance thread act before later own present isLater

end Program
end Threads
