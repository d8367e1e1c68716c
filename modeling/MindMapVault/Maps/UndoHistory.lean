import MindMapVault.Foundations.Zipper
import MindMapVault.Maps.TreeIds

/-!
# The history of a map is a capped undo

The history of the editor against a zipper of which only the newest states are kept. The
trees are objects that the editor may change: what is stored are copies, and what is given
back are copies of these. The tree that the history starts with is stored as it is.
-/

namespace MindMapVault
namespace Maps

open Transition

namespace History

variable {T : Type}

/-- `canUndo`. -/
def canUndo (history : History T) : Bool := decide (0 < history.index)

/-- `canRedo`. -/
def canRedo (history : History T) : Bool := decide (history.index < history.entries.length - 1)

/-- What the history is behind and ahead of its cursor. -/
def zipper (history : History T) : Zipper T where
  past := (history.entries.take history.index).reverse
  present := history.current
  future := history.entries.drop (history.index + 1)

theorem size_zipper (history : History T) : history.zipper.size = history.entries.length := by
  have inside := history.inside
  simp only [Zipper.size, zipper, List.length_reverse, List.length_take, List.length_drop]
  omega

/-- The states up to the cursor, newest first. -/
theorem reverse_take_succ (history : History T) :
    (history.entries.take (history.index + 1)).reverse =
      history.current :: (history.entries.take history.index).reverse := by
  rw [List.take_succ_eq_append_getElem history.inside, List.reverse_append]
  rfl

/-- The entries that are left of those up to the cursor. -/
def kept (history : History T) : List T :=
  (history.entries.take (history.index + 1)).drop
    ((history.entries.take (history.index + 1)).length + 1 - historyLimit)

theorem entries_push (history : History T) (entry : T) :
    (history.push entry).entries = history.kept ++ [entry] := by
  have within : (history.entries.take (history.index + 1)).length + 1 - historyLimit ≤
      (history.entries.take (history.index + 1)).length := by
    unfold historyLimit
    omega
  simp only [push, pushed, List.length_append, List.length_singleton]
  rw [List.drop_append_of_le_length within, kept]

theorem index_push (history : History T) (entry : T) :
    (history.push entry).index = history.kept.length := by
  have entries : history.pushed entry = history.kept ++ [entry] := entries_push history entry
  have last : (history.push entry).index = (history.pushed entry).length - 1 := rfl
  rw [last, entries, List.length_append, List.length_singleton, Nat.add_sub_cancel]

theorem reverse_kept (history : History T) :
    history.kept.reverse = (history.current ::
      (history.entries.take history.index).reverse).take (historyLimit - 1) := by
  rw [kept, List.reverse_drop, ← reverse_take_succ, List.take_eq_take_iff, List.length_reverse]
  unfold historyLimit
  omega

/-- A push forgets what was undone, and the oldest. -/
theorem zipper_push (history : History T) (entry : T) :
    (history.push entry).zipper = (history.zipper.push entry).newest historyLimit := by
  have current : (history.push entry).current = entry := by
    simp only [current, List.get_eq_getElem, entries_push, index_push]
    exact List.getElem_concat_length rfl _
  have future : (history.push entry).entries.drop ((history.push entry).index + 1) = [] := by
    rw [entries_push, index_push]
    apply List.drop_of_length_le
    simp only [List.length_append, List.length_singleton, Nat.le_refl]
  have past : (history.push entry).entries.take (history.push entry).index = history.kept := by
    rw [entries_push, index_push, List.take_left]
  rw [zipper, current, future, past, reverse_kept]
  rfl

theorem zipper_undo (history : History T) :
    history.zipper.undo = history.undo.map zipper := by
  obtain ⟨entries, index, inside⟩ := history
  cases index with
  | zero => rfl
  | succ index =>
      have behind : index < entries.length := Nat.lt_of_succ_lt inside
      simp only [undo, zipper, Zipper.undo, Nat.zero_lt_succ, if_true, Option.map_some,
        Nat.add_sub_cancel]
      rw [List.take_succ_eq_append_getElem behind, List.reverse_append,
        List.drop_eq_getElem_cons inside]
      rfl

theorem zipper_redo (history : History T) :
    history.zipper.redo = history.redo.map zipper := by
  unfold redo
  split_ifs with more
  · simp only [zipper, Zipper.redo, Option.map_some]
    rw [List.drop_eq_getElem_cons more, reverse_take_succ]
    rfl
  · have atEnd : history.entries.drop (history.index + 1) = [] :=
      List.drop_of_length_le (Nat.le_of_not_lt more)
    simp only [zipper, Zipper.redo, atEnd, Option.map_none]

theorem canUndo_eq (history : History T) :
    history.canUndo = history.zipper.undo.isSome := by
  rw [zipper_undo, Option.isSome_map, canUndo, undo]
  split_ifs with more <;> simp [more]

theorem canRedo_eq (history : History T) :
    history.canRedo = history.zipper.redo.isSome := by
  have inside := history.inside
  rw [zipper_redo, Option.isSome_map, canRedo, redo]
  split_ifs with more
  · simp only [Option.isSome_some, decide_eq_true_iff]
    omega
  · simp only [Option.isSome_none, decide_eq_false_iff_not]
    omega

theorem length_push (history : History T) (entry : T) :
    (history.push entry).entries.length ≤ historyLimit := by
  simp only [push, pushed, List.length_drop]
  omega

theorem mem_of_zipper {history : History T} {entry : T} (listed : history.zipper.Mem entry) :
    entry ∈ history.entries := by
  rcases listed with behind | rfl | ahead
  · exact List.mem_of_mem_take (List.mem_reverse.mp behind)
  · exact history.current_mem
  · exact List.mem_of_mem_drop ahead

theorem map_eq {S : Type} {history : History T} {first second : T → S}
    (same : ∀ entry ∈ history.entries, first entry = second entry) :
    history.zipper.map first = history.zipper.map second :=
  Zipper.map_congr fun entry listed => same entry (mem_of_zipper listed)

end History

/-- The history hook, and the trees as objects. The editor has some of them. -/
structure HistoryHook (T : Type) where
  trees : Nat → T
  created : Nat
  history : History Nat
  initialRoot : Nat
  held : List Nat
  /-- What `onRestore` was called with in the last step. -/
  restored : Option Nat

/-- What is done with a history. The editor makes a tree, changes one that it has, or calls
the hook. -/
inductive HistoryEvent (T : Type)
  | build (tree : T)
  | mutate (object : Nat) (tree : T)
  | push (object : Nat)
  | reset (object : Nat)
  | undo
  | redo

namespace HistoryHook

variable {T : Type}

/-- `useMindMapHistory`: the tree it is called with is the first entry. -/
def start (initialRoot : T) : HistoryHook T where
  trees := fun _ => initialRoot
  created := 1
  history := .init 0
  initialRoot := 0
  held := [0]
  restored := none

/-- A new object. -/
def create (hook : HistoryHook T) (tree : T) : HistoryHook T :=
  { hook with
    trees := Function.update hook.trees hook.created tree
    created := hook.created + 1 }

/-- `step`: the cursor moves, and the editor gets a copy of the tree there. -/
def goTo (hook : HistoryHook T) : Option (History Nat) → HistoryHook T
  | none => hook
  | some history =>
      { hook.create (hook.trees history.current) with
        history := history
        held := hook.created :: hook.held
        restored := some hook.created }

/-- One step. Only what the editor has can be changed or handed in. -/
def step : System (HistoryHook T) (HistoryEvent T) :=
  fun before event =>
    let hook := { before with restored := none }
    match event with
    | .build tree => some { hook.create tree with held := hook.created :: hook.held }
    | .mutate object tree =>
        if object ∈ hook.held then
          some { hook with trees := Function.update hook.trees object tree }
        else none
    | .push object =>
        if object ∈ hook.held then
          some { hook.create (hook.trees object) with
            history := hook.history.push hook.created }
        else none
    | .reset object =>
        if object ∈ hook.held then
          some { hook.create (hook.trees object) with history := .init hook.created }
        else none
    | .undo => some (hook.goTo hook.history.undo)
    | .redo => some (hook.goTo hook.history.redo)

/-- The stored states. -/
def states (hook : HistoryHook T) : Zipper T := hook.history.zipper.map hook.trees

/-- The tree the hook was started with is not changed while it is an entry. -/
def Spares (hook : HistoryHook T) : HistoryEvent T → Prop
  | .mutate object _ => object = hook.initialRoot → object ∉ hook.history.entries
  | _ => True

instance (hook : HistoryHook T) : (event : HistoryEvent T) → Decidable (hook.Spares event)
  | .mutate .. => inferInstanceAs (Decidable (_ → _))
  | .build .. | .push .. | .reset .. | .undo | .redo => .isTrue trivial

end HistoryHook

/-- An undo without a limit: what there is after an event on it, and what is restored. The
trees that are handed in are read where they are. -/
def unbounded {T : Type} (read : Nat → T) (zipper : Zipper T) :
    HistoryEvent T → Zipper T × Option T
  | .build _ | .mutate .. => (zipper, none)
  | .push object => (zipper.push (read object), none)
  | .reset object => (.start (read object), none)
  | .undo => (zipper.undo.getD zipper, zipper.undo.map Zipper.present)
  | .redo => (zipper.redo.getD zipper, zipper.redo.map Zipper.present)

/-- The hook beside an undo of which the newest states are kept. -/
structure Compared (T : Type) where
  hook : HistoryHook T
  zipper : Zipper T
  restored : Option T

namespace Compared

variable {T : Type}

def start (initialRoot : T) : Compared T := ⟨.start initialRoot, .start initialRoot, none⟩

/-- Both take the same steps. -/
def system : System (Compared T) (HistoryEvent T) :=
  fun compared event =>
    let next := unbounded compared.hook.trees compared.zipper event
    (compared.hook.step event).map fun hook =>
      ⟨hook, next.1.newest historyLimit, next.2⟩

/-- The behaviour that is seen is the same, the cursor is inside, and there are no more
states than the limit. -/
structure Agrees (compared : Compared T) : Prop where
  restored : compared.hook.restored.map compared.hook.trees = compared.restored
  canUndo : compared.hook.history.canUndo = compared.zipper.undo.isSome
  canRedo : compared.hook.history.canRedo = compared.zipper.redo.isSome
  cursor : compared.hook.history.index < compared.hook.history.entries.length
  limit : compared.hook.history.entries.length ≤ historyLimit

/-- A change of a tree by the editor changes no entry. -/
def Isolates (before : Compared T) (event : HistoryEvent T) (after : Compared T) : Prop :=
  ∀ object tree, event = .mutate object tree → after.hook.states = before.hook.states

end Compared

namespace HistoryHook

variable {T : Type}

/-- What keeps the entries apart from what the editor has: only the first tree is both. -/
structure Apart (hook : HistoryHook T) : Prop where
  entries : ∀ entry ∈ hook.history.entries, entry < hook.created
  held : ∀ object ∈ hook.held, object < hook.created
  first : ∀ object ∈ hook.held, object ∈ hook.history.entries → object = hook.initialRoot
  limit : hook.history.entries.length ≤ historyLimit

section Apart

variable {hook : HistoryHook T}

theorem apart_start (initialRoot : T) : (start initialRoot).Apart where
  entries := by simp [start, History.init]
  held := by simp [start]
  first := by simp [start]
  limit := by simp [start, History.init, historyLimit]

/-- A new object changes no other. -/
theorem trees_create {object : Nat} (earlier : object < hook.created) (tree : T) :
    (hook.create tree).trees object = hook.trees object :=
  Function.update_of_ne (Nat.ne_of_lt earlier) _ _

theorem states_create (apart : hook.Apart) (tree : T) :
    (hook.create tree).states = hook.states :=
  History.map_eq fun entry present => trees_create (apart.entries entry present) tree

theorem trees_create_self (tree : T) : (hook.create tree).trees hook.created = tree :=
  Function.update_self _ _ _

/-- What a push stores. -/
theorem states_push (apart : hook.Apart) (tree : T) :
    ({ hook.create tree with history := hook.history.push hook.created }).states =
      (hook.states.push tree).newest historyLimit := by
  have kept : hook.history.zipper.map (hook.create tree).trees = hook.states :=
    states_create apart tree
  rw [states, History.zipper_push, Zipper.map_newest, Zipper.map_push, kept, trees_create_self]

theorem states_reset (tree : T) :
    ({ hook.create tree with history := .init hook.created }).states = .start tree := by
  have single : (History.init hook.created).zipper = .start hook.created := rfl
  have stored : (hook.create tree).trees hook.created = tree := trees_create_self tree
  rw [states, single, Zipper.start, Zipper.map, stored]
  rfl

/-- What is stored is new, and the editor does not get it. -/
theorem Apart.store (apart : hook.Apart) (tree : T) {history : History Nat}
    (new : ∀ entry ∈ history.entries, entry = hook.created ∨ entry ∈ hook.history.entries)
    (limit : history.entries.length ≤ historyLimit) :
    ({ hook.create tree with history := history }).Apart := by
  refine ⟨?_, ?_, ?_, limit⟩
  · intro entry present
    rcases new entry present with rfl | old
    · exact Nat.lt_succ_self _
    · exact Nat.lt_succ_of_lt (apart.entries entry old)
  · exact fun object had => Nat.lt_succ_of_lt (apart.held object had)
  · intro object had present
    rcases new object present with rfl | old
    · exact absurd (apart.held _ had) (Nat.lt_irrefl _)
    · exact apart.first object had old

/-- What the editor gets is new, and is not stored. -/
theorem Apart.give (apart : hook.Apart) (tree : T) {history : History Nat}
    (same : history.entries = hook.history.entries) (restored : Option Nat) :
    ({ hook.create tree with
      history := history
      held := hook.created :: hook.held
      restored := restored }).Apart := by
  refine ⟨?_, ?_, ?_, ?_⟩
  · intro entry present
    exact Nat.lt_succ_of_lt (apart.entries entry (same ▸ present))
  · intro object had
    rcases List.mem_cons.mp had with rfl | old
    · exact Nat.lt_succ_self _
    · exact Nat.lt_succ_of_lt (apart.held object old)
  · intro object had present
    have stored : object ∈ hook.history.entries := same ▸ present
    rcases List.mem_cons.mp had with rfl | old
    · exact absurd (apart.entries _ stored) (Nat.lt_irrefl _)
    · exact apart.first object old stored
  · exact same ▸ apart.limit

theorem Apart.push (apart : hook.Apart) (tree : T) :
    ({ hook.create tree with history := hook.history.push hook.created }).Apart :=
  apart.store tree (fun _ => History.mem_push) (History.length_push _ _)

theorem Apart.reset (apart : hook.Apart) (tree : T) :
    ({ hook.create tree with history := .init hook.created }).Apart := by
  refine apart.store tree ?_ ?_
  · intro entry present
    exact .inl (List.mem_singleton.mp present)
  · unfold historyLimit
    exact Nat.le_of_ble_eq_true rfl

/-- A cursor that moves: the states are the same but for where it is, and the editor gets
what is there. -/
theorem states_goTo (apart : hook.Apart) {moved : History Nat}
    (same : moved.entries = hook.history.entries) :
    (hook.goTo (some moved)).states = moved.zipper.map hook.trees := by
  refine History.map_eq fun entry present => ?_
  exact trees_create (apart.entries entry (same ▸ present)) _

theorem Apart.goTo (apart : hook.Apart) {moved : Option (History Nat)}
    (same : ∀ history, moved = some history → history.entries = hook.history.entries) :
    (hook.goTo moved).Apart := by
  cases moved with
  | none => exact apart
  | some history => exact apart.give _ (same history rfl) _

/-- What is changed by the editor is not stored. -/
theorem states_mutate (apart : hook.Apart) {object : Nat} {tree : T}
    (had : object ∈ hook.held) (spares : hook.Spares (.mutate object tree)) :
    ({ hook with trees := Function.update hook.trees object tree }).states = hook.states := by
  refine History.map_eq fun entry present => ?_
  have other : entry ≠ object := by
    rintro rfl
    exact spares (apart.first entry had present) present
  exact Function.update_of_ne other _ _

theorem size_states (hook : HistoryHook T) : hook.states.size = hook.history.entries.length := by
  rw [states, Zipper.size_map, History.size_zipper]

end Apart

end HistoryHook

namespace Compared

variable {T : Type} {before after : Compared T} {event : HistoryEvent T}

/-- The states of the hook are those of the capped undo. -/
structure Follows (compared : Compared T) : Prop where
  apart : compared.hook.Apart
  states : compared.zipper = compared.hook.states

theorem follows_start (initialRoot : T) : (start initialRoot).Follows :=
  ⟨HistoryHook.apart_start initialRoot, rfl⟩

theorem Follows.newest (follows : before.Follows) :
    before.zipper.newest historyLimit = before.hook.states := by
  rw [follows.states]
  apply Zipper.newest_eq_self
  rw [HistoryHook.size_states]
  exact follows.apart.limit

/-- What is seen of states that are the same is the same. -/
theorem Follows.agrees (follows : before.Follows)
    (restored : before.hook.restored.map before.hook.trees = before.restored) :
    before.Agrees := by
  refine ⟨restored, ?_, ?_, before.hook.history.inside, follows.apart.limit⟩
  · rw [History.canUndo_eq, follows.states, HistoryHook.states, Zipper.map_undo, Option.isSome_map]
  · rw [History.canRedo_eq, follows.states, HistoryHook.states, Zipper.map_redo, Option.isSome_map]

/-- A cursor that moves in both moves to the same state, and that is what is restored. -/
theorem follows_goTo {hook : HistoryHook T} {zipper : Zipper T}
    (follows : Follows ⟨hook, zipper, none⟩) (nothing : hook.restored = none)
    {moved : Option (History Nat)} {target : Option (Zipper T)}
    (same : ∀ history, moved = some history → history.entries = hook.history.entries)
    (reaches : target = moved.map fun history => history.zipper.map hook.trees) :
    Follows ⟨hook.goTo moved, (target.getD zipper).newest historyLimit,
        target.map Zipper.present⟩ ∧
      (hook.goTo moved).restored.map (hook.goTo moved).trees = target.map Zipper.present := by
  subst reaches
  cases moved with
  | none =>
      refine ⟨⟨follows.apart, follows.newest⟩, ?_⟩
      rw [HistoryHook.goTo, nothing]
      rfl
  | some history =>
      have states := HistoryHook.states_goTo follows.apart (same history rfl)
      have arrived : Follows ⟨hook.goTo (some history), _, none⟩ :=
        ⟨follows.apart.goTo same, states.symm⟩
      refine ⟨⟨arrived.apart, ?_⟩, congrArg some (HistoryHook.trees_create_self _)⟩
      exact arrived.newest

/-- A step that restores nothing, after which the states of the hook are those of the
undo. -/
theorem follows_of_states {hook : HistoryHook T} {zipper : Zipper T} (apart : hook.Apart)
    (nothing : hook.restored = none) (states : zipper.newest historyLimit = hook.states) :
    Follows ⟨hook, zipper.newest historyLimit, none⟩ ∧ hook.restored.map hook.trees = none :=
  ⟨⟨apart, states⟩, by rw [nothing, Option.map_none]⟩

/-- One step of both. -/
theorem follows_step (follows : before.Follows) (spares : before.hook.Spares event)
    (taken : system before event = some after) : after.Follows ∧ after.Agrees := by
  obtain ⟨hook, moved, rfl⟩ := Option.map_eq_some_iff.mp taken
  suffices both : Follows ⟨hook, _, _⟩ ∧ hook.restored.map hook.trees = _ from
    ⟨both.1, both.1.agrees both.2⟩
  have kept := follows.newest
  let cleared : HistoryHook T := { before.hook with restored := none }
  have apart : cleared.Apart :=
    ⟨follows.apart.entries, follows.apart.held, follows.apart.first, follows.apart.limit⟩
  have clearly : Follows ⟨cleared, before.zipper, none⟩ := ⟨apart, follows.states⟩
  cases event with
  | build tree =>
      cases moved
      refine follows_of_states (apart.give tree rfl none) rfl (kept.trans ?_)
      exact (HistoryHook.states_create apart tree).symm
  | mutate object tree =>
      simp only [HistoryHook.step, Option.ite_none_right_eq_some, Option.some.injEq] at moved
      obtain ⟨had, rfl⟩ := moved
      refine follows_of_states ⟨apart.entries, apart.held, apart.first, apart.limit⟩ rfl
        (kept.trans ?_)
      exact (HistoryHook.states_mutate follows.apart had spares).symm
  | push object =>
      simp only [HistoryHook.step, Option.ite_none_right_eq_some, Option.some.injEq] at moved
      obtain ⟨-, rfl⟩ := moved
      refine follows_of_states (apart.push _) rfl ?_
      rw [follows.states]
      exact (HistoryHook.states_push apart _).symm
  | reset object =>
      simp only [HistoryHook.step, Option.ite_none_right_eq_some, Option.some.injEq] at moved
      obtain ⟨-, rfl⟩ := moved
      refine follows_of_states (apart.reset _) rfl ?_
      exact (HistoryHook.states_reset _).symm
  | undo =>
      cases moved
      have reaches : before.zipper.undo =
          before.hook.history.undo.map fun history => history.zipper.map before.hook.trees := by
        rw [follows.states, HistoryHook.states, Zipper.map_undo, History.zipper_undo,
          Option.map_map]
        rfl
      exact follows_goTo clearly rfl (fun _ => History.entries_undo) reaches
  | redo =>
      cases moved
      have reaches : before.zipper.redo =
          before.hook.history.redo.map fun history => history.zipper.map before.hook.trees := by
        rw [follows.states, HistoryHook.states, Zipper.map_redo, History.zipper_redo,
          Option.map_map]
        rfl
      exact follows_goTo clearly rfl (fun _ => History.entries_redo) reaches

/-- A change by the editor reaches no entry. -/
theorem isolates_step (follows : before.Follows) (spares : before.hook.Spares event)
    (taken : system before event = some after) : Isolates before event after := by
  rintro object tree rfl
  obtain ⟨hook, moved, rfl⟩ := Option.map_eq_some_iff.mp taken
  simp only [HistoryHook.step, Option.ite_none_right_eq_some, Option.some.injEq] at moved
  obtain ⟨had, rfl⟩ := moved
  exact HistoryHook.states_mutate follows.apart had spares

/-- As long as the tree that the hook was started with is not changed while it is an entry,
the hook is an undo of which the newest states are kept. -/
theorem agrees_of_spares (initialRoot : T) {events : List (HistoryEvent T)}
    (spares : EveryStepAllowed system (fun compared event => compared.hook.Spares event)
      (start initialRoot) events) :
    EveryState system Agrees (start initialRoot) events ∧
      EveryStep system Isolates (start initialRoot) events := by
  have initially := follows_start initialRoot
  let invariant (compared : Compared T) : Prop := compared.Follows ∧ compared.Agrees
  constructor
  · have preserved : ∀ before event after, invariant before →
        before.hook.Spares event → system before event = some after → invariant after :=
      fun _ _ _ held spares taken => follows_step held.1 spares taken
    exact everyState_of_allowed preserved (fun _ held => held.2)
      ⟨initially, initially.agrees rfl⟩ spares
  · refine everyStep_of_allowed ?_ ?_ initially spares
    · exact fun _ _ _ follows spares taken => (follows_step follows spares taken).1
    · exact fun _ _ _ follows spares taken => isolates_step follows spares taken

/-- A map with another text in its centre. -/
def renamedTree (text : String) : MindMapTreeNode Unit :=
  .node { smallTree.label with text := text } smallTree.children

/-- The editor changes a copy it was given and a tree it has pushed, and goes back and
forward. -/
theorem agrees_of_spares_small :
    EveryState system Agrees (start smallTree)
        [.build (renamedTree "b"), .push 1, .mutate 1 (renamedTree "c"), .undo,
          .mutate 3 (renamedTree "d"), .redo, .reset 3, .mutate 0 (renamedTree "e")] ∧
      EveryStep system Isolates (start smallTree)
        [.build (renamedTree "b"), .push 1, .mutate 1 (renamedTree "c"), .undo,
          .mutate 3 (renamedTree "d"), .redo, .reset 3, .mutate 0 (renamedTree "e")] :=
  agrees_of_spares smallTree (by decide)

/-- The tree that the hook was started with is pushed and changed: the change is in the
first entry, and that is what an undo restores. -/
theorem first_entry_changes :
    ¬ (EveryState system Agrees (start smallTree)
          [.push 0, .mutate 0 (renamedTree "changed"), .undo] ∧
        EveryStep system Isolates (start smallTree)
          [.push 0, .mutate 0 (renamedTree "changed"), .undo]) := by
  rintro ⟨agrees, -⟩
  have final : Agrees _ := agrees.last rfl
  have text := congrArg (Option.map fun tree => tree.label.text) final.restored
  exact absurd text (by decide)

end Compared

end Maps
end MindMapVault
