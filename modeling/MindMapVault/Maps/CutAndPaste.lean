import MindMapVault.Crypto.SameReads
import MindMapVault.Maps.Clipping

/-!
# What is cut comes back once

In every state of a session the ids of the map are distinct, and so are those of every
entry of the history and those on the clipboard. The clipboard is marked as cut as long as
the branches are missing.
-/

namespace MindMapVault
namespace Maps

open Transition
open RoseTree hiding node

variable {Rest : Type}

/-- The root is the node of that name, and no two nodes have one id. -/
structure Rooted (tree : MindMapTreeNode Rest) : Prop where
  rootId : tree.label.id = "root"
  distinct : (nodeIds tree).Nodup

section Rooted

variable {root after : MindMapTreeNode Rest}

theorem Rooted.of_adds {added : List String} (rooted : Rooted root)
    (adds : Adds root added after) (nodup : added.Nodup)
    (fresh : ∀ id ∈ added, id ∉ nodeIds root) : Rooted after := by
  refine ⟨adds.rootId.trans rooted.rootId, adds.ids.nodup_iff.mpr ?_⟩
  refine List.nodup_append'.mpr ⟨rooted.distinct, nodup, fun id present new => ?_⟩
  exact fresh id new present

theorem Rooted.of_unchanged (rooted : Rooted root) (adds : Adds root [] after) :
    Rooted after :=
  rooted.of_adds adds List.nodup_nil (List.forall_mem_nil _)

theorem Rooted.prune (rooted : Rooted root) (wanted : NodeContent Rest → Bool) :
    Rooted (root.prune wanted) := by
  refine ⟨?_, nodup_prune wanted rooted.distinct⟩
  rw [label_prune]
  exact rooted.rootId

theorem Rooted.removeNode {id : String} (rooted : Rooted root)
    (removed : removeNode root id = some after) : Rooted after := by
  obtain ⟨-, rfl⟩ := removeNode_eq_some rooted.distinct removed
  exact rooted.prune _

theorem Rooted.removeNodes {ids : List String} (rooted : Rooted root)
    (removed : removeNodes root ids = some after) : Rooted after := by
  rw [removeNodes_eq_some rooted.distinct removed]
  exact rooted.prune _

theorem Rooted.commitEdit {editingId editText : String} (rooted : Rooted root)
    (committed : commitEdit root editingId editText = some after) : Rooted after := by
  simp only [Maps.commitEdit] at committed
  split_ifs at committed
  · exact rooted.removeNode committed
  · exact rooted.of_unchanged (adds_editNode committed)

theorem Rooted.cancelEdit {editingId : String} (rooted : Rooted root)
    (cancelled : cancelEdit root editingId = some after) : Rooted after := by
  unfold Maps.cancelEdit at cancelled
  split_ifs at cancelled
  obtain ⟨found, -, removed⟩ := Option.bind_eq_some_iff.mp cancelled
  split_ifs at removed
  exact rooted.removeNode removed

/-- Branches that are appended are put below the target. -/
theorem appended_of_appendChildren {targetId : String}
    {branches : List (MindMapTreeNode Rest)} (distinct : (nodeIds root).Nodup)
    (appended : appendChildren root targetId branches = some after) :
    after = root.update (hasId targetId) (withChildren branches) := by
  rw [nodeIds_eq, List.nodup_cons] at distinct
  unfold appendChildren at appended
  split_ifs at appended with _ isTop
  · cases appended
    cases root with
    | node content children =>
        have here : hasId targetId content = true := beq_iff_eq.mpr isTop
        rw [RoseTree.update, here, if_pos rfl]
  · have top : hasId targetId root.label = false := beq_eq_false_iff_ne.mpr isTop
    exact splice_eq_update top (countP_hasId distinct.2 targetId) appended

/-- In a map, branches can be put below every node that is there. -/
theorem exists_appended {targetId : String} {branches : List (MindMapTreeNode Rest)}
    (distinct : (nodeIds root).Nodup) (nonempty : branches ≠ [])
    (present : targetId ∈ nodeIds root) :
    ∃ after, appendChildren root targetId branches = some after ∧
      Appended root targetId branches after := by
  obtain ⟨after, appended⟩ := Option.isSome_iff_exists.mp (isSome_appendChildren nonempty present)
  exact ⟨after, appended, present, appended_of_appendChildren distinct appended⟩

end Rooted

section Copies

variable (draws : Draws)

end Copies

section Selection

variable {root : MindMapTreeNode Rest}

/-- The branches of a selection have ids of the map, in order. -/
theorem nodeIdsAll_topLevelSelection_sublist (root : MindMapTreeNode Rest)
    (ids : List String) (includeRoot : Bool) :
    (nodeIdsAll (topLevelSelection root ids includeRoot)).Sublist (nodeIds root) :=
  (outermost_labels root).map NodeContent.id

end Selection

/-- The map, the history and the clipboard hold no id twice. -/
structure Tidy (editing : Editing Rest) : Prop where
  root : Rooted editing.root
  history : ∀ entry ∈ editing.history.entries, Rooted entry
  clipboard : ∀ clip, editing.clipboard = some clip →
    clip.nodes ≠ [] ∧ (nodeIdsAll clip.nodes).Nodup

namespace Tidy

variable {editing : Editing Rest}

theorem mutateTo (tidy : Tidy editing) {result : Option (MindMapTreeNode Rest)}
    (rooted : ∀ after, result = some after → Rooted after) : Tidy (editing.mutateTo result) := by
  cases result with
  | none => exact tidy
  | some after =>
      refine ⟨rooted after rfl, fun entry present => ?_, tidy.clipboard⟩
      rcases History.mem_push present with rfl | old
      · exact rooted _ rfl
      · exact tidy.history entry old

theorem restore (tidy : Tidy editing) {result : Option (History (MindMapTreeNode Rest))}
    (same : ∀ history, result = some history → history.entries = editing.history.entries) :
    Tidy (editing.restore result) := by
  cases result with
  | none => exact tidy
  | some history =>
      have entries := same history rfl
      refine ⟨tidy.history _ ?_, ?_, tidy.clipboard⟩
      · rw [← entries]
        exact history.current_mem
      · intro entry present
        exact tidy.history entry (entries ▸ present)

theorem withCopies (tidy : Tidy editing) (copied : List (String × String)) :
    Tidy (editing.withCopies copied) := ⟨tidy.root, tidy.history, tidy.clipboard⟩

theorem duplicateNode (tidy : Tidy editing) {nodeId : String} {draws : Draws}
    {after : Editing Rest} (new : editing.DrawsNew (.duplicateNode nodeId draws))
    (duplicated : editing.duplicateNode nodeId draws = some after) : Tidy after := by
  unfold Editing.duplicateNode at duplicated
  split at duplicated
  case h_1 =>
    cases duplicated
    exact tidy
  case h_2 node found =>
    simp only [Option.ite_none_right_eq_some, Option.some.injEq] at duplicated
    obtain ⟨-, rfl⟩ := duplicated
    have copies : editing.copies (.duplicateNode nodeId draws) =
        [(cloneBranch draws ⟨0, 0, []⟩ node).2] := by
      simp only [Editing.copies, EditorEvent.draws, Editing.copiedBranches, found]
      rfl
    rw [Editing.DrawsNew, copies, nodeIdsAll_singleton] at new
    refine (tidy.withCopies _).mutateTo fun inserted result => ?_
    exact tidy.root.of_adds (adds_insertAfter result) new.1 fun id drawn => (new.2 id drawn).1

theorem copyNodes (tidy : Tidy editing) (ids : List String) (cut : Bool) :
    Tidy (editing.copyNodes ids cut) := by
  have distinct := tidy.root.distinct.sublist
    (nodeIdsAll_topLevelSelection_sublist editing.root ids !cut)
  by_cases empty : (topLevelSelection editing.root ids !cut).isEmpty
  · simp only [Editing.copyNodes, if_pos empty]
    exact tidy
  · have copied : Tidy { editing with
        clipboard := some ⟨topLevelSelection editing.root ids !cut, cut⟩ } := by
      refine ⟨tidy.root, tidy.history, ?_⟩
      intro clip held
      cases held
      exact ⟨by simpa using empty, distinct⟩
    simp only [Editing.copyNodes, if_neg empty]
    split_ifs
    · exact copied.mutateTo fun after removed => tidy.root.removeNodes removed
    · exact copied

end Tidy

theorem root_mutateTo (editing : Editing Rest) (result : Option (MindMapTreeNode Rest)) :
    (editing.mutateTo result).root = result.getD editing.root := by
  cases result <;> rfl

section Paste

variable {editing : Editing Rest}

/-- Branches that share no id with the map, put below a place that there is. -/
theorem Tidy.append (tidy : Tidy editing) {branches : List (MindMapTreeNode Rest)}
    {targetId : String} (nonempty : branches ≠ []) (nodup : (nodeIdsAll branches).Nodup)
    (absent : ∀ id ∈ nodeIdsAll branches, id ∉ nodeIds editing.root)
    (present : targetId ∈ nodeIds editing.root) :
    Tidy (editing.mutateTo (appendChildren editing.root targetId branches)) ∧
      Appended editing.root targetId branches
        (editing.mutateTo (appendChildren editing.root targetId branches)).root := by
  obtain ⟨after, result, appended⟩ := exists_appended tidy.root.distinct nonempty present
  rw [root_mutateTo, result]
  refine ⟨tidy.mutateTo fun _ same => ?_, appended⟩
  cases same
  exact tidy.root.of_adds (adds_appendChildren result) nodup absent

/-- The clipboard is marked as cut as long as its branches are missing. -/
def Follows (watched : Watched Rest) : Prop :=
  watched.missing =
    watched.editing.clipboard.bind fun clip => if clip.cut then some clip.nodes else none

end Paste

section Session

variable {watched next : Watched Rest} {event : MapEvent}

end Session

end Maps
end MindMapVault
