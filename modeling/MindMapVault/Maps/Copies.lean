import MindMapVault.Maps.Editor
import Mathlib.Data.List.Flatten

/-!
# Copies of attachments

Which attachments a tree has after an edit, and what copies of branches have: attachments
with ids of their own, that hold what those they are copies of hold inside. A copy has no
file of its own.
-/

namespace MindMapVault
namespace Maps

open RoseTree hiding node

section Attached

variable {Rest : Type}

/-- The attachments of a node, with the id of the node. -/
def attachedTo (content : NodeContent Rest) : List (String × NodeAttachmentRef) :=
  content.attachments.map (content.id, ·)

/-- The attachments of a tree. -/
def attached (tree : MindMapTreeNode Rest) : List (String × NodeAttachmentRef) :=
  tree.labels.flatMap attachedTo

/-- The attachments of several trees. -/
def attachedAll (trees : List (MindMapTreeNode Rest)) : List (String × NodeAttachmentRef) :=
  (labelsAll trees).flatMap attachedTo

/-- The id of an attachment. -/
def idOf (held : String × NodeAttachmentRef) : String := held.2.attachmentId

theorem attachedAll_cons (tree : MindMapTreeNode Rest) (trees : List (MindMapTreeNode Rest)) :
    attachedAll (tree :: trees) = attached tree ++ attachedAll trees :=
  List.flatMap_append

theorem attachedAll_append (first second : List (MindMapTreeNode Rest)) :
    attachedAll (first ++ second) = attachedAll first ++ attachedAll second := by
  rw [attachedAll, labelsAll_append, List.flatMap_append]
  rfl

/-- The references of a tree, without the nodes. -/
theorem map_snd_attached (tree : MindMapTreeNode Rest) :
    (attached tree).map Prod.snd = refs tree := by
  unfold attached refs
  rw [List.map_flatMap]
  congr 1
  funext content
  rw [attachedTo, List.map_map]
  exact List.map_id _

theorem map_snd_attachedAll (trees : List (MindMapTreeNode Rest)) :
    (attachedAll trees).map Prod.snd = trees.flatMap refs := by
  induction trees with
  | nil => rfl
  | cons tree trees ih =>
      rw [attachedAll_cons, List.map_append, map_snd_attached, ih, List.flatMap_cons]

theorem map_idOf_attached (tree : MindMapTreeNode Rest) :
    (attached tree).map idOf = (refs tree).map NodeAttachmentRef.attachmentId := by
  rw [← map_snd_attached, List.map_map]
  rfl

theorem map_idOf_attachedAll (trees : List (MindMapTreeNode Rest)) :
    (attachedAll trees).map idOf = (trees.flatMap refs).map NodeAttachmentRef.attachmentId := by
  rw [← map_snd_attachedAll, List.map_map]
  rfl

/-- A splice changes the attachments at one place. -/
theorem attached_splice {wanted : NodeContent Rest → Bool}
    {change : MindMapTreeNode Rest → List (MindMapTreeNode Rest)}
    {tree after : MindMapTreeNode Rest} (spliced : tree.splice wanted change = some after) :
    ∃ before found rest, attached tree = before ++ attached found ++ rest ∧
      attached after = before ++ attachedAll (change found) ++ rest := by
  obtain ⟨before, found, rest, -, old, new⟩ := splice_labels spliced
  refine ⟨before.flatMap attachedTo, found, rest.flatMap attachedTo, ?_, ?_⟩
  · simp only [attached, old, List.flatMap_append]
  · simp only [attached, attachedAll, new, List.flatMap_append]

/-- A splice that puts more beside what it finds adds the attachments of that. -/
theorem attached_splice_perm {wanted : NodeContent Rest → Bool}
    {change : MindMapTreeNode Rest → List (MindMapTreeNode Rest)}
    {added : List (String × NodeAttachmentRef)}
    (adds : ∀ found, (attachedAll (change found)).Perm (attached found ++ added))
    {tree after : MindMapTreeNode Rest} (spliced : tree.splice wanted change = some after) :
    (attached after).Perm (attached tree ++ added) := by
  obtain ⟨before, found, rest, old, new⟩ := attached_splice spliced
  rw [old, new]
  calc before ++ attachedAll (change found) ++ rest
      _ |>.Perm (before ++ (attached found ++ added) ++ rest) :=
        ((adds found).append_left before).append_right rest
      _ = before ++ attached found ++ (added ++ rest) := by
        simp only [List.append_assoc]
      _ |>.Perm (before ++ attached found ++ (rest ++ added)) := List.perm_append_comm.append_left _
      _ = before ++ attached found ++ rest ++ added := by
        simp only [List.append_assoc]

end Attached

section Operations

variable {Rest : Type} {root after : MindMapTreeNode Rest}

/-- A removal takes attachments away, in their places. -/
theorem attached_removeNode {nodeId : String} (removed : removeNode root nodeId = some after) :
    List.Sublist (attached after) (attached root) := by
  unfold removeNode at removed
  split_ifs at removed
  obtain ⟨before, found, rest, old, new⟩ := attached_splice removed
  rw [old, new]
  exact ((List.nil_sublist _).append_left before).append_right rest

/-- So does one removal after the other. -/
theorem attached_removeNodes {nodeIds : List String}
    (removed : removeNodes root nodeIds = some after) :
    List.Sublist (attached after) (attached root) := by
  simp only [removeNodes, Option.ite_none_left_eq_some, Option.some.injEq] at removed
  obtain ⟨-, rfl⟩ := removed
  generalize nodeIds.eraseDups.filter (· ≠ "root") = ids
  induction ids generalizing root with
  | nil => exact List.Sublist.refl _
  | cons id ids ih =>
      rw [List.foldl_cons]
      cases taken : removeNode root id with
      | none => exact ih
      | some next => exact ih.trans (attached_removeNode taken)

/-- An insertion adds the attachments of the node. -/
theorem attached_insertAfter {nodeId : String} {node : MindMapTreeNode Rest}
    (inserted : insertAfter root nodeId node = some after) :
    (attached after).Perm (attached root ++ attached node) := by
  unfold insertAfter at inserted
  split_ifs at inserted
  refine attached_splice_perm (fun found => ?_) inserted
  rw [attachedAll_cons, attachedAll_cons]
  exact List.Perm.of_eq (congrArg _ (List.append_nil _))

/-- A branch has its attachments wherever it is placed. -/
theorem attachedAll_unplaced (nodes : List (MindMapTreeNode Rest)) :
    attachedAll (nodes.map unplaced) = attachedAll nodes := by
  induction nodes with
  | nil => rfl
  | cons node nodes ih =>
      cases node with
      | node content children =>
          rw [List.map_cons, attachedAll_cons, attachedAll_cons, ih]
          rfl

/-- A node with more children has their attachments as well. -/
theorem attached_withChildren (nodes : List (MindMapTreeNode Rest))
    (target : MindMapTreeNode Rest) :
    attached (withChildren nodes target) = attached target ++ attachedAll nodes := by
  cases target with
  | node content children =>
      rw [← attachedAll_unplaced nodes]
      simp only [withChildren, attached, attachedAll, RoseTree.labels,
        labelsAll_append, List.flatMap_cons, List.flatMap_append, List.append_assoc]
      rfl

/-- Appended branches add their attachments. -/
theorem attached_appendChildren {parentId : String} {nodes : List (MindMapTreeNode Rest)}
    (appended : appendChildren root parentId nodes = some after) :
    (attached after).Perm (attached root ++ attachedAll nodes) := by
  unfold appendChildren at appended
  split_ifs at appended
  · cases appended
    rw [attached_withChildren]
  · refine attached_splice_perm (fun found => ?_) appended
    rw [attachedAll_cons, attached_withChildren]
    exact List.Perm.of_eq (List.append_nil _)

/-- Selected branches have attachments of the map. -/
theorem attached_topLevelSelection (nodeIds : List String) (includeRoot : Bool) :
    List.Sublist (attachedAll (topLevelSelection root nodeIds includeRoot)) (attached root) :=
  (outermost_labels root).flatMap attachedTo

/-- The branch that is duplicated has attachments of the map. -/
theorem attached_source {editing : Editing Rest} {nodeId : String}
    {node : MindMapTreeNode Rest} (found : editing.source nodeId = some node) :
    List.Sublist (attached node) (attached editing.root) := by
  unfold Editing.source at found
  split_ifs at found
  exact (find?_labels found).flatMap attachedTo

end Operations

/-- References that are copies of others: they are these with other ids, and the log says
which is a copy of which. -/
structure AreCopies
    (log : List (String × String)) (old new : List NodeAttachmentRef) : Prop where
  logged : log.map Prod.fst = new.map NodeAttachmentRef.attachmentId
  each : ∀ ref ∈ new, ∃ source ∈ old,
    (ref.attachmentId, source.attachmentId) ∈ log ∧
      isLocal source.attachmentId = true ∧
      ref = { source with attachmentId := ref.attachmentId }

namespace AreCopies

variable {log more : List (String × String)} {old older new newer : List NodeAttachmentRef}

theorem none : AreCopies [] old [] := ⟨rfl, List.forall_mem_nil _⟩

theorem append (first : AreCopies log old new) (second : AreCopies more older newer) :
    AreCopies (log ++ more) (old ++ older) (new ++ newer) where
  logged := by rw [List.map_append, List.map_append, first.logged, second.logged]
  each := by
    intro ref present
    rcases List.mem_append.mp present with here | later
    · obtain ⟨source, among, inLog, rest⟩ := first.each ref here
      exact ⟨source, List.mem_append_left _ among, List.mem_append_left _ inLog, rest⟩
    · obtain ⟨source, among, inLog, rest⟩ := second.each ref later
      exact ⟨source, List.mem_append_right _ among, List.mem_append_right _ inLog, rest⟩

end AreCopies

section Copying

variable {Rest : Type} (draws : Draws)

/-- New ids for nodes change no attachment and copy none. -/
theorem walkList_reassign (state : Copying) (contents : List (NodeContent Rest)) :
    (walkList (reassign draws) state contents).1.copied = state.copied ∧
      (walkList (reassign draws) state contents).2.flatMap
          NodeContent.attachments =
        contents.flatMap NodeContent.attachments := by
  induction contents generalizing state with
  | nil => exact ⟨rfl, rfl⟩
  | cons content contents ih =>
      have rest := ih (reassign draws state content).1
      simp only [walkList, List.flatMap_cons, rest.1, rest.2]
      exact ⟨rfl, rfl⟩

/-- The copies of one node. -/
theorem areCopies_copyRefs (uuids : Nat) (attachments : List NodeAttachmentRef) :
    AreCopies
      ((copyRefs draws uuids attachments).2.map fun copy => (copy.2.attachmentId, copy.1))
      attachments ((copyRefs draws uuids attachments).2.map Prod.snd) := by
  induction attachments generalizing uuids with
  | nil => exact .none
  | cons attachment attachments ih =>
      rw [copyRefs]
      split_ifs with ours
      · have first : AreCopies
            [("local-" ++ draws.randomUUID uuids, attachment.attachmentId)] [attachment]
            [{ attachment with attachmentId := "local-" ++ draws.randomUUID uuids }] := by
          refine ⟨rfl, fun ref present => ?_⟩
          rw [List.mem_singleton.mp present]
          exact ⟨attachment, List.mem_singleton_self _, List.mem_singleton_self _, ours, rfl⟩
        exact first.append (ih (uuids + 1))
      · have nothing : AreCopies [] [attachment] [] := .none
        exact nothing.append (ih uuids)

/-- The copies of several nodes. -/
theorem areCopies_copyContent (state : Copying) (contents : List (NodeContent Rest)) :
    ∃ log, (walkList (copyContent draws) state contents).1.copied =
        state.copied ++ log ∧
      AreCopies log (contents.flatMap NodeContent.attachments)
        ((walkList (copyContent draws) state contents).2.flatMap NodeContent.attachments) := by
  induction contents generalizing state with
  | nil => exact ⟨[], (List.append_nil _).symm, .none⟩
  | cons content contents ih =>
      obtain ⟨log, copied, copies⟩ := ih (copyContent draws state content).1
      refine ⟨_, ?_, (areCopies_copyRefs draws state.uuids content.attachments).append copies⟩
      rw [walkList, copied, copyContent, List.append_assoc]

/-- The copies of a branch. -/
theorem areCopies_cloneBranch (state : Copying) (node : MindMapTreeNode Rest) :
    ∃ log, (cloneBranch draws state node).1.copied = state.copied ++ log ∧
      AreCopies log (refs node) (refs (cloneBranch draws state node).2) := by
  have renamed := walk_labels (reassign draws) state node
  have kept := walkList_reassign draws state node.labels
  rw [← renamed] at kept
  have along := walk_labels (copyContent draws)
    (node.walk (reassign draws) state).1 (node.walk (reassign draws) state).2
  obtain ⟨log, copied, copies⟩ := areCopies_copyContent draws
    (node.walk (reassign draws) state).1 (node.walk (reassign draws) state).2.labels
  rw [← along] at copied copies
  rw [kept.1] at copied
  rw [kept.2] at copies
  exact ⟨log, copied, copies⟩

/-- The copies of several branches. -/
theorem areCopies_cloneBranches (nodes : List (MindMapTreeNode Rest)) :
    AreCopies (cloneBranches draws nodes).1.copied (nodes.flatMap refs)
      ((cloneBranches draws nodes).2.flatMap refs) := by
  have general (state : Copying) : ∃ log,
      (walkList (cloneBranch draws) state nodes).1.copied = state.copied ++ log ∧
        AreCopies log (nodes.flatMap refs)
          ((walkList (cloneBranch draws) state nodes).2.flatMap refs) := by
    induction nodes generalizing state with
    | nil => exact ⟨[], (List.append_nil _).symm, .none⟩
    | cons node nodes ih =>
        obtain ⟨first, copiedFirst, copiesFirst⟩ := areCopies_cloneBranch draws state node
        obtain ⟨rest, copiedRest, copiesRest⟩ := ih (cloneBranch draws state node).1
        refine ⟨first ++ rest, ?_, copiesFirst.append copiesRest⟩
        rw [walkList, copiedRest, copiedFirst, List.append_assoc]
  obtain ⟨log, copied, copies⟩ := general ⟨0, 0, []⟩
  rw [List.nil_append] at copied
  rw [cloneBranches, copied]
  exact copies

end Copying

end Maps
end MindMapVault
