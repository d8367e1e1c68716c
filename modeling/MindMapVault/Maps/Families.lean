import MindMapVault.Foundations.RoseFamilies
import MindMapVault.Maps.TreeIds

/-!
# The families of a map

Every node of a map with the ids of its children. A removal leaves the families of the
nodes that are in no removed branch, in their order, without the ids of the children that
are gone; the others are those of the removed branches.
-/

namespace MindMapVault
namespace Maps

open RoseTree hiding node

variable {Rest : Type}

/-- Every node of a tree, with the ids of its children. -/
def families (root : MindMapTreeNode Rest) : List (NodeContent Rest × List String) :=
  RoseTree.families NodeContent.id root

/-- The branches of the nodes below the root whose ids pass a test; those inside others
go with them. -/
def branchesOf (test : String → Bool) (root : MindMapTreeNode Rest) :
    List (MindMapTreeNode Rest) :=
  outermostAll (fun content => test content.id) root.children

section Prune

variable {root : MindMapTreeNode Rest}

/-- The ids that stay are those in none of the branches. -/
theorem mem_nodeIds_prune (distinct : (nodeIds root).Nodup) (test : String → Bool) {id : String} :
    id ∈ nodeIds (root.prune fun content => test content.id) ↔
      id ∈ nodeIds root ∧ id ∉ nodeIdsAll (branchesOf test root) := by
  have together := nodeIds_prune_perm root fun content => test content.id
  have apart := together.nodup_iff.mp distinct
  rw [together.mem_iff, List.mem_append]
  constructor
  · exact fun kept => ⟨.inl kept, fun inside =>
      (List.nodup_append.mp apart).2.2 id kept id inside rfl⟩
  · exact fun both => both.1.resolve_right both.2

/-- The families that stay, and those that go. -/
theorem families_prune (distinct : (nodeIds root).Nodup) (test : String → Bool) :
    families (root.prune fun content => test content.id) =
        ((families root).filter fun family =>
          decide (family.1.id ∉ nodeIdsAll (branchesOf test root))).map (forsake test) ∧
      familiesAll NodeContent.id (branchesOf test root) =
        (families root).filter fun family =>
          !decide (family.1.id ∉ nodeIdsAll (branchesOf test root)) := by
  have member : ∀ content ∈ (root.prune fun content => test content.id).labels,
      content.id ∉ nodeIdsAll (branchesOf test root) := fun content present =>
    ((mem_nodeIds_prune distinct test).mp (List.mem_map_of_mem present)).2
  generalize gone : nodeIdsAll (branchesOf test root) = ids at member
  cases root with
  | node content children =>
      have top : content.id ∉ ids := member content (label_mem_labels _)
      have stays : ∀ content ∈ labelsAll
          (pruneAll (fun content => test content.id) children),
          decide (content.id ∉ ids) = true := fun content present =>
        decide_eq_true (member content (List.mem_cons_of_mem _ present))
      have goes : ∀ content ∈ labelsAll
          (outermostAll (fun content => test content.id) children),
          decide (content.id ∉ ids) = false := by
        intro content present
        rw [← gone]
        exact decide_eq_false (not_not_intro (List.mem_map_of_mem present))
      obtain ⟨left, right⟩ := familiesAll_pruneAll NodeContent.id test stays goes
      constructor
      · rw [families, families, RoseTree.prune, RoseTree.families, RoseTree.families, left,
          names_pruneAll, List.filter_cons, if_pos (decide_eq_true top)]
        rfl
      · rw [families, RoseTree.families, List.filter_cons_of_neg (by simp [top]), ← right]
        rfl

end Prune

end Maps
end MindMapVault
