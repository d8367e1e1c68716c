import MindMapVault.Maps.Families

/-!
# A branch under another parent

Moving a branch changes two lists of children, the fold of the new parent and the
position of the node that moves. Every family of the tree behind the move is one from
before it, with just that changed, so every other parent, order and field is as it was.
The node that has the name of a root is not moved, wherever it is.
-/

namespace MindMapVault
namespace Maps

open RoseTree hiding node

variable {Rest : Type}

/-- What a move makes of a node and the ids of its children. -/
def reparentedFamily (nodeId newParentId : String)
    (family : NodeContent Rest × List String) : NodeContent Rest × List String :=
  ({ family.1 with
      customX := if family.1.id = nodeId then none else family.1.customX
      customY := if family.1.id = nodeId then none else family.1.customY
      collapsed := if family.1.id = newParentId then false else family.1.collapsed },
    (family.2.filter fun id => !id == nodeId) ++ if family.1.id = newParentId then [nodeId] else [])

/-- There is nothing to move, no place for it, or the place would go with it. -/
def Refused (root : MindMapTreeNode Rest) (nodeId newParentId : String) : Prop :=
  nodeId = "root" ∨ nodeId = root.label.id ∨ nodeId ∉ nodeIds root ∨
    newParentId ∉ nodeIds root ∨ newParentId = nodeId ∨
      ∃ node ∈ root.find? (hasId nodeId), newParentId ∈ nodeIds node

/-- The branch has moved, and nothing else has. -/
structure Reparented (root : MindMapTreeNode Rest) (nodeId newParentId : String)
    (after : MindMapTreeNode Rest) : Prop where
  rootId : after.label.id = root.label.id
  ids : (nodeIds after).Perm (nodeIds root)
  branch : after.find? (hasId nodeId) = (root.find? (hasId nodeId)).map unplaced
  target : ∃ node ∈ after.find? (hasId nodeId),
    ∃ parent ∈ after.find? (hasId newParentId),
      parent.children.getLast? = some node ∧ parent.label.collapsed = false
  families : (families after).Perm ((families root).map (reparentedFamily nodeId newParentId))

section Refused

variable {root node : MindMapTreeNode Rest} {nodeId newParentId : String}

/-- The place is below the node. -/
theorem isDescendant_iff (found : root.find? (hasId nodeId) = some node) :
    isDescendant root nodeId newParentId = true ↔ newParentId ∈ nodeIds node := by
  rw [isDescendant, found, mem_nodeIds_iff_find?]

/-- Children are put under a node that is there. -/
theorem isSome_appendChildren_iff {nodes : List (MindMapTreeNode Rest)} (given : nodes ≠ []) :
    (appendChildren root newParentId nodes).isSome = true ↔ newParentId ∈ nodeIds root := by
  refine ⟨fun appended => ?_, isSome_appendChildren given⟩
  unfold appendChildren at appended
  split_ifs at appended with isEmpty isTop
  · exact nomatch appended
  · rw [nodeIds_eq, isTop]
    exact List.mem_cons_self
  · obtain ⟨after, spliced⟩ := Option.isSome_iff_exists.mp appended
    obtain ⟨before, found, rest, isWanted, labels, -⟩ := splice_labels spliced
    rw [nodeIds, labels, ← id_of_hasId isWanted]
    exact List.mem_map_of_mem (by simp [label_mem_labels])

/-- The branch of a node below the root. -/
theorem branchesOf_eq (distinct : (nodeIds root).Nodup) (notRoot : nodeId ≠ "root")
    (notTop : root.label.id ≠ nodeId) (found : root.find? (hasId nodeId) = some node) :
    branchesOf (· == nodeId) root = [node] := by
  have branch := selectedBelow_singleton distinct notRoot notTop found
  rw [selectedBelow, isSelected_singleton notRoot] at branch
  exact branch

/-- The ids of a tree without a branch. -/
theorem mem_nodeIds_removed (distinct : (nodeIds root).Nodup) (notRoot : nodeId ≠ "root")
    (notTop : root.label.id ≠ nodeId) (found : root.find? (hasId nodeId) = some node)
    {id : String} :
    id ∈ nodeIds (root.prune (hasId nodeId)) ↔ id ∈ nodeIds root ∧ id ∉ nodeIds node := by
  have member : id ∈ nodeIds (root.prune (hasId nodeId)) ↔
      id ∈ nodeIds root ∧ id ∉ nodeIdsAll (branchesOf (· == nodeId) root) :=
    mem_nodeIds_prune distinct (· == nodeId)
  rwa [branchesOf_eq distinct notRoot notTop found, nodeIdsAll_singleton] at member

/-- What a move of a branch comes down to. -/
theorem reparentNode_eq (distinct : (nodeIds root).Nodup) (notRoot : nodeId ≠ "root")
    (notTop : root.label.id ≠ nodeId) (found : root.find? (hasId nodeId) = some node)
    (outside : newParentId ∉ nodeIds node) :
    reparentNode root nodeId newParentId =
      appendChildren (root.prune (hasId nodeId)) newParentId [node] := by
  have differs : nodeId ≠ newParentId := by
    rintro rfl
    refine outside ?_
    rw [nodeIds_eq, id_of_hasId (wanted_of_find? found)]
    exact List.mem_cons_self
  have below : nodeId ∈ nodeIdsAll root.children :=
    mem_children_of_ne (mem_nodeIds_iff_find?.mpr (by rw [found]; rfl)) notTop
  have removed : removeNode root nodeId = some (root.prune (hasId nodeId)) := by
    have taken := getD_removeNode distinct notRoot
    have applies : (removeNode root nodeId).isSome = true := by
      rw [removeNode, if_neg (not_or.mpr ⟨notRoot, notTop⟩)]
      exact isSome_splice _ below
    obtain ⟨after, here⟩ := Option.isSome_iff_exists.mp applies
    rw [here, Option.getD_some] at taken
    rw [here, taken]
  have apart : ¬ isDescendant root nodeId newParentId = true := by
    rwa [isDescendant_iff found]
  rw [reparentNode, if_neg (not_or.mpr ⟨notRoot, differs⟩), if_neg apart, if_neg notTop, found,
    removed]
  rfl

/-- A move is refused exactly where it should be. -/
theorem reparentNode_eq_none_iff (distinct : (nodeIds root).Nodup) :
    reparentNode root nodeId newParentId = none ↔ Refused root nodeId newParentId := by
  unfold Refused
  by_cases isRoot : nodeId = "root"
  · simp [reparentNode, isRoot]
  by_cases isTop : root.label.id = nodeId
  · simp [reparentNode, isTop]
  cases found : root.find? (hasId nodeId) with
  | none =>
      have missing : nodeId ∉ nodeIds root := by
        rw [mem_nodeIds_iff_find?, found]
        exact nofun
      simp [reparentNode, found, missing]
  | some node =>
      have present : nodeId ∈ nodeIds root := by
        rw [mem_nodeIds_iff_find?, found]
        rfl
      by_cases inside : newParentId ∈ nodeIds node
      · have below := (isDescendant_iff found).mpr inside
        simp [reparentNode, below, inside]
      · have own : newParentId ≠ nodeId := by
          rintro rfl
          refine inside ?_
          rw [nodeIds_eq, id_of_hasId (wanted_of_find? found)]
          exact List.mem_cons_self
        rw [reparentNode_eq distinct isRoot isTop found inside, ← Option.not_isSome_iff_eq_none,
          isSome_appendChildren_iff (List.cons_ne_nil _ _),
          mem_nodeIds_removed distinct isRoot isTop found, and_iff_left inside]
        simp [isRoot, Ne.symm isTop, present, own, inside]

end Refused

section Moved

variable {root node after : MindMapTreeNode Rest} {nodeId newParentId : String}

/-- A node that is open. -/
def openedContent (content : NodeContent Rest) : NodeContent Rest :=
  { content with collapsed := false }

theorem withChildren_eq_grown (nodes : List (MindMapTreeNode Rest)) :
    withChildren nodes = grown openedContent (nodes.map unplaced) := by
  funext target
  cases target
  rfl

/-- Children are put under one node, wherever it is. -/
theorem appendChildren_eq_update {nodes : List (MindMapTreeNode Rest)}
    (distinct : (nodeIds root).Nodup)
    (appended : appendChildren root newParentId nodes = some after) :
    after = root.update (hasId newParentId) (grown openedContent (nodes.map unplaced)) := by
  rw [← withChildren_eq_grown]
  unfold appendChildren at appended
  split_ifs at appended with isEmpty isTop
  · cases appended
    cases root with
    | node content children =>
        have here : hasId newParentId content = true := beq_iff_eq.mpr isTop
        rw [RoseTree.update, if_pos here]
  · rw [nodeIds_eq, List.nodup_cons] at distinct
    exact splice_eq_update (beq_eq_false_iff_ne.mpr isTop)
      (countP_hasId distinct.2 newParentId) appended

/-- The families of a branch that has moved are those it had, without its position. -/
theorem families_unplaced (distinct : (nodeIds node).Nodup) (own : node.label.id = nodeId)
    (outside : newParentId ∉ nodeIds node) :
    families (unplaced node) = (families node).map (reparentedFamily nodeId newParentId) := by
  cases node with
  | node content children =>
      obtain rfl : content.id = nodeId := own
      rw [nodeIds_eq, label_node, List.mem_cons, not_or] at outside
      rw [nodeIds_eq, label_node, children_node, List.nodup_cons] at distinct
      obtain ⟨notOwn, below⟩ := outside
      have others : ∀ id ∈ nodeIdsAll children, id ≠ content.id ∧ id ≠ newParentId := by
        refine fun id present => ⟨?_, ?_⟩
        · rintro rfl
          exact distinct.1 present
        · rintro rfl
          exact below present
      rw [unplaced, families, families, RoseTree.families, RoseTree.families, List.map_cons]
      refine congrArg₂ List.cons ?_ ((List.map_id _).symm.trans
        (List.map_congr_left fun family present => ?_))
      · have kept : (names NodeContent.id children).filter
            (fun id => !id == content.id) = names NodeContent.id children := by
          refine List.filter_eq_self.mpr fun id listed => ?_
          obtain ⟨child, here, rfl⟩ := List.mem_map.mp listed
          have inside : child.label.id ∈ nodeIdsAll children := by
            rw [nodeIdsAll, labelsAll_eq_flatMap]
            exact List.mem_map_of_mem (List.mem_flatMap.mpr ⟨child, here, label_mem_labels child⟩)
          simpa using (others _ inside).1
        rw [reparentedFamily, kept]
        simp [Ne.symm notOwn]
      · have self := others _ (List.mem_map_of_mem
          (label_of_mem_familiesAll NodeContent.id present))
        have kept : family.2.filter (fun id => !id == content.id) = family.2 := by
          refine List.filter_eq_self.mpr fun id listed => ?_
          have inside := name_of_mem_familiesAll NodeContent.id present id listed
          simpa using (others id inside).1
        rw [reparentedFamily, kept]
        simp [self.1, self.2]

/-- Where the branch is not, a family loses it or gains it. -/
theorem adopt_forsake {family : NodeContent Rest × List String} (other : family.1.id ≠ nodeId) :
    adopt (hasId newParentId) openedContent [nodeId]
        (forsake (· == nodeId) family) =
      reparentedFamily nodeId newParentId family := by
  by_cases gains : family.1.id = newParentId
  · simp [adopt, forsake, hasId, gains, reparentedFamily, openedContent, gains ▸ other]
  · simp [adopt, forsake, hasId, gains, reparentedFamily, other]

/-- The families of a tree in which a branch has moved. -/
theorem families_reparented (distinct : (nodeIds root).Nodup) (notRoot : nodeId ≠ "root")
    (notTop : root.label.id ≠ nodeId) (found : root.find? (hasId nodeId) = some node)
    (outside : newParentId ∉ nodeIds node)
    (appended : appendChildren (root.prune (hasId nodeId)) newParentId [node] = some after) :
    (families after).Perm ((families root).map (reparentedFamily nodeId newParentId)) := by
  have own : node.label.id = nodeId := id_of_hasId (wanted_of_find? found)
  have inside : (nodeIds node).Nodup := distinct.sublist ((find?_labels found).map NodeContent.id)
  have apart : (nodeIds (root.prune (hasId nodeId))).Nodup := nodup_prune _ distinct
  have place : newParentId ∈ nodeIds (root.prune (hasId nodeId)) := by
    rw [← isSome_appendChildren_iff (List.cons_ne_nil node []), appended]
    rfl
  have once : (labelsAll [root.prune (hasId nodeId)]).countP (hasId newParentId) = 1 := by
    rw [labelsAll, labelsAll, List.append_nil]
    obtain ⟨content, listed, same⟩ := List.mem_map.mp place
    have named : hasId newParentId content = true := beq_iff_eq.mpr same
    exact Nat.le_antisymm (countP_hasId apart newParentId)
      (List.countP_pos_iff.mpr ⟨content, listed, named⟩)
  have grows := familiesAll_updateAll_perm NodeContent.id openedContent
    ([node].map unplaced) (fun _ _ => rfl) once
  have name : names NodeContent.id ([node].map unplaced) = [nodeId] := by
    cases node
    exact congrArg (fun id => [id]) own
  have branch : familiesAll NodeContent.id ([node].map unplaced) =
      (families node).map (reparentedFamily nodeId newParentId) := by
    rw [← families_unplaced inside own outside, List.map_singleton, familiesAll,
      familiesAll, List.append_nil, families]
  obtain ⟨left, gone⟩ := families_prune distinct (· == nodeId)
  rw [branchesOf_eq distinct notRoot notTop found, nodeIdsAll_singleton] at left gone
  rw [familiesAll, familiesAll, List.append_nil] at gone
  have stays : (families (root.prune (hasId nodeId))).map
      (adopt (hasId newParentId) openedContent [nodeId]) =
        ((families root).filter fun family => decide (family.1.id ∉ nodeIds node)).map
          (reparentedFamily nodeId newParentId) := by
    refine (congrArg (List.map _) left).trans ?_
    rw [List.map_map]
    refine List.map_congr_left fun family present => adopt_forsake ?_
    have other := of_decide_eq_true (List.mem_filter.mp present).2
    rintro same
    refine other ?_
    rw [same, ← own, nodeIds_eq]
    exact List.mem_cons_self
  rw [name, branch, familiesAll, familiesAll, List.append_nil,
    updateAll, updateAll, familiesAll, familiesAll,
    List.append_nil] at grows
  rw [appendChildren_eq_update apart appended]
  refine grows.trans ?_
  change ((families (root.prune (hasId nodeId))).map _ ++ _).Perm _
  rw [stays, show families node = _ from gone, ← List.map_append]
  exact (List.filter_append_perm _ _).map _

end Moved

/-- A branch that moves ends up last below its new parent, which is open. -/
theorem find?_reparented {node after : MindMapTreeNode Rest}
    {nodeId newParentId : String} (distinct : (nodeIds after).Nodup)
    (own : node.label.id = nodeId) {removed : MindMapTreeNode Rest}
    (apart : (nodeIds removed).Nodup)
    (appended : appendChildren removed newParentId [node] = some after) :
    after.find? (hasId nodeId) = some (unplaced node) ∧
      ∃ parent ∈ after.find? (hasId newParentId),
        parent.children.getLast? = some (unplaced node) ∧ parent.label.collapsed = false := by
  have place : newParentId ∈ nodeIds removed := by
    rw [← isSome_appendChildren_iff (List.cons_ne_nil node []), appended]
    rfl
  obtain ⟨target, here⟩ := Option.isSome_iff_exists.mp (mem_nodeIds_iff_find?.mp place)
  have stays : ∀ tree : MindMapTreeNode Rest, hasId newParentId tree.label = true →
      hasId newParentId (grown openedContent ([node].map unplaced) tree).label = true := by
    rintro ⟨content, children⟩ has
    exact has
  have found : after.find? (hasId newParentId) =
      some (grown openedContent [unplaced node] target) := by
    rw [appendChildren_eq_update apart appended, RoseTree.find?_update stays, here]
    rfl
  cases target with
  | node content children =>
      rw [grown] at found
      refine ⟨?_, _, found, List.getLast?_concat, rfl⟩
      refine find?_of_mem (countP_hasId distinct nodeId) ?_ ?_
      · exact mem_subtrees_of_child (mem_subtrees_of_find? found)
          (List.mem_append_right children (List.mem_singleton.mpr rfl))
      · cases node
        exact beq_iff_eq.mpr own

/-- Moving a node is refused exactly where it has the name of a root, is the root or is
missing, or where its new parent is missing, the node itself or below it; elsewhere the
branch moves and nothing else does. -/
theorem reparentNode_moves (root : MindMapTreeNode Rest) (distinct : (nodeIds root).Nodup)
    (nodeId newParentId : String) :
    (reparentNode root nodeId newParentId = none ↔ Refused root nodeId newParentId) ∧
      ∀ after, reparentNode root nodeId newParentId = some after →
        Reparented root nodeId newParentId after := by
  refine ⟨reparentNode_eq_none_iff distinct, fun after moved => ?_⟩
  have accepted : ¬ Refused root nodeId newParentId := by
    rw [← reparentNode_eq_none_iff distinct, moved]
    exact nofun
  simp only [Refused, not_or, not_not] at accepted
  obtain ⟨notRoot, notTop, present, -, -, outside⟩ := accepted
  obtain ⟨node, found⟩ := Option.isSome_iff_exists.mp (mem_nodeIds_iff_find?.mp present)
  have apart : newParentId ∉ nodeIds node := fun inside => outside ⟨node, found, inside⟩
  have adds := adds_reparentNode distinct moved
  rw [reparentNode_eq distinct notRoot (Ne.symm notTop) found apart] at moved
  have ids : (nodeIds after).Perm (nodeIds root) := by
    simpa only [List.append_nil] using adds.ids
  obtain ⟨branch, parent⟩ := find?_reparented (ids.nodup_iff.mpr distinct)
    (id_of_hasId (wanted_of_find? found)) (nodup_prune _ distinct) moved
  exact
    { rootId := adds.rootId
      ids := ids
      branch := by rw [branch, found, Option.map_some]
      target := ⟨_, branch, parent⟩
      families := families_reparented distinct notRoot (Ne.symm notTop) found apart moved }

/-- A node of some children and nothing else. -/
def bareNode (id : String) (children : List (MindMapTreeNode Unit)) : MindMapTreeNode Unit :=
  .node (createNode id ()).label children

/-- A branch moves below its sibling. -/
theorem reparentNode_moves_sibling :
    (reparentNode (bareNode "root" [bareNode "a" [bareNode "a1" []], bareNode "b" []])
        "a" "b" = none ↔
      Refused (bareNode "root" [bareNode "a" [bareNode "a1" []], bareNode "b" []]) "a" "b") ∧
      ∀ after, reparentNode
          (bareNode "root" [bareNode "a" [bareNode "a1" []], bareNode "b" []])
            "a" "b" = some after →
        Reparented (bareNode "root" [bareNode "a" [bareNode "a1" []], bareNode "b" []])
          "a" "b" after :=
  reparentNode_moves _ (by decide) "a" "b"

/-- A node below the root that has the name of a root does not move. -/
theorem named_root_stays :
    ¬ ∀ (root : MindMapTreeNode Unit) (nodeId newParentId : String),
      (nodeIds root).Nodup →
        (reparentNode root nodeId newParentId = none ↔
          nodeId = root.label.id ∨ nodeId ∉ nodeIds root ∨ newParentId ∉ nodeIds root ∨
            newParentId = nodeId ∨
              ∃ node ∈ root.find? (hasId nodeId), newParentId ∈ nodeIds node) := by
  intro exactly
  have refused := (exactly (bareNode "map" [bareNode "root" [], bareNode "b" []])
    "root" "b" (by decide)).mp rfl
  revert refused
  decide

end Maps
end MindMapVault
