import MindMapVault.Maps.TreeOps

/-!
# No node is lost or duplicated

What each operation does to the ids of a tree: moves and edits keep them, an insertion
adds those of what is inserted, and a removal takes away those of the branches of the
selected nodes. The root stays.
-/

namespace MindMapVault
namespace Maps

open RoseTree hiding node
open Transition

variable {Rest : Type}

/-- The ids of a tree, in preorder. -/
def nodeIds (root : MindMapTreeNode Rest) : List String := root.labels.map NodeContent.id

/-- The ids of several trees. -/
def nodeIdsAll (nodes : List (MindMapTreeNode Rest)) : List String :=
  (labelsAll nodes).map NodeContent.id

/-- The node is one of these, and not the root by its name. -/
def isSelected (ids : List String) (content : NodeContent Rest) : Bool :=
  decide (content.id ∈ ids) && content.id != "root"

/-- The branches of the selected nodes below the root; those inside others go with
them. -/
def selectedBelow (root : MindMapTreeNode Rest) (ids : List String) :
    List (MindMapTreeNode Rest) :=
  outermostAll (isSelected ids) root.children

theorem id_of_hasId {id : String} {content : NodeContent Rest}
    (has : hasId id content = true) : content.id = id :=
  beq_iff_eq.mp has

/-- What has an id is found by it. -/
theorem mem_nodeIds_iff_find? {root : MindMapTreeNode Rest} {id : String} :
    id ∈ nodeIds root ↔ (root.find? (hasId id)).isSome = true := by
  constructor
  · intro present
    obtain ⟨content, listed, same⟩ := List.mem_map.mp present
    exact find?_isSome listed (beq_iff_eq.mpr same)
  · intro found
    obtain ⟨node, here⟩ := Option.isSome_iff_exists.mp found
    rw [← id_of_hasId (wanted_of_find? here)]
    exact List.mem_map_of_mem ((find?_labels here).subset (label_mem_labels node))

namespace TreeEdit

/-- The ids an operation inserts. -/
def added : TreeEdit Rest → List String
  | .addChild _ _ id | .addSibling _ id => [id]
  | .insertAfter _ node => nodeIds node
  | .appendChildren _ nodes => nodeIdsAll nodes
  | _ => []

/-- The ids an operation takes away. -/
def removed (root : MindMapTreeNode Rest) : TreeEdit Rest → List String
  | .removeNode nodeId => nodeIdsAll (selectedBelow root [nodeId])
  | .removeNodes nodeIds => nodeIdsAll (selectedBelow root nodeIds)
  | _ => []

/-- The operation is the removal of nodes, and this is the id of one of them. -/
def Names : TreeEdit Rest → String → Prop
  | .removeNode nodeId, id => id = nodeId
  | .removeNodes nodeIds, id => id ∈ nodeIds
  | _, _ => False

/-- What is inserted has ids of its own. -/
def Fresh (root : MindMapTreeNode Rest) (event : TreeEdit Rest) : Prop :=
  event.added.Nodup ∧ ∀ id ∈ event.added, id ∉ nodeIds root

instance (root : MindMapTreeNode Rest) (event : TreeEdit Rest) :
    Decidable (event.Fresh root) :=
  inferInstanceAs (Decidable (_ ∧ _))

/-- The node that an insertion is placed at is there. -/
def Placed (root : MindMapTreeNode Rest) : TreeEdit Rest → Prop
  | .addChild parentId _ _ => parentId ∈ nodeIds root
  | .addSibling nodeId _ => nodeId ≠ "root" ∧ nodeId ∈ nodeIdsAll root.children
  | .insertAfter nodeId _ => nodeId ∈ nodeIdsAll root.children
  | .appendChildren parentId nodes => nodes ≠ [] ∧ parentId ∈ nodeIds root
  | _ => False

/-- What an operation does to the ids: the root keeps its own, they stay distinct, and
they change by what is added, where the operation applies, and by what is removed. An
insertion applies wherever its place is in the tree. -/
structure Exact (blank : Option Side → Rest) (root : MindMapTreeNode Rest)
    (event : TreeEdit Rest) (after : MindMapTreeNode Rest) : Prop where
  rootId : after.label.id = root.label.id
  distinct : (nodeIds after).Nodup
  changes : match event.result blank root with
    | none => after = root ∧ event.removed root = []
    | some _ => (nodeIds root ++ event.added).Perm (nodeIds after ++ event.removed root)
  applies : event.Placed root → (event.result blank root).isSome
  branches : ∀ id, id ∈ event.removed root ↔ ∃ branch ∈ subtreesAll root.children,
    event.Names branch.label.id ∧ branch.label.id ≠ "root" ∧ id ∈ nodeIds branch

end TreeEdit

/-- The operations one after the other; one that does not apply leaves the tree. An
operation is not possible with ids that are in use. -/
def treeEdits (blank : Option Side → Rest) :
    System (MindMapTreeNode Rest) (TreeEdit Rest) :=
  fun root event =>
    if event.Fresh root then some ((event.result blank root).getD root) else none

section Selected

variable {root : MindMapTreeNode Rest}

theorem mem_selectedBelow {ids : List String} {id : String} :
    id ∈ nodeIdsAll (selectedBelow root ids) ↔
      ∃ branch ∈ subtreesAll root.children,
        branch.label.id ∈ ids ∧ branch.label.id ≠ "root" ∧ id ∈ nodeIds branch := by
  simp only [nodeIdsAll, selectedBelow, nodeIds, List.mem_map,
    mem_labelsAll_outermostAll, isSelected, Bool.and_eq_true, decide_eq_true_eq,
    bne_iff_ne]
  constructor
  · rintro ⟨content, ⟨branch, listed, ⟨inIds, notRoot⟩, present⟩, rfl⟩
    exact ⟨branch, listed, inIds, notRoot, content, present, rfl⟩
  · rintro ⟨branch, listed, inIds, notRoot, content, present, rfl⟩
    exact ⟨content, ⟨branch, listed, ⟨inIds, notRoot⟩, present⟩, rfl⟩

/-- At most one node has an id. -/
theorem countP_hasId {contents : List (NodeContent Rest)}
    (distinct : (contents.map NodeContent.id).Nodup) (id : String) :
    contents.countP (hasId id) ≤ 1 := by
  have once := List.nodup_iff_count_le_one.mp distinct id
  rwa [List.count, List.countP_map] at once

/-- The ids below the root. -/
theorem nodeIds_eq (tree : MindMapTreeNode Rest) :
    nodeIds tree = tree.label.id :: nodeIdsAll tree.children := by
  rw [nodeIds, labels_eq, List.map_cons, nodeIdsAll]

theorem mem_nodeIdsAll {nodes : List (MindMapTreeNode Rest)} {id : String} :
    id ∈ nodeIdsAll nodes ↔ ∃ content ∈ labelsAll nodes, content.id = id :=
  List.mem_map

/-- What is pruned and what is left have the ids together. -/
theorem nodeIds_prune_perm (root : MindMapTreeNode Rest) (wanted : NodeContent Rest → Bool) :
    (nodeIds root).Perm (nodeIds (root.prune wanted) ++
      nodeIdsAll (outermostAll wanted root.children)) := by
  have same : (root.labels.map NodeContent.id).Perm
      (((root.prune wanted).labels ++
        labelsAll (outermostAll wanted root.children)).map NodeContent.id) :=
    (labels_prune_perm root).map NodeContent.id
  rwa [List.map_append] at same

theorem nodup_prune (wanted : NodeContent Rest → Bool) (distinct : (nodeIds root).Nodup) :
    (nodeIds (root.prune wanted)).Nodup :=
  ((nodeIds_prune_perm root wanted).nodup_iff.mp distinct).of_append_left

/-- One removal prunes the branch of its node. -/
theorem getD_removeNode (distinct : (nodeIds root).Nodup) {id : String}
    (notRoot : id ≠ "root") : (removeNode root id).getD root = root.prune (hasId id) := by
  rw [nodeIds_eq, List.nodup_cons] at distinct
  obtain ⟨rootApart, below⟩ := distinct
  unfold removeNode
  by_cases isTop : root.label.id = id
  · have unwanted : ∀ content ∈ labelsAll root.children,
        hasId id content = false := by
      intro content present
      refine beq_eq_false_iff_ne.mpr fun same => rootApart ?_
      rw [isTop, ← same]
      exact List.mem_map_of_mem present
    rw [if_pos (.inr isTop), prune_eq_self unwanted]
    rfl
  · rw [if_neg (not_or.mpr ⟨notRoot, isTop⟩)]
    exact getD_splice_eq_prune (countP_hasId below id)

/-- Several removals prune the branches of their nodes. -/
theorem foldl_removeNode (ids : List String) (distinct : (nodeIds root).Nodup)
    (notRoot : ∀ id ∈ ids, id ≠ "root") :
    ids.foldl (fun tree id => (removeNode tree id).getD tree) root =
      root.prune fun content => decide (content.id ∈ ids) := by
  induction ids generalizing root with
  | nil =>
      refine (prune_eq_self fun content _ => ?_).symm
      simp
  | cons id ids ih =>
      have own := notRoot id List.mem_cons_self
      have others := fun other later => notRoot other (List.mem_cons_of_mem id later)
      rw [List.foldl_cons, getD_removeNode distinct own,
        ih (nodup_prune _ distinct) others, prune_prune]
      congr 1
      funext content
      simp only [hasId, List.mem_cons, Bool.decide_or, Bool.or_comm]
      rw [beq_eq_decide]

/-- A removal that applies prunes the selected branches. -/
theorem removeNodes_eq_some {ids : List String} {after : MindMapTreeNode Rest}
    (distinct : (nodeIds root).Nodup) (removed : removeNodes root ids = some after) :
    after = root.prune (isSelected ids) := by
  simp only [removeNodes, Option.ite_none_left_eq_some, Option.some.injEq] at removed
  obtain ⟨-, rfl⟩ := removed
  rw [foldl_removeNode _ distinct (by simp)]
  congr 1
  funext content
  rw [Bool.eq_iff_iff]
  simp [isSelected]

/-- To select one node is to look for its id. -/
theorem isSelected_singleton {id : String} (notRoot : id ≠ "root") :
    (isSelected [id] : NodeContent Rest → Bool) = hasId id := by
  funext content
  by_cases same : content.id = id
  · simp [hasId, isSelected, same, notRoot]
  · simp [hasId, isSelected, same]

theorem removeNode_eq_some {id : String} {after : MindMapTreeNode Rest}
    (distinct : (nodeIds root).Nodup) (removed : removeNode root id = some after) :
    id ≠ "root" ∧ after = root.prune (isSelected [id]) := by
  have notRoot : id ≠ "root" := by
    rintro rfl
    simp [removeNode] at removed
  have pruned := getD_removeNode distinct notRoot
  rw [removed, Option.getD_some] at pruned
  rw [isSelected_singleton notRoot]
  exact ⟨notRoot, pruned⟩

/-- Where one node below the root is selected, its branch is what is found. -/
theorem selectedBelow_singleton {id : String} {node : MindMapTreeNode Rest}
    (distinct : (nodeIds root).Nodup) (notRoot : id ≠ "root") (notTop : root.label.id ≠ id)
    (found : root.find? (hasId id) = some node) : selectedBelow root [id] = [node] := by
  rw [nodeIds_eq, List.nodup_cons] at distinct
  rw [selectedBelow, isSelected_singleton notRoot,
    outermostAll_eq_toList (countP_hasId distinct.2 id)]
  cases root with
  | node content children =>
      have apart : hasId id content = false := beq_eq_false_iff_ne.mpr notTop
      rw [RoseTree.find?, apart, if_neg Bool.false_ne_true] at found
      rw [children_node, found, Option.toList_some]

end Selected

section Insertions

variable {root after : MindMapTreeNode Rest}

theorem nodeIdsAll_singleton (tree : MindMapTreeNode Rest) :
    nodeIdsAll [tree] = nodeIds tree := by
  rw [nodeIdsAll, labelsAll, labelsAll, List.append_nil, nodeIds]

theorem nodeIds_withChild (child target : MindMapTreeNode Rest) :
    nodeIds (withChild child target) = nodeIds target ++ nodeIds child := by
  cases target with
  | node content children =>
      simp only [withChild, nodeIds, RoseTree.labels, labelsAll_append,
        labelsAll, List.map_cons, List.map_append, List.append_nil,
        List.cons_append]

theorem nodeIdsAll_unplaced (nodes : List (MindMapTreeNode Rest)) :
    nodeIdsAll (nodes.map unplaced) = nodeIdsAll nodes := by
  induction nodes with
  | nil => rfl
  | cons node nodes ih =>
      cases node with
      | node content children =>
          simp only [nodeIdsAll, List.map_cons, unplaced, labelsAll,
            RoseTree.labels, List.map_append] at ih ⊢
          rw [ih]

theorem nodeIds_withChildren (nodes : List (MindMapTreeNode Rest)) (target : MindMapTreeNode Rest) :
    nodeIds (withChildren nodes target) = nodeIds target ++ nodeIdsAll nodes := by
  rw [← nodeIdsAll_unplaced nodes]
  cases target with
  | node content children =>
      simp only [withChildren, nodeIds, nodeIdsAll, RoseTree.labels,
        labelsAll_append, List.map_cons, List.map_append, List.cons_append]

/-- A splice that gives a node more beside or below it adds those ids. -/
theorem nodeIds_splice_perm {wanted : NodeContent Rest → Bool} {added : List String}
    {change : MindMapTreeNode Rest → List (MindMapTreeNode Rest)}
    (adds : ∀ found, wanted found.label = true → nodeIdsAll (change found) = nodeIds found ++ added)
    (spliced : root.splice wanted change = some after) :
    (nodeIds after).Perm (nodeIds root ++ added) :=
  map_labels_splice_perm (fun found isWanted => .of_eq (adds found isWanted)) spliced

/-- What an operation that inserts or edits answers with: the same root, and the ids with
those that are added. -/
structure Adds (root : MindMapTreeNode Rest) (added : List String)
    (after : MindMapTreeNode Rest) : Prop where
  rootId : after.label.id = root.label.id
  ids : (nodeIds after).Perm (nodeIds root ++ added)

theorem adds_splice {wanted : NodeContent Rest → Bool} {added : List String}
    {change : MindMapTreeNode Rest → List (MindMapTreeNode Rest)}
    (adds : ∀ found, wanted found.label = true → nodeIdsAll (change found) = nodeIds found ++ added)
    (spliced : root.splice wanted change = some after) : Adds root added after :=
  ⟨congrArg NodeContent.id (label_splice spliced), nodeIds_splice_perm adds spliced⟩

theorem adds_addChild {blank : Option Side → Rest} {id parentId : String}
    {side : Option Side} (inserted : addChild blank id root parentId side = some after) :
    Adds root [id] after := by
  by_cases isTop : root.label.id = parentId
  · simp only [addChild, if_pos isTop, Option.some.injEq] at inserted
    subst inserted
    refine ⟨?_, .of_eq (nodeIds_withChild _ root)⟩
    cases root
    rfl
  · simp only [addChild, if_neg isTop] at inserted
    refine adds_splice (fun found _ => ?_) inserted
    rw [nodeIdsAll_singleton, nodeIds_withChild]
    rfl

theorem adds_insertAfter {nodeId : String} {node : MindMapTreeNode Rest}
    (inserted : insertAfter root nodeId node = some after) :
    Adds root (nodeIds node) after := by
  unfold insertAfter at inserted
  split_ifs at inserted
  refine adds_splice (fun found _ => ?_) inserted
  rw [nodeIdsAll, labelsAll, labelsAll, labelsAll, List.append_nil, List.map_append]
  rfl

theorem adds_appendChildren {parentId : String} {nodes : List (MindMapTreeNode Rest)}
    (appended : appendChildren root parentId nodes = some after) :
    Adds root (nodeIdsAll nodes) after := by
  unfold appendChildren at appended
  split_ifs at appended
  · cases appended
    refine ⟨?_, .of_eq (nodeIds_withChildren nodes root)⟩
    cases root
    rfl
  · refine adds_splice (fun found _ => ?_) appended
    rw [nodeIdsAll_singleton, nodeIds_withChildren]

/-- An edit of fields adds nothing. -/
theorem adds_editNode {nodeId : String} {change : FieldEdit Rest}
    (edited : editNode root nodeId change = some after) : Adds root [] after := by
  obtain ⟨found, here, edited⟩ := Option.bind_eq_some_iff.mp edited
  obtain ⟨content, written, edited⟩ := Option.bind_eq_some_iff.mp edited
  have wanted : found.label.id = nodeId := beq_iff_eq.mp (wanted_of_find? here)
  have kept : content.id = nodeId := (change.keepsId _ _ written).trans wanted
  have same : ∀ node : MindMapTreeNode Rest, node.label.id = nodeId →
      nodeIds (.node content node.children) = nodeIds node := by
    intro node own
    rw [nodeIds_eq, nodeIds_eq, label_node, kept, own, children_node]
  split_ifs at edited with isTop
  · cases edited
    refine ⟨kept.trans isTop.symm, ?_⟩
    rw [same root isTop, List.append_nil]
  · refine adds_splice (fun node isWanted => ?_) edited
    rw [nodeIdsAll_singleton, same node (beq_iff_eq.mp isWanted), List.append_nil]

theorem nodeIds_clearBranchCustomPositions (node : MindMapTreeNode Rest) :
    nodeIds (clearBranchCustomPositions node) = nodeIds node := by
  rw [nodeIds, clearBranchCustomPositions, labels_map, List.map_map]
  rfl

theorem adds_resetPositions {nodeId : Option String}
    (reset : resetPositions root nodeId = some after) : Adds root [] after := by
  have whole : Adds root [] (clearBranchCustomPositions root) := by
    refine ⟨?_, ?_⟩
    · cases root
      rfl
    · rw [nodeIds_clearBranchCustomPositions, List.append_nil]
  unfold resetPositions at reset
  split at reset
  · cases reset
    exact whole
  · split_ifs at reset
    · cases reset
      exact whole
    · refine adds_splice (fun found _ => ?_) reset
      rw [nodeIdsAll_singleton, nodeIds_clearBranchCustomPositions, List.append_nil]

/-- Two siblings that change places are the same siblings. -/
theorem perm_swapSibling {direction : Direction} {passed rest changed : List (MindMapTreeNode Rest)}
    {node : MindMapTreeNode Rest}
    (swapped : swapSibling direction passed node rest = some changed) :
    changed.Perm (passed ++ node :: rest) := by
  unfold swapSibling at swapped
  split at swapped
  case h_1 above before reversed =>
    cases swapped
    have split : passed = before.reverse ++ [above] := by
      rw [← List.reverse_cons, ← reversed, List.reverse_reverse]
    rw [split, List.append_assoc, List.singleton_append]
    exact (List.Perm.swap _ _ _).append_left _
  case h_2 =>
    cases swapped
    exact (List.Perm.swap _ _ _).append_left _
  all_goals cases swapped

theorem adds_moveSibling {nodeId : String} {direction : Direction}
    (moved : moveSibling root nodeId direction = some after) : Adds root [] after := by
  unfold moveSibling at moved
  split_ifs at moved
  have rearranged : root.rearrange (hasId nodeId) (swapSibling direction) =
      some (some after) := by
    cases found : root.rearrange (hasId nodeId) (swapSibling direction) with
    | none =>
        rw [found] at moved
        cases moved
    | some changed =>
        rw [found] at moved
        exact congrArg some moved
  obtain ⟨top, labels⟩ := labels_rearrange_perm
    (fun _ _ _ _ swapped => perm_swapSibling swapped) rearranged
  refine ⟨congrArg NodeContent.id top, ?_⟩
  rw [List.append_nil]
  exact labels.map NodeContent.id

/-- What is moved to another parent is taken out and put back. -/
theorem adds_reparentNode (distinct : (nodeIds root).Nodup) {nodeId newParentId : String}
    (moved : reparentNode root nodeId newParentId = some after) : Adds root [] after := by
  unfold reparentNode at moved
  split_ifs at moved with _ _ isTop
  split at moved
  · cases moved
  · rename_i node found
    obtain ⟨removed, taken, appended⟩ := Option.bind_eq_some_iff.mp moved
    obtain ⟨notRoot, rfl⟩ := removeNode_eq_some distinct taken
    have put := adds_appendChildren appended
    refine ⟨put.rootId.trans (congrArg NodeContent.id (label_prune root)), ?_⟩
    have together := nodeIds_prune_perm root (isSelected [nodeId])
    have branch := selectedBelow_singleton distinct notRoot isTop found
    rw [selectedBelow] at branch
    rw [branch] at together
    rw [List.append_nil]
    exact put.ids.trans together.symm

theorem adds_addSibling {blank : Option Side → Rest} {id nodeId : String}
    (inserted : addSibling blank id root nodeId = some after) : Adds root [id] after := by
  unfold addSibling at inserted
  split_ifs at inserted
  exact adds_insertAfter inserted

end Insertions

section Places

variable {root : MindMapTreeNode Rest}

theorem hasId_of_mem {nodes : List (MindMapTreeNode Rest)} {id : String}
    (present : id ∈ nodeIdsAll nodes) :
    ∃ content ∈ labelsAll nodes, hasId id content = true := by
  obtain ⟨content, listed, same⟩ := mem_nodeIdsAll.mp present
  exact ⟨content, listed, beq_iff_eq.mpr same⟩

/-- A splice at an id below the root finds it. -/
theorem isSome_splice {id : String} (change : MindMapTreeNode Rest → List (MindMapTreeNode Rest))
    (below : id ∈ nodeIdsAll root.children) :
    (root.splice (hasId id) change).isSome := by
  obtain ⟨content, listed, found⟩ := hasId_of_mem below
  cases root with
  | node label children =>
      rw [RoseTree.splice, Option.isSome_map, Option.isSome_iff_ne_none]
      intro missing
      have unwanted := spliceAll_eq_none_iff.mp missing content listed
      rw [found] at unwanted
      cases unwanted

theorem mem_children_of_ne {id : String} (present : id ∈ nodeIds root)
    (notTop : ¬ root.label.id = id) : id ∈ nodeIdsAll root.children := by
  rw [nodeIds_eq] at present
  exact (List.mem_cons.mp present).resolve_left fun same => notTop same.symm

theorem ne_top_of_mem {id : String} (distinct : (nodeIds root).Nodup)
    (below : id ∈ nodeIdsAll root.children) : ¬ root.label.id = id := by
  rw [nodeIds_eq, List.nodup_cons] at distinct
  rintro rfl
  exact distinct.1 below

theorem isSome_insertAfter {nodeId : String} {node : MindMapTreeNode Rest}
    (distinct : (nodeIds root).Nodup) (below : nodeId ∈ nodeIdsAll root.children) :
    (insertAfter root nodeId node).isSome := by
  rw [insertAfter, if_neg (ne_top_of_mem distinct below)]
  exact isSome_splice _ below

theorem isSome_addSibling {blank : Option Side → Rest} {id nodeId : String}
    (notRoot : nodeId ≠ "root") (distinct : (nodeIds root).Nodup)
    (below : nodeId ∈ nodeIdsAll root.children) :
    (addSibling blank id root nodeId).isSome := by
  rw [addSibling, if_neg notRoot]
  exact isSome_insertAfter distinct below

theorem isSome_addChild (blank : Option Side → Rest) {id parentId : String}
    {side : Option Side} (present : parentId ∈ nodeIds root) :
    (addChild blank id root parentId side).isSome := by
  by_cases isTop : root.label.id = parentId
  · simp only [addChild, if_pos isTop, Option.isSome_some]
  · simp only [addChild, if_neg isTop]
    exact isSome_splice _ (mem_children_of_ne present isTop)

theorem isSome_appendChildren {parentId : String} {nodes : List (MindMapTreeNode Rest)}
    (nonempty : nodes ≠ []) (present : parentId ∈ nodeIds root) :
    (appendChildren root parentId nodes).isSome := by
  rw [appendChildren, if_neg (by simpa using nonempty)]
  split_ifs with isTop
  · rfl
  · exact isSome_splice _ (mem_children_of_ne present isTop)

/-- An insertion applies wherever its place is in the tree. -/
theorem isSome_of_placed {blank : Option Side → Rest} {event : TreeEdit Rest}
    (distinct : (nodeIds root).Nodup) (placed : event.Placed root) :
    (event.result blank root).isSome := by
  cases event with
  | addChild parentId side id => exact isSome_addChild blank placed
  | addSibling nodeId id =>
      obtain ⟨notRoot, below⟩ := placed
      exact isSome_addSibling notRoot distinct below
  | insertAfter nodeId node => exact isSome_insertAfter distinct placed
  | appendChildren parentId nodes => exact isSome_appendChildren placed.1 placed.2
  | _ => cases placed

end Places

section Removals

variable {root after : MindMapTreeNode Rest}

theorem selectedBelow_eq_nil {ids : List String}
    (unwanted : ∀ content ∈ labelsAll root.children, isSelected ids content = false) :
    nodeIdsAll (selectedBelow root ids) = [] := by
  rw [selectedBelow, outermostAll_eq_nil unwanted]
  rfl

/-- Where a removal does not apply, there is nothing to take. -/
theorem selectedBelow_of_removeNode {id : String} (distinct : (nodeIds root).Nodup)
    (missing : removeNode root id = none) : nodeIdsAll (selectedBelow root [id]) = [] := by
  refine selectedBelow_eq_nil fun content present => ?_
  by_contra selected
  have isWanted : content.id = id ∧ content.id ≠ "root" := by
    simpa [isSelected] using selected
  obtain ⟨rfl, notRoot⟩ := isWanted
  have below : content.id ∈ nodeIdsAll root.children := List.mem_map_of_mem present
  have here := isSome_splice (fun _ => []) below
  unfold removeNode at missing
  rw [if_neg (not_or.mpr ⟨notRoot, ne_top_of_mem distinct below⟩)] at missing
  rw [missing] at here
  cases here

theorem selectedBelow_of_removeNodes {ids : List String}
    (missing : removeNodes root ids = none) : nodeIdsAll (selectedBelow root ids) = [] := by
  have rootOnly : ∀ id ∈ ids, id = "root" := by
    simpa [removeNodes] using missing
  refine selectedBelow_eq_nil fun content _ => ?_
  by_contra selected
  have isWanted : content.id ∈ ids ∧ content.id ≠ "root" := by
    simpa [isSelected] using selected
  exact isWanted.2 (rootOnly _ isWanted.1)

/-- What is left by a removal, and what is taken. -/
theorem removes_prune {ids : List String} (pruned : after = root.prune (isSelected ids)) :
    after.label.id = root.label.id ∧
      (nodeIds root).Perm (nodeIds after ++ nodeIdsAll (selectedBelow root ids)) := by
  subst pruned
  exact ⟨congrArg NodeContent.id (label_prune root), nodeIds_prune_perm root _⟩

end Removals

section Steps

variable {blank : Option Side → Rest} {root : MindMapTreeNode Rest} {event : TreeEdit Rest}

/-- Every operation but a removal, where it applies, adds what it is said to add. -/
theorem adds_result {after : MindMapTreeNode Rest} (distinct : (nodeIds root).Nodup)
    (applied : event.result blank root = some after) :
    (event.removed root = [] ∧ Adds root event.added after) ∨
      (event.added = [] ∧ ∃ ids, event.removed root = nodeIdsAll (selectedBelow root ids) ∧
        after = root.prune (isSelected ids)) := by
  cases event with
  | addChild parentId side id => exact .inl ⟨rfl, adds_addChild applied⟩
  | addSibling nodeId id => exact .inl ⟨rfl, adds_addSibling applied⟩
  | insertAfter nodeId node => exact .inl ⟨rfl, adds_insertAfter applied⟩
  | appendChildren parentId nodes => exact .inl ⟨rfl, adds_appendChildren applied⟩
  | removeNode nodeId =>
      exact .inr ⟨rfl, [nodeId], rfl, (removeNode_eq_some distinct applied).2⟩
  | removeNodes nodeIds => exact .inr ⟨rfl, nodeIds, rfl, removeNodes_eq_some distinct applied⟩
  | moveSibling nodeId direction => exact .inl ⟨rfl, adds_moveSibling applied⟩
  | reparentNode nodeId newParentId => exact .inl ⟨rfl, adds_reparentNode distinct applied⟩
  | editNode nodeId change => exact .inl ⟨rfl, adds_editNode applied⟩
  | resetPositions nodeId => exact .inl ⟨rfl, adds_resetPositions applied⟩

/-- An operation that does not apply had nothing to take away. -/
theorem removed_of_none (distinct : (nodeIds root).Nodup)
    (missing : event.result blank root = none) : event.removed root = [] := by
  cases event with
  | removeNode nodeId => exact selectedBelow_of_removeNode distinct missing
  | removeNodes nodeIds => exact selectedBelow_of_removeNodes missing
  | _ => rfl

/-- Where an operation applies, it keeps the root and changes the ids as it says. -/
theorem changes_result {after : MindMapTreeNode Rest} (distinct : (nodeIds root).Nodup)
    (applied : event.result blank root = some after) :
    after.label.id = root.label.id ∧
      (nodeIds root ++ event.added).Perm (nodeIds after ++ event.removed root) := by
  rcases adds_result distinct applied with ⟨kept, adds⟩ | ⟨nothing, ids, taken, pruned⟩
  · rw [kept, List.append_nil]
    exact ⟨adds.rootId, adds.ids.symm⟩
  · rw [nothing, taken, List.append_nil]
    exact removes_prune pruned

/-- The ids that are taken away are those of the branches of the selected nodes. -/
theorem mem_removed (id : String) :
    id ∈ event.removed root ↔ ∃ branch ∈ subtreesAll root.children,
      event.Names branch.label.id ∧ branch.label.id ≠ "root" ∧ id ∈ nodeIds branch := by
  cases event with
  | removeNode nodeId =>
      refine mem_selectedBelow.trans ?_
      simp only [List.mem_singleton, TreeEdit.Names]
  | removeNodes nodeIds => exact mem_selectedBelow
  | _ => simp [TreeEdit.removed, TreeEdit.Names]

/-- What one operation does to the ids. -/
theorem exact_step {after : MindMapTreeNode Rest} (distinct : (nodeIds root).Nodup)
    (taken : treeEdits blank root event = some after) : event.Exact blank root after := by
  obtain ⟨fresh, rfl⟩ : event.Fresh root ∧ (event.result blank root).getD root = after := by
    simpa [treeEdits] using taken
  cases result : event.result blank root with
  | none =>
      refine ⟨rfl, distinct, ?_, isSome_of_placed distinct, mem_removed⟩
      rw [result]
      exact ⟨rfl, removed_of_none distinct result⟩
  | some changed =>
      obtain ⟨rootId, changes⟩ := changes_result distinct result
      have both : (nodeIds root ++ event.added).Nodup := by
        refine List.nodup_append'.mpr ⟨distinct, fresh.1, fun id present added => ?_⟩
        exact fresh.2 id added present
      refine ⟨rootId, (changes.nodup_iff.mp both).of_append_left, ?_,
        isSome_of_placed distinct, mem_removed⟩
      rw [result]
      exact changes

/-- In every sequence of operations on a tree whose ids are distinct, with ids of their own
for what is inserted, each operation loses and duplicates nothing. -/
theorem exact_of_distinct (distinct : (nodeIds root).Nodup) (events : List (TreeEdit Rest)) :
    EveryStep (treeEdits blank) (TreeEdit.Exact blank · · ·) root events := by
  let invariant (tree : MindMapTreeNode Rest) : Prop := (nodeIds tree).Nodup
  have preserved : ∀ tree event next, invariant tree →
      treeEdits blank tree event = some next → invariant next :=
    fun _ _ _ distinct taken => (exact_step distinct taken).distinct
  exact everyStep_of_invariant preserved (fun _ _ _ distinct taken => exact_step distinct taken)
    distinct events

/-- A map of three nodes. -/
def smallTree : MindMapTreeNode Unit :=
  let leaf (id : String) : NodeContent Unit :=
    { id := id
      text := id
      rest := ()
      collapsed := false
      customX := none
      customY := none
      imageAttachmentId := none
      attachments := [] }
  .node (leaf "root") [.node (leaf "a") [.node (leaf "b") []]]

/-- A node with a child goes into its own place, and the branch above it is removed. -/
theorem exact_of_distinct_smallTree :
    (nodeIds smallTree).Nodup ∧
      EveryStep (treeEdits fun _ => ()) (TreeEdit.Exact (fun _ => ()) · · ·) smallTree
        [.addChild "b" none "c", .reparentNode "a" "c", .reparentNode "b" "root",
          .removeNodes ["a", "root"]] :=
  ⟨by decide, exact_of_distinct (by decide) _⟩

end Steps

end Maps
end MindMapVault
