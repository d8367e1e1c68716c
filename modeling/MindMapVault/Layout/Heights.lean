import MindMapVault.Layout.LayoutTree
import Mathlib.Algebra.BigOperators.Group.List.Basic

/-!
# The heights that are found

The first pass writes the height of each visible subtree under the id of its root, and
nothing else.
-/

namespace MindMapVault
namespace Layout

mutual

/-- The visible subtrees: those with no collapsed node above them. -/
def shown : LayoutTree → List LayoutTree
  | .node label children =>
      .node label children :: if label.collapsed then [] else shownAll children

/-- The visible subtrees of several trees. -/
def shownAll : List LayoutTree → List LayoutTree
  | [] => []
  | child :: children => shown child ++ shownAll children

end

/-- The visible nodes. -/
def visible (tree : LayoutTree) : List LayoutNode := (shown tree).map RoseTree.label

/-- The id of the root of a tree. -/
def rootId (tree : LayoutTree) : String := tree.label.id

theorem shownAll_eq_flatMap (trees : List LayoutTree) : shownAll trees = trees.flatMap shown := by
  induction trees with
  | nil => rfl
  | cons tree trees ih =>
      rw [shownAll, List.flatMap_cons, ih]

/-- What is shown of a tree with nothing below it, or with its children. -/
theorem shown_eq (label : LayoutNode) (children : List LayoutTree) :
    shown (.node label children) =
      .node label children :: if folded label children then [] else shownAll children := by
  rw [shown]
  cases children with
  | nil => simp [shownAll]
  | cons child children => simp [folded]

theorem self_mem_shown (tree : LayoutTree) : tree ∈ shown tree := by
  cases tree
  rw [shown]
  exact List.mem_cons_self

/-- Heights with a gap before each of them. -/
def loose (heights : List Rat) : Rat := (heights.map (vGap + ·)).sum

/-- Heights with a gap between them. -/
def stacked : List Rat → Rat
  | [] => 0
  | height :: heights => height + loose heights

theorem loose_cons (height : Rat) (heights : List Rat) :
    loose (height :: heights) = vGap + height + loose heights := by
  rw [loose, List.map_cons, List.sum_cons, loose]

section Heights

variable (measure : Measure)

mutual

/-- The height of a subtree. -/
def height : LayoutTree → Rat
  | .node label children =>
      if folded label children then visualH measure label
      else max (visualH measure label) (stacked (heightsOf children))

/-- The heights of several subtrees. -/
def heightsOf : List LayoutTree → List Rat
  | [] => []
  | child :: children => height child :: heightsOf children

end

theorem heightsOf_eq_map (trees : List LayoutTree) :
    heightsOf measure trees = trees.map (height measure) := by
  induction trees with
  | nil => rfl
  | cons tree trees ih =>
      rw [heightsOf, List.map_cons, ih]

/-- The record has the entry of each visible subtree, whatever its place. -/
def Knows (pos : Positions) (trees : List LayoutTree) : Prop :=
  ∀ tree ∈ trees, ∃ place, pos.get (rootId tree) =
    some { entry measure tree.label (height measure tree) with place := place }

/-- What the first pass does with a tree. -/
structure Measures (tree : LayoutTree) : Prop where
  height : ∀ pos, (computeHeight measure pos tree).2 = Layout.height measure tree
  others : ∀ pos id, id ∉ (shown tree).map rootId →
    (computeHeight measure pos tree).1.get id = pos.get id
  own : ((shown tree).map rootId).Nodup → ∀ pos, ∀ part ∈ shown tree,
    (computeHeight measure pos tree).1.get (rootId part) =
      some (entry measure part.label (Layout.height measure part))

/-- What the first pass does with the children of a node. -/
structure MeasuresAll (trees : List LayoutTree) : Prop where
  height : ∀ pos childrenH first, (computeHeights measure pos childrenH first trees).2 =
    childrenH + if first then stacked (heightsOf measure trees) else loose (heightsOf measure trees)
  others : ∀ pos childrenH first id, id ∉ (shownAll trees).map rootId →
    (computeHeights measure pos childrenH first trees).1.get id = pos.get id
  own : ((shownAll trees).map rootId).Nodup → ∀ pos childrenH first, ∀ part ∈ shownAll trees,
    (computeHeights measure pos childrenH first trees).1.get (rootId part) =
      some (entry measure part.label (Layout.height measure part))

variable {measure}

theorem measuresAll_cons {tree : LayoutTree} {trees : List LayoutTree}
    (first : Measures measure tree) (rest : MeasuresAll measure trees) :
    MeasuresAll measure (tree :: trees) := by
  refine ⟨?_, ?_, ?_⟩
  · intro pos childrenH isFirst
    rw [computeHeights, rest.height, first.height, heightsOf]
    cases isFirst with
    | true =>
        simp only [if_true, Bool.false_eq_true, if_false, stacked]
        ring
    | false =>
        simp only [Bool.false_eq_true, if_false, loose_cons]
        ring
  · intro pos childrenH isFirst id absent
    rw [shownAll, List.map_append, List.mem_append, not_or] at absent
    rw [computeHeights, rest.others _ _ _ _ absent.2, first.others _ _ absent.1]
  · intro distinct pos childrenH isFirst part listed
    rw [shownAll, List.map_append, List.nodup_append'] at distinct
    obtain ⟨here, later, apart⟩ := distinct
    rw [shownAll] at listed
    rw [computeHeights]
    rcases List.mem_append.mp listed with inFirst | inRest
    · have absent : rootId part ∉ (shownAll trees).map rootId :=
        apart (List.mem_map_of_mem inFirst)
      rw [rest.others _ _ _ _ absent, first.own here _ _ inFirst]
    · exact rest.own later _ _ _ _ inRest

theorem measuresAll_of_mem : ∀ {trees : List LayoutTree},
    (∀ tree ∈ trees, Measures measure tree) → MeasuresAll measure trees
  | [], _ => by
      refine ⟨fun pos childrenH isFirst => ?_, fun _ _ _ _ _ => rfl,
        fun _ _ _ _ _ listed => absurd listed List.not_mem_nil⟩
      cases isFirst <;> simp [computeHeights, heightsOf, stacked, loose]
  | tree :: trees, each => by
      have both := List.forall_mem_cons.mp each
      exact measuresAll_cons both.1 (measuresAll_of_mem both.2)

/-- The first pass on a node with nothing below it. -/
theorem computeHeight_folded {label : LayoutNode} {children : List LayoutTree}
    (isFolded : folded label children = true) (pos : Positions) :
    computeHeight measure pos (.node label children) =
      (pos.set label.id (entry measure label (visualH measure label)), visualH measure label) := by
  rw [computeHeight, if_pos isFolded]

/-- The first pass on a node with its children. -/
theorem computeHeight_open {label : LayoutNode} {children : List LayoutTree}
    (isOpen : folded label children = false) (below : MeasuresAll measure children)
    (pos : Positions) :
    computeHeight measure pos (.node label children) =
      ((computeHeights measure pos 0 true children).1.set label.id
          (entry measure label (height measure (.node label children))),
        height measure (.node label children)) := by
  simp only [computeHeight, isOpen, Bool.false_eq_true, if_false, below.height, if_true,
    zero_add, height]

theorem height_folded {label : LayoutNode} {children : List LayoutTree}
    (isFolded : folded label children = true) :
    height measure (.node label children) = visualH measure label := by
  rw [height, if_pos isFolded]

/-- The first pass finds the height of every tree. -/
theorem measures (tree : LayoutTree) : Measures measure tree := by
  refine RoseTree.forall_of_children (fun label children each => ?_) tree
  have below := measuresAll_of_mem each
  have top : rootId (.node label children) = label.id := rfl
  cases isFolded : folded label children with
  | true =>
      refine ⟨fun pos => ?_, fun pos id absent => ?_, fun distinct pos part listed => ?_⟩
      · rw [computeHeight_folded isFolded, height_folded isFolded]
      · rw [shown_eq, isFolded, if_pos rfl, List.map_singleton, List.mem_singleton, top] at absent
        rw [computeHeight_folded isFolded]
        exact pos.get_set_of_ne absent _
      · rw [shown_eq, isFolded, if_pos rfl, List.mem_singleton] at listed
        rw [listed, computeHeight_folded isFolded, height_folded isFolded]
        exact pos.get_set_self _ _
  | false =>
      have parts : shown (.node label children) =
          .node label children :: shownAll children := by
        rw [shown_eq, isFolded, if_neg Bool.false_ne_true]
      refine ⟨fun pos => ?_, fun pos id absent => ?_, fun distinct pos part listed => ?_⟩
      · rw [computeHeight_open isFolded below]
      · rw [parts, List.map_cons, List.mem_cons, not_or, top] at absent
        rw [computeHeight_open isFolded below]
        simp only
        rw [Positions.get_set_of_ne _ absent.1, below.others _ _ _ _ absent.2]
      · rw [parts, List.map_cons, List.nodup_cons, top] at distinct
        rw [computeHeight_open isFolded below]
        rw [parts] at listed
        rcases List.mem_cons.mp listed with rfl | later
        · exact Positions.get_set_self _ _ _
        · have other : rootId part ≠ label.id := by
            rintro same
            exact distinct.1 (same ▸ List.mem_map_of_mem later)
          simp only
          rw [Positions.get_set_of_ne _ other, below.own distinct.2 _ _ _ _ later]

/-- After the first pass, every visible subtree is known, and nothing else is. -/
theorem knows_computeHeight {root : LayoutTree} (distinct : ((shown root).map rootId).Nodup)
    (pos : Positions) : Knows measure (computeHeight measure pos root).1 (shown root) :=
  fun part listed => ⟨none, (measures root).own distinct pos part listed⟩

end Heights

end Layout
end MindMapVault
