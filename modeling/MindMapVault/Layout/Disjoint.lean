import MindMapVault.Layout.Placed

/-!
# No two boxes touch

A subtree is drawn inside the height it was given, and on its side of its parent. So the
boxes of any two visible nodes are apart, with what stands above them.
-/

namespace MindMapVault
namespace Layout

/-- A rectangle of the canvas. -/
structure Box where
  left : Rat
  right : Rat
  top : Rat
  bottom : Rat

namespace Box

def Covers (box : Box) (x y : Rat) : Prop :=
  box.left ≤ x ∧ x ≤ box.right ∧ box.top ≤ y ∧ y ≤ box.bottom

/-- Two boxes share no point. -/
def Apart (first second : Box) : Prop := ∀ x y, ¬ (first.Covers x y ∧ second.Covers x y)

theorem Apart.symm {first second : Box} (apart : first.Apart second) : second.Apart first :=
  fun x y both => apart x y ⟨both.2, both.1⟩

theorem apart_of_beside {first second : Box} (beside : first.right < second.left) :
    first.Apart second := by
  rintro x y ⟨⟨-, before, -, -⟩, ⟨behind, -, -, -⟩⟩
  linarith

theorem apart_of_above {first second : Box} (above : first.bottom < second.top) :
    first.Apart second := by
  rintro x y ⟨⟨-, -, -, before⟩, ⟨-, -, behind, -⟩⟩
  linarith

end Box

/-- What is drawn of a node at its place: its box, and what stands above it. -/
def drawn (measured : Measured) (place : Place) : Box where
  left := place.x
  right := place.x + measured.w
  top := place.y - measured.visualTopExtra
  bottom := place.y + measured.h

/-- No node has a negative size. -/
structure Sized (measure : Measure) : Prop where
  w : ∀ label, 0 ≤ (measure label).w
  h : ∀ label, 0 ≤ visualH measure label

section Fits

variable {measure : Measure}

/-- The box of a visible subtree's root. -/
def boxOf (measure : Measure) (part : LayoutTree × Place) : Box :=
  drawn (measure part.1.label) part.2

/-- Within a height, and on one side of a vertical line. -/
structure Inside (box : Box) (direction : Side) (line top bottom : Rat) : Prop where
  side : match direction with
    | .right => line ≤ box.left
    | .left => box.right ≤ line
  top : top ≤ box.top
  bottom : box.bottom ≤ bottom

theorem Inside.weaken {box : Box} {direction : Side} {line line' top top' bottom bottom' : Rat}
    (inside : Inside box direction line top bottom)
    (further : match direction with
      | .right => line' ≤ line
      | .left => line ≤ line')
    (above : top' ≤ top) (below : bottom ≤ bottom') :
    Inside box direction line' top' bottom' := by
  refine ⟨?_, above.trans inside.top, inside.bottom.trans below⟩
  cases direction with
  | right => exact le_trans further inside.side
  | left => exact le_trans inside.side further

/-- Where the nearer edge of a node is. -/
def nearEdge (direction : Side) (x w : Rat) : Rat :=
  match direction with
  | .right => x
  | .left => x + w

/-- Where the boxes of the children begin. -/
def farLine (direction : Side) (x w : Rat) : Rat :=
  match direction with
  | .right => x + w + hGap
  | .left => x - hGap

theorem nearEdge_childX (direction : Side) (x parentW childW : Rat) :
    nearEdge direction (childX direction x parentW childW) childW =
      farLine direction x parentW := by
  cases direction with
  | right => rfl
  | left =>
      simp only [nearEdge, childX, farLine]
      ring

theorem height_nonneg (sized : Sized measure) (tree : LayoutTree) : 0 ≤ height measure tree := by
  cases tree with
  | node label children =>
      rw [height]
      split_ifs
      · exact sized.h label
      · exact le_max_of_le_left (sized.h label)

theorem visualH_le_height (label : LayoutNode) (children : List LayoutTree) :
    visualH measure label ≤ height measure (.node label children) := by
  rw [height]
  split_ifs
  · exact le_refl _
  · exact le_max_left _ _

theorem totalH_le_height {label : LayoutNode} {children : List LayoutTree}
    (isOpen : folded label children = false) :
    totalH measure children ≤ height measure (.node label children) := by
  rw [height, isOpen, if_neg Bool.false_ne_true, heightsOf_eq_map]
  exact le_max_right _ _

theorem loose_nonneg (sized : Sized measure) (children : List LayoutTree) :
    0 ≤ loose (children.map (height measure)) := by
  refine List.sum_nonneg fun gap listed => ?_
  obtain ⟨tall, inHeights, rfl⟩ := List.mem_map.mp listed
  obtain ⟨child, -, rfl⟩ := List.mem_map.mp inHeights
  have nonneg := height_nonneg sized child
  unfold vGap
  linarith

/-- A node that was not dragged is drawn in the middle of its height. -/
theorem drawn_centred {label : LayoutNode} (natural : label.customX = none ∨ label.customY = none)
    (x yCenter : Rat) (direction : Side) :
    drawn (measure label) (centred measure label x yCenter direction) =
      ⟨x, x + (measure label).w, yCenter - visualH measure label / 2,
        yCenter + visualH measure label / 2⟩ := by
  have place : centred measure label x yCenter direction =
      ⟨x, yCenter - visualH measure label / 2 + (measure label).visualTopExtra, direction⟩ := by
    unfold centred placeOf
    split
    case h_1 _ _ customX customY hasX hasY =>
      rcases natural with free | free
      · rw [free] at hasX
        cases hasX
      · rw [free] at hasY
        cases hasY
    case h_2 => rfl
  rw [place, drawn]
  simp only [Box.mk.injEq, true_and]
  constructor
  · ring
  · unfold visualH
    ring

/-- Nodes below the root, none of them dragged. -/
structure Natural (parts : List LayoutTree) : Prop where
  below : ∀ part ∈ parts, rootId part ≠ "root"
  free : ∀ part ∈ parts, part.label.customX = none ∨ part.label.customY = none

theorem Natural.of_subset {parts fewer : List LayoutTree} (natural : Natural parts)
    (inside : ∀ part ∈ fewer, part ∈ parts) : Natural fewer :=
  ⟨fun part listed => natural.below part (inside part listed),
    fun part listed => natural.free part (inside part listed)⟩

/-- A tree below the root is drawn inside its height, and no two boxes touch. -/
def Fits (measure : Measure) (tree : LayoutTree) : Prop :=
  ∀ x yCenter direction, Natural (shown tree) →
    (∀ part ∈ placed measure tree x yCenter direction,
      Inside (boxOf measure part) direction (nearEdge direction x (measure tree.label).w)
        (yCenter - height measure tree / 2) (yCenter + height measure tree / 2)) ∧
    ((placed measure tree x yCenter direction).map (boxOf measure)).Pairwise Box.Apart

/-- Two lists of boxes of which every two are apart. -/
theorem pairwise_append {first second : List Box} (former : first.Pairwise Box.Apart)
    (latter : second.Pairwise Box.Apart)
    (apart : ∀ box ∈ first, ∀ other ∈ second, box.Apart other) :
    (first ++ second).Pairwise Box.Apart :=
  List.pairwise_append.mpr ⟨former, latter, apart⟩

theorem totalH_cons (child : LayoutTree) (children : List LayoutTree) :
    totalH measure (child :: children) =
      height measure child + loose (children.map (height measure)) := rfl

/-- With a gap before the first of some children as well. -/
theorem loose_of_ne_nil {children : List LayoutTree} (nonempty : children ≠ []) :
    loose (children.map (height measure)) = vGap + totalH measure children := by
  cases children with
  | nil => exact absurd rfl nonempty
  | cons child children =>
      rw [List.map_cons, loose_cons, totalH_cons]
      ring

/-- Children one below the other are drawn inside their heights, and no two boxes touch. -/
theorem fits_placedAll (sized : Sized measure) {group : List LayoutTree}
    (each : ∀ child ∈ group, Fits measure child) (natural : Natural (shownAll group))
    (x parentW : Rat) (direction : Side) (cy : Rat) :
    (∀ part ∈ placedAll measure group x parentW direction cy,
      Inside (boxOf measure part) direction (farLine direction x parentW) cy
        (cy + totalH measure group)) ∧
    ((placedAll measure group x parentW direction cy).map (boxOf measure)).Pairwise Box.Apart := by
  induction group generalizing cy with
  | nil => exact ⟨List.forall_mem_nil _, List.Pairwise.nil⟩
  | cons child group ih =>
      have both := List.forall_mem_cons.mp each
      rw [shownAll] at natural
      have here := natural.of_subset fun part => List.mem_append_left (shownAll group)
      have later := natural.of_subset fun part => List.mem_append_right (shown child)
      obtain ⟨childInside, childApart⟩ := both.1
        (childX direction x parentW (measure child.label).w) (cy + height measure child / 2)
        direction here
      obtain ⟨restInside, restApart⟩ := ih both.2 later (cy + height measure child + vGap)
      have tall := height_nonneg sized child
      have gap : (0 : Rat) < vGap := by
        unfold vGap
        norm_num
      rw [nearEdge_childX] at childInside
      rw [placedAll_cons, totalH_cons]
      constructor
      · intro part listed
        rcases List.mem_append.mp listed with inChild | inRest
        · have below := loose_nonneg sized group
          refine (childInside part inChild).weaken ?_ (by linarith) (by linarith)
          cases direction <;> exact le_refl _
        · have nonempty : group ≠ [] := by
            rintro rfl
            exact absurd inRest List.not_mem_nil
          rw [loose_of_ne_nil nonempty]
          refine (restInside part inRest).weaken ?_ (by linarith) (by linarith)
          cases direction <;> exact le_refl _
      · rw [List.map_append]
        refine pairwise_append childApart restApart fun box inFirst other inRest => ?_
        obtain ⟨part, inChild, rfl⟩ := List.mem_map.mp inFirst
        obtain ⟨later, inLater, rfl⟩ := List.mem_map.mp inRest
        have above := (childInside part inChild).bottom
        have below := (restInside later inLater).top
        exact Box.apart_of_above (by linarith)

/-- A node and what is drawn on one side of it, beyond the gap. -/
theorem apart_of_inside {label : LayoutNode}
    (natural : label.customX = none ∨ label.customY = none) {x yCenter top bottom : Rat}
    {direction drawnTo : Side} {box : Box}
    (inside : Inside box direction (farLine direction x (measure label).w) top bottom) :
    (drawn (measure label) (centred measure label x yCenter drawnTo)).Apart box := by
  have gap : (0 : Rat) < hGap := by
    unfold hGap
    norm_num
  rw [drawn_centred natural]
  cases direction with
  | right =>
      have side : x + (measure label).w + hGap ≤ box.left := inside.side
      exact Box.apart_of_beside (by simp only; linarith)
  | left =>
      have side : box.right ≤ x - hGap := inside.side
      exact (Box.apart_of_beside (by simp only; linarith)).symm

/-- A line beyond the gap is beyond the nearer edge. -/
theorem further_farLine (sized : Sized measure) (label : LayoutNode) (direction : Side) (x : Rat) :
    match direction with
    | .right => nearEdge .right x (measure label).w ≤ farLine .right x (measure label).w
    | .left => farLine .left x (measure label).w ≤ nearEdge .left x (measure label).w := by
  have wide := sized.w label
  cases direction with
  | right =>
      simp only [nearEdge, farLine, hGap]
      linarith
  | left =>
      simp only [nearEdge, farLine, hGap]
      linarith

/-- Every tree below the root fits. -/
theorem fits (sized : Sized measure) (tree : LayoutTree) : Fits measure tree := by
  refine RoseTree.forall_of_children (fun label children each => ?_) tree
  intro x yCenter direction natural
  have notRoot : label.id ≠ "root" := natural.below _ (self_mem_shown _)
  have free : label.customX = none ∨ label.customY = none := natural.free _ (self_mem_shown _)
  have own : visualH measure label ≤ height measure (.node label children) :=
    visualH_le_height label children
  have ownBox : boxOf measure (.node label children, centred measure label x yCenter direction) =
      ⟨x, x + (measure label).w, yCenter - visualH measure label / 2,
        yCenter + visualH measure label / 2⟩ := drawn_centred free x yCenter direction
  have ownInside : Inside
      (boxOf measure (.node label children, centred measure label x yCenter direction)) direction
      (nearEdge direction x (measure label).w)
      (yCenter - height measure (.node label children) / 2)
      (yCenter + height measure (.node label children) / 2) := by
    rw [ownBox]
    refine ⟨?_, by simp only; linarith, by simp only; linarith⟩
    cases direction <;> exact le_refl _
  rw [placed_eq, RoseTree.label_node]
  rw [shown_eq] at natural
  cases isFolded : folded label children with
  | true =>
      refine ⟨fun part listed => ?_, List.pairwise_singleton _ _⟩
      rw [List.mem_singleton.mp listed]
      exact ownInside
  | false =>
      simp only [isFolded, Bool.false_eq_true, if_false, if_neg notRoot] at natural ⊢
      have below := natural.of_subset fun part => List.mem_cons_of_mem _
      have group : totalH measure children ≤ height measure (.node label children) :=
        totalH_le_height isFolded
      obtain ⟨inside, apart⟩ := fits_placedAll sized each below x (measure label).w direction
        (yCenter - totalH measure children / 2)
      constructor
      · intro part listed
        rcases List.mem_cons.mp listed with rfl | inGroup
        · exact ownInside
        · refine (inside part inGroup).weaken ?_ (by linarith) (by linarith)
          have further := further_farLine sized label direction x
          cases direction <;> exact further
      · rw [List.map_cons, List.pairwise_cons]
        refine ⟨fun box listed => ?_, apart⟩
        obtain ⟨part, inGroup, rfl⟩ := List.mem_map.mp listed
        exact apart_of_inside free (inside part inGroup)

/-- What is drawn to the left of a node is apart from what is drawn to its right. -/
theorem apart_of_sides (sized : Sized measure) (label : LayoutNode)
    {x top bottom top' bottom' : Rat} {first second : Box}
    (right : Inside first .right (farLine .right x (measure label).w) top bottom)
    (left : Inside second .left (farLine .left x (measure label).w) top' bottom') :
    first.Apart second := by
  have wide := sized.w label
  have rightSide : x + (measure label).w + hGap ≤ first.left := right.side
  have leftSide : second.right ≤ x - hGap := left.side
  unfold hGap at rightSide leftSide
  exact (Box.apart_of_beside (by linarith)).symm

/-- No two boxes of a whole map touch. -/
theorem apart_root (sized : Sized measure) {label : LayoutNode} {children : List LayoutTree}
    (isRoot : label.id = "root") (free : label.customX = none ∨ label.customY = none)
    (natural : label.collapsed = false → Natural (shownAll children)) (x yCenter : Rat)
    (direction : Side) :
    ((placed measure (.node label children) x yCenter direction).map (boxOf measure)).Pairwise
      Box.Apart := by
  rw [placed_eq]
  cases isFolded : folded label children with
  | true => exact List.pairwise_singleton _ _
  | false =>
      simp only [Bool.false_eq_true, if_false, if_pos isRoot]
      have unfolded : label.collapsed = false := (Bool.or_eq_false_iff.mp isFolded).2
      have sides := shownAll_sides_perm children
      have rightNatural := (natural unfolded).of_subset fun part listed =>
        sides.subset (List.mem_append_left (shownAll (children.filter onLeft)) listed)
      have leftNatural := (natural unfolded).of_subset fun part listed =>
        sides.subset (List.mem_append_right (shownAll (children.filter onRight)) listed)
      obtain ⟨rightInside, rightApart⟩ := fits_placedAll sized (fun child _ => fits sized child)
        rightNatural x (measure label).w .right
        (yCenter - totalH measure (children.filter onRight) / 2)
      obtain ⟨leftInside, leftApart⟩ := fits_placedAll sized (fun child _ => fits sized child)
        leftNatural x (measure label).w .left
        (yCenter - totalH measure (children.filter onLeft) / 2)
      rw [List.map_cons, List.pairwise_cons, List.map_append]
      refine ⟨fun box listed => ?_, pairwise_append rightApart leftApart ?_⟩
      · rcases List.mem_append.mp listed with onTheRight | onTheLeft
        · obtain ⟨part, inGroup, rfl⟩ := List.mem_map.mp onTheRight
          exact apart_of_inside free (rightInside part inGroup)
        · obtain ⟨part, inGroup, rfl⟩ := List.mem_map.mp onTheLeft
          exact apart_of_inside free (leftInside part inGroup)
      · intro box onTheRight other onTheLeft
        obtain ⟨part, inRight, rfl⟩ := List.mem_map.mp onTheRight
        obtain ⟨later, inLeft, rfl⟩ := List.mem_map.mp onTheLeft
        exact apart_of_sides sized label (rightInside part inRight) (leftInside later inLeft)

end Fits

end Layout
end MindMapVault
