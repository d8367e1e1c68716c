import MindMapVault.Layout.Disjoint

/-!
# The map that is laid out

With the measuring of the canvas: no part of a node takes room away. From any tree whose
nodes have ids of their own, and of which none was dragged, the two passes place the visible
nodes and only those, and draw them apart, unless a visible node is called `'__proto__'`:
then its entry is the prototype of the record and no property of it.
-/

namespace MindMapVault
namespace Layout

open RoseTree hiding node

section Measured

theorem imageDisplaySize_nonneg (image : LayoutImage) (sizes : Option ImageSizes) :
    0 ≤ (imageDisplaySize image sizes).2 := by
  unfold imageDisplaySize
  split_ifs
  · exact image.high
  · refine round_nonneg (mul_nonneg image.high (div_nonneg (round_nonneg ?_) ?_))
    · refine le_min ?_ (le_max_of_le_left ?_)
      · unfold maxImageSize
        norm_num
      · unfold minImageSize
        norm_num
    · exact le_max_of_le_right zero_le_one

/-- The parts above and below the text of a node. -/
structure Banded (parts : NodeParts) : Prop where
  topMetaH : 0 ≤ parts.topMetaH
  topTagH : 0 ≤ parts.topTagH
  imageBandH : 0 ≤ parts.imageBandH
  footerH : 0 ≤ parts.footerH
  visualTopExtra : 0 ≤ parts.visualTopExtra

theorem banded_describeNode (node : LayoutNode) (options : DescribeOptions) :
    Banded (describeNode node options) := by
  have strip (present : Prop) [Decidable present] {tall : Rat} (nonneg : 0 ≤ tall) :
      0 ≤ if present then tall else 0 := by
    split_ifs
    · exact nonneg
    · exact le_refl 0
  refine ⟨strip _ ?_, strip _ ?_, ?_, mul_nonneg (add_nonneg (strip _ zero_le_one) ?_) ?_,
    strip _ ?_⟩
  · unfold topMetaStripH
    norm_num
  · unfold tagStripH
    norm_num
  · simp only [describeNode]
    cases node.image.filter (·.thumb != "") with
    | none => exact le_refl 0
    | some image =>
        refine add_nonneg (imageDisplaySize_nonneg image options.imageSizes) ?_
        unfold nodeImagePad
        norm_num
  · exact Nat.cast_nonneg node.urls
  · unfold linkStripH
    norm_num
  · unfold dateBadgeOffsetH
    norm_num

/-- No node has a negative size, whatever the width of its text. -/
theorem sized_measureWith (measureText : String → Nat → Rat)
    (options : LayoutNode → DescribeOptions) : Sized (measureWith measureText options) := by
  refine ⟨fun label => ?_, fun label => ?_⟩
  · refine le_max_of_le_left (le_max_of_le_left ?_)
    unfold minW
    norm_num
  · have bands := banded_describeNode label (options label)
    have body : (0 : Rat) ≤ nodeMinH := by
      unfold nodeMinH
      norm_num
    refine add_nonneg (add_nonneg (add_nonneg (add_nonneg (add_nonneg ?_ bands.topMetaH)
      bands.topTagH) bands.imageBandH) bands.footerH) bands.visualTopExtra
    exact le_max_of_le_left body

end Measured

mutual

/-- The visible nodes stand in the order of the tree. -/
theorem visible_sublist_labels : ∀ tree : LayoutTree, (visible tree).Sublist tree.labels
  | .node label children => by
      rw [visible, shown, RoseTree.labels, List.map_cons]
      refine List.Sublist.cons_cons _ ?_
      split_ifs
      · exact List.nil_sublist _
      · exact visible_sublist_labelsAll children

theorem visible_sublist_labelsAll : ∀ trees : List LayoutTree,
    ((shownAll trees).map RoseTree.label).Sublist (labelsAll trees)
  | [] => List.Sublist.slnil
  | tree :: trees => by
      rw [shownAll, labelsAll, List.map_append]
      exact (visible_sublist_labels tree).append (visible_sublist_labelsAll trees)

end

/-- A map with ids, of which no node was dragged. -/
structure Undragged (root : LayoutTree) : Prop where
  isRoot : root.label.id = "root"
  distinct : (root.labels.map LayoutNode.id).Nodup
  free : ∀ node ∈ root.labels, node.customX = none ∨ node.customY = none

/-- Where a node of the record is drawn, if it is. -/
def boxAt (pos : Positions) (id : String) : Option Box :=
  (pos.own id).bind fun entry => entry.place.map (drawn ⟨entry.w, entry.h, entry.visualTopExtra⟩)

/-- The visible nodes are placed with their sizes, nothing else is, and any two are apart. -/
structure LaidOut (measure : Measure) (root : LayoutTree) (pos : Positions) : Prop where
  distinct : ((visible root).map LayoutNode.id).Nodup
  shown : ∀ id, (pos.own id).isSome ↔ id ∈ (visible root).map LayoutNode.id
  placed : ∀ node ∈ visible root, ∃ subtreeH place,
    pos.own node.id = some { entry measure node subtreeH with place := some place }
  apart : ∀ id other, id ≠ other → ∀ box ∈ boxAt pos id, ∀ otherBox ∈ boxAt pos other,
    box.Apart otherBox

section LaidOut

variable {measure : Measure} {root : LayoutTree}

theorem visible_ids (tree : LayoutTree) :
    (visible tree).map LayoutNode.id = (Layout.shown tree).map rootId := by
  rw [visible, List.map_map]
  rfl

theorem Undragged.shown_distinct (undragged : Undragged root) :
    ((Layout.shown root).map rootId).Nodup := by
  rw [← visible_ids]
  exact ((visible_sublist_labels root).map LayoutNode.id).nodup undragged.distinct

/-- Both passes write the places of the visible nodes. -/
theorem Undragged.writes (undragged : Undragged root) (startX startY : Rat) :
    Writes measure (Layout.shown root) (Layout.placed measure root startX startY .right)
      (computeHeight measure .empty root).1 (layoutTree measure root startX startY) :=
  assigns root _ startX startY .right (knows_computeHeight undragged.shown_distinct _)
    undragged.shown_distinct

/-- What is visible below the root was not dragged. -/
theorem Undragged.natural {label : LayoutNode} {children : List LayoutTree}
    (undragged : Undragged (.node label children)) (unfolded : label.collapsed = false) :
    Natural (shownAll children) := by
  have distinct := undragged.shown_distinct
  have parts : Layout.shown (.node label children) = .node label children :: shownAll children := by
    rw [Layout.shown, unfolded, if_neg Bool.false_ne_true]
  rw [parts, List.map_cons, List.nodup_cons] at distinct
  refine ⟨fun part listed same => ?_, fun part listed => ?_⟩
  · have top : rootId part = rootId (.node label children) := same.trans undragged.isRoot.symm
    exact distinct.1 (top ▸ List.mem_map_of_mem listed)
  · refine undragged.free part.label ((visible_sublist_labels _).subset ?_)
    rw [visible, parts]
    exact List.mem_map_of_mem (List.mem_cons_of_mem _ listed)

/-- The boxes of the places of a map are apart. -/
theorem Undragged.apart (sized : Sized measure) (undragged : Undragged root) (startX startY : Rat) :
    ((Layout.placed measure root startX startY .right).map (boxOf measure)).Pairwise Box.Apart := by
  cases root with
  | node label children =>
      have free := undragged.free label (label_mem_labels (.node label children))
      exact apart_root sized undragged.isRoot free undragged.natural startX startY .right

/-- What is visible is in a place. -/
theorem exists_place {part : LayoutTree} (listed : part ∈ Layout.shown root) (x yCenter : Rat)
    (direction : Side) :
      ∃ place, (part, place) ∈ Layout.placed measure root x yCenter direction := by
  have same : ((Layout.placed measure root x yCenter direction).map Prod.fst).Perm
      (Layout.shown root) := shows root x yCenter direction
  obtain ⟨⟨here, place⟩, present, rfl⟩ := List.mem_map.mp (same.symm.subset listed)
  exact ⟨place, present⟩

/-- No visible node is called `'__proto__'`. -/
def Proper (root : LayoutTree) : Prop := "__proto__" ∉ (visible root).map LayoutNode.id

instance (root : LayoutTree) : Decidable (Proper root) :=
  inferInstanceAs (Decidable (_ ∉ _))

theorem Proper.rootId_ne (proper : Proper root) {part : LayoutTree}
    (listed : part ∈ Layout.shown root) : rootId part ≠ "__proto__" := by
  intro named
  refine proper ?_
  rw [visible_ids, ← named]
  exact List.mem_map_of_mem listed

/-- A visible node has its entry, and its place in it. -/
theorem Undragged.own_eq (undragged : Undragged root) (proper : Proper root)
    {startX startY : Rat} {part : LayoutTree × Place}
    (present : part ∈ Layout.placed measure root startX startY .right) :
    (layoutTree measure root startX startY).own (rootId part.1) =
      some { entry measure part.1.label (height measure part.1) with
        place := some part.2 } := by
  rw [Positions.own_of_ne _ (proper.rootId_ne (mem_shown_of_placed present))]
  exact (undragged.writes startX startY).own part present

/-- A visible node is drawn where it was placed. -/
theorem Undragged.boxAt_eq (undragged : Undragged root) (proper : Proper root)
    {startX startY : Rat} {part : LayoutTree × Place}
    (present : part ∈ Layout.placed measure root startX startY .right) :
    boxAt (layoutTree measure root startX startY) (rootId part.1) = some (boxOf measure part) := by
  rw [boxAt, undragged.own_eq proper present]
  rfl

/-- Nothing but the visible nodes has an entry. -/
theorem Undragged.isSome_iff (undragged : Undragged root) (proper : Proper root)
    (startX startY : Rat) (id : String) :
    ((layoutTree measure root startX startY).own id).isSome ↔
      id ∈ (visible root).map LayoutNode.id := by
  constructor
  · intro known
    by_contra absent
    have named : id ≠ "__proto__" := by
      rintro rfl
      rw [Positions.own_proto] at known
      exact Bool.false_ne_true known
    rw [visible_ids] at absent
    rw [Positions.own_of_ne _ named, (undragged.writes startX startY).others id absent,
      (measures root).others _ id absent, ← Positions.own_of_ne _ named] at known
    exact absurd known Bool.false_ne_true
  · intro listed
    rw [visible_ids] at listed
    obtain ⟨part, inShown, rfl⟩ := List.mem_map.mp listed
    obtain ⟨place, present⟩ := exists_place inShown startX startY .right
    rw [undragged.own_eq proper present]
    rfl

/-- A node that has a box is at a place of the map. -/
theorem Undragged.exists_of_boxAt (undragged : Undragged root) (proper : Proper root)
    {startX startY : Rat} {id : String} {box : Box}
    (found : box ∈ boxAt (layoutTree measure root startX startY) id) :
    ∃ part ∈ Layout.placed measure root startX startY .right,
      rootId part.1 = id ∧ boxOf measure part = box := by
  have known : ((layoutTree measure root startX startY).own id).isSome := by
    rw [Option.mem_def, boxAt, Option.bind_eq_some_iff] at found
    obtain ⟨entry, inRecord, -⟩ := found
    rw [inRecord]
    rfl
  rw [undragged.isSome_iff proper, visible_ids] at known
  obtain ⟨part, inShown, rfl⟩ := List.mem_map.mp known
  obtain ⟨place, present⟩ := exists_place inShown startX startY .right
  rw [undragged.boxAt_eq proper present] at found
  exact ⟨(part, place), present, rfl, Option.some.inj found⟩

/-- A record that has an entry for each visible node has none that is called
`'__proto__'`. -/
theorem LaidOut.proper {pos : Positions} (laidOut : LaidOut measure root pos) :
    Proper root := by
  intro named
  have known := (laidOut.shown "__proto__").mpr named
  rw [pos.own_proto] at known
  exact Bool.false_ne_true known

end LaidOut

/-- The map is laid out, from wherever it starts and however wide its texts are, exactly if
no visible node is called `'__proto__'`. -/
theorem laidOut_layoutTree_iff (measureText : String → Nat → Rat)
    (options : LayoutNode → DescribeOptions) {root : LayoutTree} (undragged : Undragged root)
    (startX startY : Rat) :
    LaidOut (measureWith measureText options) root
        (layoutTree (measureWith measureText options) root startX startY) ↔
      Proper root := by
  refine ⟨LaidOut.proper, fun proper => ?_⟩
  have sized := sized_measureWith measureText options
  refine ⟨?_, undragged.isSome_iff proper startX startY, fun node listed => ?_,
    fun id other different box found otherBox otherFound => ?_⟩
  · rw [visible_ids]
    exact undragged.shown_distinct
  · obtain ⟨part, inShown, rfl⟩ := List.mem_map.mp listed
    obtain ⟨place, present⟩ := exists_place inShown startX startY .right
    exact ⟨_, place, undragged.own_eq proper present⟩
  · have boxes := List.pairwise_map.mp (undragged.apart sized startX startY)
    have symmetric : Std.Symm fun first second : LayoutTree × Place =>
        (boxOf (measureWith measureText options) first).Apart
          (boxOf (measureWith measureText options) second) := ⟨fun _ _ => Box.Apart.symm⟩
    obtain ⟨part, present, rfl, rfl⟩ := undragged.exists_of_boxAt proper found
    obtain ⟨otherPart, otherPresent, rfl, rfl⟩ := undragged.exists_of_boxAt proper otherFound
    refine boxes.forall present otherPresent fun same => different ?_
    rw [same]

/-- A node with a name, and with a date if it has one. -/
def datedNode (id : String) (startDate : Option String) (side : Option Side)
    (collapsed : Bool) : LayoutNode where
  id := id
  text := id
  notes := none
  collapsed := collapsed
  link := none
  icons := []
  checked := none
  progress := none
  startDate := startDate
  endDate := none
  urls := 0
  attachments := 0
  side := side
  customX := none
  customY := none
  tags := []
  image := none

/-- A root with a dated child on each side, one of them with a child that is not shown. -/
def datedTree : LayoutTree :=
  .node (datedNode "root" none none false)
    [.node (datedNode "first" (some "2024-01-01") none false) [],
      .node (datedNode "second" (some "2024-02-01") (some .left) true)
        [.node (datedNode "third" none none false) []]]

/-- The estimate of a width without a canvas. -/
def estimatedWidth (text : String) (fontSize : Nat) : Rat := text.length * fontSize * (6 / 10)

theorem laidOut_layoutTree_iff_datedTree :
    LaidOut (measureWith estimatedWidth fun _ => ⟨none, none⟩) datedTree
      (layoutTree (measureWith estimatedWidth fun _ => ⟨none, none⟩) datedTree 0 0) :=
  (laidOut_layoutTree_iff estimatedWidth _
    ⟨rfl, by decide +kernel, fun node listed => by
      simp only [datedTree, RoseTree.labels, labelsAll, List.append_nil,
        List.cons_append, List.nil_append, List.mem_cons, List.not_mem_nil, or_false] at listed
      rcases listed with rfl | rfl | rfl | rfl <;> exact .inl rfl⟩
    0 0).mpr (by decide +kernel)

/-- A root with one child, whose id is taken from a file as it is. -/
def namedTree : LayoutTree :=
  .node (datedNode "root" none none false) [.node (datedNode "__proto__" none none false) []]

/-- The map has distinct ids and nothing dragged, and the child has no entry. -/
theorem namedTree_not_laidOut :
    Undragged namedTree ∧
      ¬ LaidOut (measureWith estimatedWidth fun _ => ⟨none, none⟩) namedTree
        (layoutTree (measureWith estimatedWidth fun _ => ⟨none, none⟩) namedTree 0 0) := by
  refine ⟨⟨rfl, by decide +kernel, fun node listed => ?_⟩, fun laidOut => ?_⟩
  · simp only [namedTree, RoseTree.labels, labelsAll, List.append_nil,
      List.mem_cons, List.not_mem_nil, or_false] at listed
    rcases listed with rfl | rfl <;> exact .inl rfl
  · refine laidOut.proper ?_
    decide +kernel

end Layout
end MindMapVault
