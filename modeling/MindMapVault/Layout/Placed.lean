import MindMapVault.Layout.Heights

/-!
# The places that are assigned

The places of a tree by recursion on the tree alone, and the second pass, which writes them
into the record under the ids of the nodes.
-/

namespace MindMapVault
namespace Layout

section Placed

variable (measure : Measure)

/-- The place of a node that is centred at a height. -/
def centred (label : LayoutNode) (x yCenter : Rat) (direction : Side) : Place :=
  placeOf (entry measure label 0) label x yCenter direction

/-- The height of children one below the other. -/
def totalH (children : List LayoutTree) : Rat := stacked (children.map (height measure))

/-- The children on the right and on the left of the root. -/
def onRight (child : LayoutTree) : Bool := child.label.side != some .left
def onLeft (child : LayoutTree) : Bool := child.label.side == some .left

mutual

/-- The visible subtrees with the places of their roots. -/
def placed : LayoutTree → Rat → Rat → Side → List (LayoutTree × Place)
  | .node label children, x, yCenter, direction =>
      (.node label children, centred measure label x yCenter direction) ::
        if folded label children then []
        else if label.id = "root" then
          placedGroup children onRight x (measure label).w .right
              (yCenter - totalH measure (children.filter onRight) / 2) ++
            placedGroup children onLeft x (measure label).w .left
              (yCenter - totalH measure (children.filter onLeft) / 2)
        else
          placedGroup children (fun _ => true) x (measure label).w direction
            (yCenter - totalH measure children / 2)

/-- Some of the children and what is visible below them, one below the other. -/
def placedGroup :
    List LayoutTree → (LayoutTree → Bool) → Rat → Rat → Side → Rat → List (LayoutTree × Place)
  | [], _, _, _, _, _ => []
  | child :: children, member, x, parentW, direction, cy =>
      if member child then
        placed child (childX direction x parentW (measure child.label).w)
            (cy + height measure child / 2) direction ++
          placedGroup children member x parentW direction (cy + height measure child + vGap)
      else placedGroup children member x parentW direction cy

end

/-- Children one below the other, all of them. -/
abbrev placedAll (children : List LayoutTree) (x parentW : Rat) (direction : Side) (cy : Rat) :
    List (LayoutTree × Place) :=
  placedGroup measure children (fun _ => true) x parentW direction cy

theorem placedAll_cons (child : LayoutTree) (children : List LayoutTree) (x parentW : Rat)
    (direction : Side) (cy : Rat) :
    placedAll measure (child :: children) x parentW direction cy =
      placed measure child (childX direction x parentW (measure child.label).w)
          (cy + height measure child / 2) direction ++
        placedAll measure children x parentW direction (cy + height measure child + vGap) := by
  rw [placedAll, placedGroup, if_pos rfl]

theorem placedGroup_filter (member : LayoutTree → Bool) (x parentW : Rat) (direction : Side) :
    ∀ (children : List LayoutTree) (cy : Rat),
      placedGroup measure children member x parentW direction cy =
        placedAll measure (children.filter member) x parentW direction cy
  | [], _ => rfl
  | child :: children, cy => by
      rw [placedGroup]
      cases isMember : member child with
      | true =>
          rw [if_pos rfl, List.filter_cons_of_pos isMember, placedAll_cons,
            placedGroup_filter member x parentW direction children]
      | false =>
          rw [if_neg Bool.false_ne_true, List.filter_cons_of_neg (by simp [isMember]),
            placedGroup_filter member x parentW direction children]

/-- The places below a node: those of the children on its two sides, or on one. -/
theorem placed_eq (label : LayoutNode) (children : List LayoutTree) (x yCenter : Rat)
    (direction : Side) :
    placed measure (.node label children) x yCenter direction =
      (.node label children, centred measure label x yCenter direction) ::
        if folded label children then []
        else if label.id = "root" then
          placedAll measure (children.filter onRight) x (measure label).w .right
              (yCenter - totalH measure (children.filter onRight) / 2) ++
            placedAll measure (children.filter onLeft) x (measure label).w .left
              (yCenter - totalH measure (children.filter onLeft) / 2)
        else
          placedAll measure children x (measure label).w direction
            (yCenter - totalH measure children / 2) := by
  rw [placed, placedGroup_filter, placedGroup_filter]

end Placed

/-- The second pass on all the children of a list. -/
def layoutAll (pos : Positions) (children : List LayoutTree) (x parentW : Rat)
    (direction : Side) (cy : Rat) : Positions :=
  layoutGroup pos children (fun _ => true) x parentW direction cy

theorem layoutAll_cons (pos : Positions) (child : LayoutTree) (children : List LayoutTree)
    (x parentW : Rat) (direction : Side) (cy : Rat) :
    layoutAll pos (child :: children) x parentW direction cy =
      layoutAll
        (assignPos pos child (childX direction x parentW (wAt pos (rootId child)))
          (cy + subtreeHAt pos (rootId child) / 2) direction)
        children x parentW direction (cy + subtreeHAt pos (rootId child) + vGap) := by
  rw [layoutAll, layoutGroup, if_pos rfl]
  rfl

theorem layoutGroup_filter (member : LayoutNode → Bool) (x parentW : Rat) (direction : Side) :
    ∀ (children : List LayoutTree) (pos : Positions) (cy : Rat),
      layoutGroup pos children member x parentW direction cy =
        layoutAll pos (children.filter fun child => member child.label) x parentW direction cy
  | [], _, _ => by rw [layoutGroup, List.filter_nil, layoutAll, layoutGroup]
  | child :: children, pos, cy => by
      rw [layoutGroup]
      cases isMember : member child.label with
      | true =>
          simp only [List.filter_cons, isMember, if_true]
          rw [layoutAll_cons, layoutGroup_filter member x parentW direction children]
          rfl
      | false =>
          simp only [List.filter_cons, isMember, Bool.false_eq_true, if_false]
          rw [layoutGroup_filter member x parentW direction children]

theorem groupHeight_filter (pos : Positions) (member : LayoutNode → Bool) :
    ∀ (children : List LayoutTree) (total : Rat) (first : Bool),
      groupHeight pos member total first children =
        groupHeight pos (fun _ => true) total first
          (children.filter fun child => member child.label)
  | [], _, _ => by rw [groupHeight, List.filter_nil, groupHeight]
  | child :: children, total, first => by
      rw [groupHeight]
      cases isMember : member child.label with
      | true =>
          simp only [List.filter_cons, isMember, if_true]
          rw [groupHeight, if_pos rfl, groupHeight_filter pos member children]
      | false =>
          simp only [List.filter_cons, isMember, Bool.false_eq_true, if_false]
          rw [groupHeight_filter pos member children]

section Record

variable {measure : Measure} {pos : Positions}

theorem Knows.of_mem {trees fewer : List LayoutTree} (knows : Knows measure pos trees)
    (fewerTrees : ∀ tree ∈ fewer, tree ∈ trees) : Knows measure pos fewer :=
  fun tree listed => knows tree (fewerTrees tree listed)

theorem wAt_of_knows {tree : LayoutTree} (knows : Knows measure pos (shown tree)) :
    wAt pos (rootId tree) = (measure tree.label).w := by
  obtain ⟨place, found⟩ := knows tree (self_mem_shown tree)
  rw [wAt, found]
  rfl

theorem subtreeHAt_of_knows {tree : LayoutTree} (knows : Knows measure pos (shown tree)) :
    subtreeHAt pos (rootId tree) = height measure tree := by
  obtain ⟨place, found⟩ := knows tree (self_mem_shown tree)
  rw [subtreeHAt, found]
  rfl

/-- What is read of the record is the height of the children. -/
theorem groupHeight_of_knows : ∀ {trees : List LayoutTree},
    Knows measure pos (shownAll trees) → ∀ (total : Rat) (first : Bool),
      groupHeight pos (fun _ => true) total first trees =
        total + if first then totalH measure trees else loose (trees.map (height measure))
  | [], _, total, first => by
      rw [groupHeight]
      cases first <;> simp [totalH, stacked, loose]
  | tree :: trees, knows, total, first => by
      have here : Knows measure pos (shown tree) := by
        refine knows.of_mem fun part listed => ?_
        rw [shownAll]
        exact List.mem_append_left _ listed
      have rest : Knows measure pos (shownAll trees) := by
        refine knows.of_mem fun part listed => ?_
        rw [shownAll]
        exact List.mem_append_right _ listed
      have own : subtreeHAt pos tree.label.id = height measure tree := subtreeHAt_of_knows here
      rw [groupHeight, if_pos rfl, own, groupHeight_of_knows rest]
      cases first with
      | true =>
          simp only [if_true, Bool.false_eq_true, if_false, totalH, List.map_cons, stacked]
          ring
      | false =>
          simp only [Bool.false_eq_true, if_false, List.map_cons, loose_cons]
          ring

/-- What the second pass does with trees that are known: it writes the places under the ids
of the visible nodes, and nothing else. -/
structure Writes (measure : Measure) (parts : List LayoutTree)
    (placed : List (LayoutTree × Place)) (before after : Positions) : Prop where
  others : ∀ id, id ∉ parts.map rootId → after.get id = before.get id
  own : ∀ part ∈ placed, after.get (rootId part.1) =
    some { entry measure part.1.label (height measure part.1) with place := some part.2 }

/-- The second pass writes the places of a tree. -/
def Assigns (measure : Measure) (tree : LayoutTree) : Prop :=
  ∀ pos x yCenter direction, Knows measure pos (shown tree) →
    ((shown tree).map rootId).Nodup →
      Writes measure (shown tree) (placed measure tree x yCenter direction) pos
        (assignPos pos tree x yCenter direction)

/-- What is placed is what is shown, once. -/
def Shows (measure : Measure) (tree : LayoutTree) : Prop :=
  ∀ x yCenter direction, ((placed measure tree x yCenter direction).map Prod.fst).Perm (shown tree)

theorem shows_of_all {group : List LayoutTree} (each : ∀ child ∈ group, Shows measure child)
    (x parentW : Rat) (direction : Side) (cy : Rat) :
    ((placedAll measure group x parentW direction cy).map Prod.fst).Perm (shownAll group) := by
  induction group generalizing cy with
  | nil => exact .refl _
  | cons child group ih =>
      have both := List.forall_mem_cons.mp each
      rw [placedAll_cons, List.map_append, shownAll]
      exact (both.1 _ _ _).append (ih both.2 _)

/-- The children on the two sides are the children. -/
theorem shownAll_sides_perm (children : List LayoutTree) :
    (shownAll (children.filter onRight) ++ shownAll (children.filter onLeft)).Perm
      (shownAll children) := by
  have sides : onLeft = fun child => !onRight child := by
    funext child
    rw [onLeft, onRight, bne, Bool.not_not]
  rw [shownAll_eq_flatMap, shownAll_eq_flatMap, shownAll_eq_flatMap, ← List.flatMap_append, sides]
  exact (List.filter_append_perm onRight children).flatMap_right shown

theorem shows (tree : LayoutTree) : Shows measure tree := by
  refine RoseTree.forall_of_children (fun label children each => ?_) tree
  have chosen (member : LayoutTree → Bool) :
      ∀ child ∈ children.filter member, Shows measure child :=
    fun child listed => each child (List.mem_of_mem_filter listed)
  intro x yCenter direction
  rw [placed_eq, shown_eq, List.map_cons]
  refine List.Perm.cons _ ?_
  split_ifs
  · exact .refl _
  · rw [List.map_append]
    have right := shows_of_all (chosen onRight) x (measure label).w .right
    have left := shows_of_all (chosen onLeft) x (measure label).w .left
    exact ((right _).append (left _)).trans (shownAll_sides_perm children)
  · exact shows_of_all each _ _ _ _

/-- What is written under other ids leaves what is known. -/
theorem Knows.of_writes {parts others : List LayoutTree} {written : List (LayoutTree × Place)}
    {after : Positions} (knows : Knows measure pos others)
    (writes : Writes measure parts written pos after)
    (apart : (parts.map rootId).Disjoint (others.map rootId)) : Knows measure after others := by
  intro tree listed
  have absent : rootId tree ∉ parts.map rootId :=
    fun present => apart present (List.mem_map_of_mem listed)
  rw [writes.others _ absent]
  exact knows tree listed

/-- One part after the other. -/
theorem Writes.trans {first second : List LayoutTree}
    {earlier later : List (LayoutTree × Place)} {middle after : Positions}
    (former : Writes measure first earlier pos middle)
    (latter : Writes measure second later middle after) (listed : ∀ part ∈ earlier, part.1 ∈ first)
    (apart : (first.map rootId).Disjoint (second.map rootId)) :
    Writes measure (first ++ second) (earlier ++ later) pos after := by
  refine ⟨fun id absent => ?_, fun part present => ?_⟩
  · rw [List.map_append, List.mem_append, not_or] at absent
    rw [latter.others id absent.2, former.others id absent.1]
  · rcases List.mem_append.mp present with before | behind
    · have absent : rootId part.1 ∉ second.map rootId :=
        apart (List.mem_map_of_mem (listed part before))
      rw [latter.others _ absent]
      exact former.own part before
    · exact latter.own part behind

theorem mem_shown_of_placed {tree : LayoutTree} {x yCenter : Rat} {direction : Side}
    {part : LayoutTree × Place} (listed : part ∈ placed measure tree x yCenter direction) :
    part.1 ∈ shown tree :=
  (shows tree x yCenter direction).subset (List.mem_map_of_mem listed)

theorem mem_shownAll_of_placed {group : List LayoutTree} {x parentW cy : Rat}
    {direction : Side} {part : LayoutTree × Place}
    (listed : part ∈ placedAll measure group x parentW direction cy) :
    part.1 ∈ shownAll group :=
  (shows_of_all (fun child _ => shows child) x parentW direction cy).subset
    (List.mem_map_of_mem listed)

/-- The second pass writes the places of children one below the other. -/
theorem writes_layoutAll {group : List LayoutTree} (each : ∀ child ∈ group, Assigns measure child)
    (x parentW : Rat) (direction : Side) : ∀ (pos : Positions) (cy : Rat),
      Knows measure pos (shownAll group) → ((shownAll group).map rootId).Nodup →
        Writes measure (shownAll group) (placedAll measure group x parentW direction cy) pos
          (layoutAll pos group x parentW direction cy) := by
  induction group with
  | nil =>
      intro pos cy _ _
      exact ⟨fun _ _ => by rw [layoutAll, layoutGroup], List.forall_mem_nil _⟩
  | cons child group ih =>
      intro pos cy knows distinct
      have both := List.forall_mem_cons.mp each
      rw [shownAll] at knows distinct ⊢
      rw [List.map_append, List.nodup_append'] at distinct
      obtain ⟨here, later, apart⟩ := distinct
      have own := knows.of_mem fun part => List.mem_append_left (shownAll group)
      have others : Knows measure pos (shownAll group) :=
        knows.of_mem fun part => List.mem_append_right (shown child)
      rw [layoutAll_cons, placedAll_cons, wAt_of_knows own, subtreeHAt_of_knows own]
      have former := both.1 pos (childX direction x parentW (measure child.label).w)
        (cy + height measure child / 2) direction own here
      exact former.trans (ih both.2 _ _ (others.of_writes former apart) later)
        (fun _ => mem_shown_of_placed) apart

/-- The height of a group is read of the record. -/
theorem groupHeight_group {children : List LayoutTree} (member : LayoutNode → Bool)
    (knows : Knows measure pos (shownAll (children.filter fun child => member child.label))) :
    groupHeight pos member 0 true children =
      totalH measure (children.filter fun child => member child.label) := by
  rw [groupHeight_filter, groupHeight_of_knows knows, if_pos rfl, zero_add]

/-- The place of a node is written. -/
theorem writes_own (pos : Positions) {label : LayoutNode} {children : List LayoutTree}
    {place : Option Place} (x yCenter : Rat) (direction : Side) {found : LayoutEntry}
    (known : found = { entry measure label (height measure (.node label children)) with
      place := place }) :
    Writes measure [.node label children]
      [(.node label children, centred measure label x yCenter direction)] pos
      (pos.set label.id
        { found with place := some (placeOf found label x yCenter direction) }) := by
  subst known
  refine ⟨fun id absent => ?_, fun part listed => ?_⟩
  · rw [List.map_singleton, List.mem_singleton] at absent
    exact pos.get_set_of_ne absent _
  · rw [List.mem_singleton.mp listed]
    exact pos.get_set_self _ _

/-- The order in which parts are written does not matter. -/
theorem Writes.of_perm {parts others : List LayoutTree} {written : List (LayoutTree × Place)}
    {after : Positions} (writes : Writes measure parts written pos after)
    (same : parts.Perm others) : Writes measure others written pos after :=
  ⟨fun id absent => writes.others id fun present =>
    absent ((same.map rootId).subset present), writes.own⟩

/-- A group of the children of a node, centred beside it. -/
theorem writes_layoutGroup {children : List LayoutTree} (member : LayoutNode → Bool)
    (each : ∀ child ∈ children, Assigns measure child)
    (knows : Knows measure pos (shownAll (children.filter fun child => member child.label)))
    (distinct : ((shownAll (children.filter fun child => member child.label)).map rootId).Nodup)
    (x parentW yCenter : Rat) (direction : Side) :
    Writes measure (shownAll (children.filter fun child => member child.label))
      (placedAll measure (children.filter fun child => member child.label) x parentW direction
        (yCenter - totalH measure (children.filter fun child => member child.label) / 2)) pos
      (layoutGroup pos children member x parentW direction
        (yCenter - groupHeight pos member 0 true children / 2)) := by
  rw [layoutGroup_filter, groupHeight_group member knows]
  exact writes_layoutAll (fun child listed => each child (List.mem_of_mem_filter listed))
    x parentW direction pos _ knows distinct

/-- The children of the root, on its two sides. -/
theorem writes_sides {children : List LayoutTree} (each : ∀ child ∈ children, Assigns measure child)
    (knows : Knows measure pos (shownAll children))
    (distinct : ((shownAll children).map rootId).Nodup) (x parentW yCenter : Rat)
    (right left : LayoutNode → Bool)
    (isRight : (fun child : LayoutTree => right child.label) = onRight)
    (isLeft : (fun child : LayoutTree => left child.label) = onLeft) :
    let rightPlaced := layoutGroup pos children right x parentW .right
      (yCenter - groupHeight pos right 0 true children / 2)
    Writes measure (shownAll children)
      (placedAll measure (children.filter onRight) x parentW .right
          (yCenter - totalH measure (children.filter onRight) / 2) ++
        placedAll measure (children.filter onLeft) x parentW .left
          (yCenter - totalH measure (children.filter onLeft) / 2)) pos
      (layoutGroup rightPlaced children left x parentW .left
        (yCenter - groupHeight rightPlaced left 0 true children / 2)) := by
  have sides := shownAll_sides_perm children
  have apart := (sides.map rootId).nodup_iff.mpr distinct
  rw [List.map_append, List.nodup_append'] at apart
  obtain ⟨rightDistinct, leftDistinct, apart⟩ := apart
  have onSide {part : LayoutTree}
      (listed : part ∈ shownAll (children.filter onRight) ++ shownAll (children.filter onLeft)) :
      part ∈ shownAll children := sides.subset listed
  rw [← isRight, ← isLeft] at *
  have former := writes_layoutGroup right each
    (knows.of_mem fun part listed => onSide (List.mem_append_left _ listed)) rightDistinct
    x parentW yCenter .right
  have leftKnown := (knows.of_mem fun part listed =>
    onSide (List.mem_append_right _ listed)).of_writes former apart
  have latter := writes_layoutGroup left each leftKnown leftDistinct x parentW yCenter .left
  exact (former.trans latter (fun _ => mem_shownAll_of_placed) apart).of_perm sides

/-- The second pass writes the places of every tree. -/
theorem assigns (tree : LayoutTree) : Assigns measure tree := by
  refine RoseTree.forall_of_children (fun label children each => ?_) tree
  intro pos x yCenter direction knows distinct
  obtain ⟨place, found⟩ := knows _ (self_mem_shown _)
  have own := writes_own pos x yCenter direction (Eq.refl
    { entry measure label (height measure (.node label children)) with place := place })
  rw [placed_eq]
  rw [shown_eq] at knows distinct ⊢
  rw [assignPos, show pos.get label.id = _ from found]
  cases isFolded : folded label children with
  | true => exact own
  | false =>
      simp only [isFolded, Bool.false_eq_true, if_false] at knows distinct ⊢
      rw [List.map_cons, List.nodup_cons] at distinct
      obtain ⟨top, distinct⟩ := distinct
      have apart : (List.map rootId [.node label children]).Disjoint
          ((shownAll children).map rootId) :=
        List.singleton_disjoint.mpr top
      have others : Knows measure pos (shownAll children) :=
        knows.of_mem fun part => List.mem_cons_of_mem _
      have known := others.of_writes own apart
      have onlyOwn : ∀ part ∈ [(RoseTree.node label children,
          centred measure label x yCenter direction)], part.1 ∈ [.node label children] := by
        intro part listed
        rw [List.mem_singleton.mp listed]
        exact List.mem_singleton_self _
      split_ifs
      · exact own.trans (writes_sides each known distinct x _ yCenter _ _ rfl rfl) onlyOwn apart
      · have group := writes_layoutGroup (fun _ => true) each
          (by simpa using known) (by simpa using distinct) x (measure label).w yCenter direction
        simp only [List.filter_true] at group
        exact own.trans group onlyOwn apart

end Record

end Layout
end MindMapVault
