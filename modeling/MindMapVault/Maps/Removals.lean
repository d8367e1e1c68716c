import MindMapVault.Maps.Families

/-!
# Several nodes removed at once

Nodes are taken out one by one, in the order of the set, and one that has gone with an
earlier one is passed over. Which nodes are left does not depend on that order: they are
those below no selected node. The parent reported is the one of the last node that was
taken out, which nothing takes out after that; where none was, it is the name that roots
have.
-/

namespace MindMapVault
namespace Maps

open RoseTree hiding node

variable {Rest : Type}

/-- `Removal`. -/
structure Removal (Rest : Type) where
  root : MindMapTreeNode Rest
  parentId : String

/-- A node is taken out, if it is there and has a parent. -/
def Removal.take (removal : Removal Rest) (id : String) : Removal Rest :=
  if removal.root.label.id = id then removal
  else
    match removal.root.findParent? (hasId id), removal.root.splice (hasId id) fun _ => [] with
    | some parent, some root => ⟨root, parent.id⟩
    | _, _ => removal

/-- `removeNodes`, with what it reports. -/
def removalOf (root : MindMapTreeNode Rest) (nodeIds : List String) :
    Option (Removal Rest) :=
  let ids := nodeIds.eraseDups.filter (· ≠ "root")
  if ids.isEmpty then none
  else some (ids.foldl Removal.take ⟨root, "root"⟩)

/-- A node is in the branch of a selected one below the root. Who has the name of a root
is not selected. -/
def SelectedAbove (root : MindMapTreeNode Rest) (ids : List String) (id : String) : Prop :=
  ∃ branch ∈ subtreesAll root.children,
    branch.label.id ∈ ids ∧ branch.label.id ≠ "root" ∧ id ∈ nodeIds branch

instance (root : MindMapTreeNode Rest) (ids : List String) (id : String) :
    Decidable (SelectedAbove root ids id) :=
  inferInstanceAs (Decidable (∃ branch ∈ subtreesAll root.children, _))

/-- What is left are the nodes below no selected one, in their order, with their fields and
with the children that are left; and the parent that is reported is there, if the root has
the name of one or anything was selected. -/
structure Removed (root : MindMapTreeNode Rest) (ids : List String)
    (removal : Removal Rest) : Prop where
  top : removal.root.label = root.label
  families : families removal.root =
    ((families root).filter fun family => !decide (SelectedAbove root ids family.1.id)).map
      fun family =>
        (family.1, family.2.filter fun id => !(decide (id ∈ ids) && id != "root"))
  parent : root.label.id = "root" ∨ (∃ id, SelectedAbove root ids id) →
    removal.parentId ∈ nodeIds removal.root

section Take

variable {root : MindMapTreeNode Rest} {removal : Removal Rest} {id : String}

/-- Taking a node out is removing it. -/
theorem Removal.take_root (notRoot : id ≠ "root") :
    (removal.take id).root = (removeNode removal.root id).getD removal.root := by
  unfold Removal.take removeNode
  by_cases isTop : removal.root.label.id = id
  · rw [if_pos isTop, if_pos (.inr isTop), Option.getD_none]
  · rw [if_neg isTop, if_neg (not_or.mpr ⟨notRoot, isTop⟩)]
    have both : (removal.root.findParent? (hasId id)).isSome =
        (removal.root.splice (hasId id) fun _ => []).isSome :=
      isSome_findParent? _ removal.root
    cases found : removal.root.findParent? (hasId id) with
    | none =>
        rw [found] at both
        have missing : (removal.root.splice (hasId id) fun _ => []) = none := by
          rw [← Option.not_isSome_iff_eq_none, ← both]
          exact nofun
        rw [missing]
        rfl
    | some parent =>
        rw [found] at both
        obtain ⟨after, spliced⟩ := Option.isSome_iff_exists.mp both.symm
        rw [spliced]
        rfl

/-- Either nothing is taken out, or the parent that is reported is left. -/
theorem Removal.take_parent (removal : Removal Rest) (id : String) :
    removal.take id = removal ∨ (removal.take id).parentId ∈ nodeIds (removal.take id).root := by
  unfold Removal.take
  split_ifs
  · exact .inl rfl
  · cases found : removal.root.findParent? (hasId id) with
    | none => exact .inl rfl
    | some parent =>
        cases spliced : removal.root.splice (hasId id) fun _ => [] with
        | none => exact .inl rfl
        | some after =>
            exact .inr (List.mem_map_of_mem (mem_labels_of_findParent? found spliced))

/-- After some nodes have been taken out, the parent that is reported is left; if none has,
it is as it was. -/
theorem foldl_take_parent (ids : List String) (removal : Removal Rest) :
    ids.foldl Removal.take removal = removal ∨
      (ids.foldl Removal.take removal).parentId ∈
        nodeIds (ids.foldl Removal.take removal).root := by
  induction ids generalizing removal with
  | nil => exact .inl rfl
  | cons id ids ih =>
      rw [List.foldl_cons]
      rcases removal.take_parent id with same | left
      · rw [same]
        exact ih removal
      · rcases ih (removal.take id) with same | later
        · rw [same]
          exact .inr left
        · exact .inr later

/-- What is left does not look at the parent that is reported. -/
theorem foldl_take_root {ids : List String} (notRoot : ∀ id ∈ ids, id ≠ "root")
    (removal : Removal Rest) :
    (ids.foldl Removal.take removal).root =
      ids.foldl (fun tree id => (removeNode tree id).getD tree) removal.root := by
  induction ids generalizing removal with
  | nil => rfl
  | cons id ids ih =>
      obtain ⟨own, others⟩ := List.forall_mem_cons.mp notRoot
      rw [List.foldl_cons, List.foldl_cons, ih others, Removal.take_root own]

/-- The tree is the one of the removal of nodes. -/
theorem removalOf_root (root : MindMapTreeNode Rest) (ids : List String) :
    (removalOf root ids).map Removal.root = removeNodes root ids := by
  unfold removalOf removeNodes
  dsimp only
  split_ifs
  · rfl
  · rw [Option.map_some, foldl_take_root]
    intro id kept
    exact of_decide_eq_true (List.mem_filter.mp kept).2

end Take

/-- The order of the nodes and their repetitions do not matter for what is left; nothing
is answered exactly where nothing is selected; and what is left are the nodes below no
selected one. -/
theorem removeNodes_removes (root : MindMapTreeNode Rest) (distinct : (nodeIds root).Nodup)
    (ids : List String) :
    (∀ others : List String, (∀ id, id ∈ others ↔ id ∈ ids) →
        (removalOf root others).map Removal.root = (removalOf root ids).map Removal.root) ∧
      (removalOf root ids = none ↔ ∀ id ∈ ids, id = "root") ∧
        ∀ removal, removalOf root ids = some removal → Removed root ids removal := by
  have nothing : ∀ ids : List String,
      removalOf root ids = none ↔ ∀ id ∈ ids, id = "root" := by
    intro ids
    simp [removalOf]
  have left : ∀ (ids : List String) (removal : Removal Rest),
      removalOf root ids = some removal → removal.root = root.prune (isSelected ids) := by
    intro ids removal answered
    refine removeNodes_eq_some distinct ?_
    rw [← removalOf_root, answered, Option.map_some]
  refine ⟨fun others same => ?_, nothing ids, fun removal answered => ?_⟩
  · have selected : (isSelected others : NodeContent Rest → Bool) = isSelected ids := by
      funext content
      simp only [isSelected, same]
    cases first : removalOf root others with
    | none =>
        have none_ := (nothing others).mp first
        rw [(nothing ids).mpr fun id present => none_ id ((same id).mpr present)]
    | some removal =>
        cases second : removalOf root ids with
        | none =>
            have none_ := (nothing ids).mp second
            rw [(nothing others).mpr fun id present => none_ id ((same id).mp present)] at first
            exact absurd first.symm (Option.some_ne_none removal)
        | some other =>
            rw [Option.map_some, Option.map_some, left others removal first,
              left ids other second, selected]
  · have tree := left ids removal answered
    have gone : ∀ id, id ∈ nodeIdsAll (selectedBelow root ids) ↔ SelectedAbove root ids id :=
      fun id => mem_selectedBelow
    refine ⟨?_, ?_, fun known => ?_⟩
    · rw [tree, label_prune]
    · have stays := (families_prune distinct fun id => decide (id ∈ ids) && id != "root").1
      rw [tree]
      refine stays.trans (congrArg _ (List.filter_congr fun family _ => ?_))
      rw [← decide_not]
      exact decide_eq_decide.mpr (not_congr (gone family.1.id))
    · have folded : (ids.eraseDups.filter (· ≠ "root")).foldl Removal.take ⟨root, "root"⟩ =
          removal := by
        simp only [removalOf, Option.ite_none_left_eq_some, Option.some.injEq] at answered
        exact answered.2
      rcases foldl_take_parent (ids.eraseDups.filter (· ≠ "root")) ⟨root, "root"⟩ with
        untouched | reported
      · rw [folded] at untouched
        rcases known with named | ⟨id, selected⟩
        · rw [untouched, nodeIds_eq, named]
          exact List.mem_cons_self
        · -- the branch of a selected node has gone, and nothing has
          have inside := (gone id).mpr selected
          have together := nodeIds_prune_perm root (isSelected ids)
          have present : id ∈ nodeIds root := together.mem_iff.mpr (List.mem_append_right _ inside)
          rw [← tree, untouched] at together
          have apart := together.nodup_iff.mp distinct
          exact absurd rfl ((List.nodup_append.mp apart).2.2 id present id inside)
      · rwa [folded] at reported

/-- A node and one below it are removed, whichever is named first. -/
theorem removeNodes_removes_nested :
    (∀ others : List String, (∀ id, id ∈ others ↔ id ∈ ["b", "a", "root", "b"]) →
        (removalOf smallTree others).map Removal.root =
          (removalOf smallTree ["b", "a", "root", "b"]).map Removal.root) ∧
      (removalOf smallTree ["b", "a", "root", "b"] = none ↔
        ∀ id ∈ ["b", "a", "root", "b"], id = "root") ∧
        ∀ removal, removalOf smallTree ["b", "a", "root", "b"] = some removal →
          Removed smallTree ["b", "a", "root", "b"] removal :=
  removeNodes_removes smallTree (by decide) ["b", "a", "root", "b"]

/-- Where nothing is removed and the root has another name, the parent that is reported is
no node. -/
theorem unnamed_root_not_reported :
    ¬ ∀ (root : MindMapTreeNode Unit) (ids : List String) (removal : Removal Unit),
      (nodeIds root).Nodup → removalOf root ids = some removal →
        removal.parentId ∈ nodeIds removal.root := by
  intro always
  have reported := always (.node { smallTree.label with id := "map" } []) ["gone"] _
    (by decide) rfl
  revert reported
  decide

end Maps
end MindMapVault
