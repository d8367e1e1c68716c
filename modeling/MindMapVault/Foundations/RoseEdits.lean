import MindMapVault.Foundations.RoseTree
import Mathlib.Data.List.Perm.Basic

/-!
# Taking subtrees out of trees and moving them

Pruning takes every wanted subtree out, and what it takes are the outermost ones, once
each. Where at most one label is wanted, giving a subtree up for nothing is pruning, and
putting one tree in its place is an update. Siblings may be put in another order at the
place of one of them.
-/

universe u v

namespace RoseTree

variable {α : Type u}

mutual

/-- Every subtree, in preorder. -/
def subtrees : RoseTree α → List (RoseTree α)
  | .node label children => .node label children :: subtreesAll children

/-- Every subtree of several trees. -/
def subtreesAll : List (RoseTree α) → List (RoseTree α)
  | [] => []
  | child :: children => subtrees child ++ subtreesAll children

end

/-- The children of the root. -/
def children : RoseTree α → List (RoseTree α)
  | .node _ children => children

@[simp] theorem children_node (label : α) (children : List (RoseTree α)) :
    (node label children).children = children := rfl

theorem labels_eq (tree : RoseTree α) : tree.labels = tree.label :: labelsAll tree.children := by
  cases tree
  rfl

mutual

/-- The tree without the wanted subtrees of its root. -/
def prune (wanted : α → Bool) : RoseTree α → RoseTree α
  | .node label children => .node label (pruneAll wanted children)

/-- Several trees without the wanted subtrees. -/
def pruneAll (wanted : α → Bool) : List (RoseTree α) → List (RoseTree α)
  | [] => []
  | child :: children =>
      if wanted child.label then pruneAll wanted children
      else prune wanted child :: pruneAll wanted children

end

mutual

/-- The first descendant in preorder whose label is wanted is found, and the list of
siblings it stands in is changed, where that is possible. -/
def rearrange (wanted : α → Bool)
    (change : List (RoseTree α) → RoseTree α → List (RoseTree α) → Option (List (RoseTree α))) :
    RoseTree α → Option (Option (RoseTree α))
  | .node label children =>
      (rearrangeAll wanted change [] children).map (Option.map (.node label))

/-- The same among siblings, behind those that were passed. -/
def rearrangeAll (wanted : α → Bool)
    (change : List (RoseTree α) → RoseTree α → List (RoseTree α) → Option (List (RoseTree α)))
    (passed : List (RoseTree α)) :
    List (RoseTree α) → Option (Option (List (RoseTree α)))
  | [] => none
  | child :: children =>
      if wanted child.label then
        some (change passed child children)
      else
        match rearrange wanted change child with
        | some changed => some (changed.map fun child => passed ++ child :: children)
        | none => rearrangeAll wanted change (passed ++ [child]) children

end

mutual

/-- What holds of a tree as soon as it holds of its children holds of every tree. -/
theorem forall_of_children {property : RoseTree α → Prop}
    (node : ∀ label children, (∀ child ∈ children, property child) →
      property (.node label children)) : ∀ tree : RoseTree α, property tree
  | .node label children => node label children (forall_mem_of_children node children)

/-- It holds of the trees of a list. -/
theorem forall_mem_of_children {property : RoseTree α → Prop}
    (node : ∀ label children, (∀ child ∈ children, property child) →
      property (.node label children)) :
    ∀ trees : List (RoseTree α), ∀ tree ∈ trees, property tree
  | [] => List.forall_mem_nil _
  | child :: children => List.forall_mem_cons.mpr
      ⟨forall_of_children node child, forall_mem_of_children node children⟩

end

/-- Trees in another order have their labels in another order. -/
theorem labelsAll_perm {first second : List (RoseTree α)} (same : first.Perm second) :
    (labelsAll first).Perm (labelsAll second) := by
  induction same with
  | nil => exact .refl _
  | cons tree _ ih => exact ih.append_left _
  | swap one other trees => exact List.perm_append_comm_assoc _ _ _
  | trans _ _ former latter => exact former.trans latter

section Prune

variable {wanted : α → Bool}

@[simp] theorem label_prune (tree : RoseTree α) : (prune wanted tree).label = tree.label := by
  cases tree
  rfl

mutual

/-- What is pruned and what is left are together what there was. -/
theorem labels_prune_perm : ∀ tree : RoseTree α,
    (labels tree).Perm (labels (prune wanted tree) ++ labelsAll (outermostAll wanted tree.children))
  | .node label children => by
      simp only [labels, prune, children_node, List.cons_append]
      exact (labelsAll_pruneAll_perm children).cons label

/-- The same for several trees. -/
theorem labelsAll_pruneAll_perm : ∀ trees : List (RoseTree α),
    (labelsAll trees).Perm
      (labelsAll (pruneAll wanted trees) ++ labelsAll (outermostAll wanted trees))
  | [] => .refl _
  | .node label below :: children => by
      have rest := labelsAll_pruneAll_perm children
      cases here : wanted label with
      | true =>
          have pruned : pruneAll wanted (.node label below :: children) =
              pruneAll wanted children := by
            rw [pruneAll, label_node, here, if_pos rfl]
          have taken : outermostAll wanted (.node label below :: children) =
              .node label below :: outermostAll wanted children := by
            rw [outermostAll, outermost, here, if_pos rfl, List.singleton_append]
          rw [pruned, taken, labelsAll, labelsAll]
          exact (rest.append_left _).trans (List.perm_append_comm_assoc _ _ _)
      | false =>
          have first := labels_prune_perm (.node label below)
          have pruned : pruneAll wanted (.node label below :: children) =
              prune wanted (.node label below) :: pruneAll wanted children := by
            rw [pruneAll, label_node, here, if_neg Bool.false_ne_true]
          have taken : outermostAll wanted (.node label below :: children) =
              outermostAll wanted below ++ outermostAll wanted children := by
            rw [outermostAll, outermost, here, if_neg Bool.false_ne_true]
          rw [pruned, taken, labelsAll, labelsAll, labelsAll_append]
          refine (first.append rest).trans ?_
          simp only [List.append_assoc, children_node]
          exact (List.perm_append_comm_assoc _ _ _).append_left _

end

mutual

/-- Nothing wanted, nothing pruned. -/
theorem prune_eq_self : ∀ {tree : RoseTree α},
    (∀ label ∈ labelsAll tree.children, wanted label = false) → prune wanted tree = tree
  | .node label children, unwanted => by
      have below : pruneAll wanted children = children := pruneAll_eq_self unwanted
      rw [prune, below]

/-- The same for several trees. -/
theorem pruneAll_eq_self : ∀ {trees : List (RoseTree α)},
    (∀ label ∈ labelsAll trees, wanted label = false) → pruneAll wanted trees = trees
  | [], _ => rfl
  | .node label below :: children, unwanted => by
      have here : wanted label = false := unwanted label (List.mem_append_left _ List.mem_cons_self)
      have first := @prune_eq_self (.node label below) fun other present =>
        unwanted other (List.mem_append_left _ (List.mem_cons_of_mem _ present))
      have rest := @pruneAll_eq_self children fun other present =>
        unwanted other (List.mem_append_right _ present)
      rw [pruneAll, label_node, here, first, rest]
      rfl

end

mutual

/-- Pruning twice is pruning what either takes. -/
theorem prune_prune (again : α → Bool) : ∀ tree : RoseTree α,
    prune again (prune wanted tree) = prune (fun label => again label || wanted label) tree
  | .node label children => by
      rw [prune, prune, prune, pruneAll_pruneAll again children]

/-- The same for several trees. -/
theorem pruneAll_pruneAll (again : α → Bool) : ∀ trees : List (RoseTree α),
    pruneAll again (pruneAll wanted trees) =
      pruneAll (fun label => again label || wanted label) trees
  | [] => rfl
  | child :: children => by
      have first := prune_prune again child
      have rest := pruneAll_pruneAll again children
      rw [pruneAll]
      cases here : wanted child.label with
      | true => simp [pruneAll, here, rest]
      | false => simp [pruneAll, here, first, rest]

end

end Prune

section Splice

variable {wanted : α → Bool}

/-- Nothing to splice where nothing is wanted. -/
theorem spliceAll_eq_none_iff {change : RoseTree α → List (RoseTree α)} :
    ∀ {trees : List (RoseTree α)}, spliceAll wanted change trees = none ↔
      ∀ label ∈ labelsAll trees, wanted label = false
  | [] => by simp [spliceAll, labelsAll]
  | .node label below :: children => by
      have inside : splice wanted change (.node label below) = none ↔
          ∀ other ∈ labelsAll below, wanted other = false := by
        rw [splice, Option.map_eq_none_iff]
        exact spliceAll_eq_none_iff
      have rest : spliceAll wanted change children = none ↔
          ∀ other ∈ labelsAll children, wanted other = false := spliceAll_eq_none_iff
      have listed : (∀ other ∈ labelsAll (.node label below :: children),
          wanted other = false) ↔ wanted label = false ∧
            (∀ other ∈ labelsAll below, wanted other = false) ∧
            ∀ other ∈ labelsAll children, wanted other = false := by
        rw [labelsAll, labels, List.forall_mem_append, List.forall_mem_cons, and_assoc]
      rw [listed, spliceAll, label_node]
      cases here : wanted label with
      | true => simp
      | false =>
          cases first : splice wanted change (.node label below) with
          | some changed =>
              have found : ¬ ∀ other ∈ labelsAll below, wanted other = false := by
                rw [← inside, first]
                exact Option.some_ne_none _
              simp [found]
          | none => simpa [rest] using fun _ => inside.mp first

/-- A wanted label among those of the trees is found. -/
theorem countP_pos_of_spliceAll {change : RoseTree α → List (RoseTree α)}
    {trees after : List (RoseTree α)} (spliced : spliceAll wanted change trees = some after) :
    0 < (labelsAll trees).countP wanted := by
  rw [List.countP_pos_iff]
  by_contra unwanted
  have missing : ∀ label ∈ labelsAll trees, wanted label = false := by
    intro label present
    exact Bool.eq_false_iff.mpr fun isWanted => unwanted ⟨label, present, isWanted⟩
  rw [spliceAll_eq_none_iff.mpr missing] at spliced
  cases spliced

theorem unwanted_of_countP {labels : List α} (none : labels.countP wanted ≤ 0) :
    ∀ label ∈ labels, wanted label = false := by
  intro label present
  have absent := List.countP_eq_zero.mp (Nat.le_zero.mp none) label present
  exact Bool.eq_false_iff.mpr absent

mutual

/-- Where at most one label is wanted, giving its subtree up for nothing is pruning. -/
theorem prune_of_splice : ∀ {tree after : RoseTree α},
    (labelsAll tree.children).countP wanted ≤ 1 →
      splice wanted (fun _ => []) tree = some after → after = prune wanted tree
  | .node label children, after, single, spliced => by
      obtain ⟨changed, here, rfl⟩ := Option.map_eq_some_iff.mp spliced
      have pruned : changed = pruneAll wanted children := pruneAll_of_spliceAll single here
      rw [prune, pruned]

/-- The same for several trees. -/
theorem pruneAll_of_spliceAll : ∀ {trees after : List (RoseTree α)},
    (labelsAll trees).countP wanted ≤ 1 →
      spliceAll wanted (fun _ => []) trees = some after → after = pruneAll wanted trees
  | [], after, _, spliced => by cases spliced
  | .node label below :: children, after, single, spliced => by
      rw [labelsAll, labels, List.cons_append, List.countP_cons, List.countP_append] at single
      rw [spliceAll, label_node] at spliced
      rw [pruneAll, label_node]
      cases here : wanted label with
      | true =>
          rw [here, if_pos rfl] at spliced
          rw [here, if_pos rfl] at single
          cases spliced
          rw [if_pos rfl, List.nil_append]
          exact (pruneAll_eq_self (unwanted_of_countP (by omega))).symm
      | false =>
          rw [here, if_neg Bool.false_ne_true] at spliced
          rw [here, if_neg Bool.false_ne_true] at single
          rw [if_neg Bool.false_ne_true]
          cases first : splice wanted (fun _ => []) (.node label below) with
          | some changed =>
              rw [first] at spliced
              cases spliced
              obtain ⟨inside, found, _⟩ := Option.map_eq_some_iff.mp first
              have counted := countP_pos_of_spliceAll found
              have rest : pruneAll wanted children = children :=
                pruneAll_eq_self (unwanted_of_countP (by omega))
              have below : (labelsAll (RoseTree.node label below).children).countP wanted ≤ 1 := by
                rw [children_node]
                omega
              rw [rest, prune_of_splice below first]
          | none =>
              rw [first] at spliced
              obtain ⟨changed, found, rfl⟩ := Option.map_eq_some_iff.mp spliced
              have missing : spliceAll wanted (fun _ => []) below = none :=
                Option.map_eq_none_iff.mp first
              have unwanted : ∀ other ∈ labelsAll (RoseTree.node label below).children,
                  wanted other = false := spliceAll_eq_none_iff.mp missing
              rw [prune_eq_self unwanted, pruneAll_of_spliceAll (by omega) found]

end

/-- Where at most one label is wanted, a splice that takes it out, or finds none, prunes. -/
theorem getD_splice_eq_prune {tree : RoseTree α}
    (single : (labelsAll tree.children).countP wanted ≤ 1) :
    (splice wanted (fun _ => []) tree).getD tree = prune wanted tree := by
  cases spliced : splice wanted (fun _ => []) tree with
  | some after => exact prune_of_splice single spliced
  | none =>
      cases tree with
      | node label children =>
          have missing : spliceAll wanted (fun _ => []) children = none :=
            Option.map_eq_none_iff.mp spliced
          exact (prune_eq_self (spliceAll_eq_none_iff.mp missing)).symm

/-- A splice leaves the root. -/
theorem label_splice {change : RoseTree α → List (RoseTree α)} {tree after : RoseTree α}
    (spliced : splice wanted change tree = some after) : after.label = tree.label := by
  cases tree with
  | node label children =>
      obtain ⟨changed, _, rfl⟩ := Option.map_eq_some_iff.mp spliced
      rfl

/-- A splice that puts more beside what it finds adds just that. -/
theorem map_labels_splice_perm {β : Type v} {read : α → β} {added : List β}
    {change : RoseTree α → List (RoseTree α)}
    (adds : ∀ found, wanted found.label = true →
      ((labelsAll (change found)).map read).Perm ((labels found).map read ++ added))
    {tree after : RoseTree α} (spliced : splice wanted change tree = some after) :
    ((labels after).map read).Perm ((labels tree).map read ++ added) := by
  obtain ⟨before, found, rest, isWanted, old, new⟩ := splice_labels spliced
  rw [old, new]
  simp only [List.map_append, List.append_assoc]
  refine List.Perm.append_left _ ?_
  refine ((adds found isWanted).append_right _).trans ?_
  rw [List.append_assoc]
  exact List.perm_append_comm.append_left _

end Splice

section Outermost

variable {wanted : α → Bool}

theorem label_mem_labels (tree : RoseTree α) : tree.label ∈ labels tree := by
  rw [labels_eq]
  exact List.mem_cons_self

mutual

/-- What is found is wanted. -/
theorem wanted_of_find? : ∀ {tree found : RoseTree α}, find? wanted tree = some found →
    wanted found.label = true
  | .node label children, found, here => by
      rw [find?] at here
      split_ifs at here with isWanted
      · cases here
        exact isWanted
      · exact wanted_of_findAll? here

/-- The same in several trees. -/
theorem wanted_of_findAll? : ∀ {trees : List (RoseTree α)} {found : RoseTree α},
    findAll? wanted trees = some found → wanted found.label = true
  | [], found, here => by cases here
  | child :: children, found, here => by
      rw [findAll?] at here
      cases first : find? wanted child with
      | some other =>
          rw [first] at here
          cases here
          exact wanted_of_find? first
      | none =>
          rw [first] at here
          exact wanted_of_findAll? here

end

mutual

/-- The labels of a subtree stand together. -/
theorem labels_of_mem_subtrees : ∀ {tree branch : RoseTree α}, branch ∈ subtrees tree →
    (labels branch).Sublist (labels tree)
  | .node label children, branch, listed => by
      rw [subtrees] at listed
      rcases List.mem_cons.mp listed with rfl | below
      · exact List.Sublist.refl _
      · exact (labels_of_mem_subtreesAll below).cons label

/-- The same for several trees. -/
theorem labels_of_mem_subtreesAll : ∀ {trees : List (RoseTree α)} {branch : RoseTree α},
    branch ∈ subtreesAll trees → (labels branch).Sublist (labelsAll trees)
  | [], branch, listed => absurd listed List.not_mem_nil
  | child :: children, branch, listed => by
      rw [subtreesAll] at listed
      rcases List.mem_append.mp listed with here | later
      · exact (labels_of_mem_subtrees here).trans (List.sublist_append_left _ _)
      · exact (labels_of_mem_subtreesAll later).trans (List.sublist_append_right _ _)

end

mutual

/-- The labels of the outermost wanted subtrees are those at and below wanted ones. -/
theorem mem_labels_outermost {other : α} : ∀ {tree : RoseTree α},
    other ∈ labelsAll (outermost wanted tree) ↔
      ∃ branch ∈ subtrees tree, wanted branch.label = true ∧ other ∈ labels branch
  | .node label children => by
      have below : other ∈ labelsAll (outermostAll wanted children) ↔
          ∃ branch ∈ subtreesAll children, wanted branch.label = true ∧
            other ∈ labels branch := mem_labelsAll_outermostAll
      rw [outermost, subtrees]
      cases here : wanted label with
      | true =>
          rw [if_pos rfl, labelsAll, labelsAll, List.append_nil]
          constructor
          · exact fun present => ⟨_, List.mem_cons_self, here, present⟩
          · rintro ⟨branch, listed, _, present⟩
            have inside : branch ∈ subtrees (.node label children) := by
              rw [subtrees]
              exact listed
            exact (labels_of_mem_subtrees inside).subset present
      | false =>
          rw [if_neg Bool.false_ne_true, below]
          simp [here]

/-- The same for several trees. -/
theorem mem_labelsAll_outermostAll {other : α} : ∀ {trees : List (RoseTree α)},
    other ∈ labelsAll (outermostAll wanted trees) ↔
      ∃ branch ∈ subtreesAll trees, wanted branch.label = true ∧ other ∈ labels branch
  | [] => by simp [outermostAll, subtreesAll, labelsAll]
  | child :: children => by
      rw [outermostAll, labelsAll_append, List.mem_append, subtreesAll,
        mem_labels_outermost, mem_labelsAll_outermostAll]
      simp only [List.mem_append]
      constructor
      · rintro (⟨branch, listed, rest⟩ | ⟨branch, listed, rest⟩)
        · exact ⟨branch, .inl listed, rest⟩
        · exact ⟨branch, .inr listed, rest⟩
      · rintro ⟨branch, listed | listed, rest⟩
        · exact .inl ⟨branch, listed, rest⟩
        · exact .inr ⟨branch, listed, rest⟩

end

theorem outermostAll_eq_nil : ∀ {trees : List (RoseTree α)},
    (∀ label ∈ labelsAll trees, wanted label = false) → outermostAll wanted trees = []
  | [], _ => rfl
  | .node label below :: children, unwanted => by
      rw [labelsAll, labels, List.forall_mem_append, List.forall_mem_cons] at unwanted
      obtain ⟨⟨here, inside⟩, rest⟩ := unwanted
      rw [outermostAll, outermost, here, if_neg Bool.false_ne_true,
        outermostAll_eq_nil inside, outermostAll_eq_nil rest, List.nil_append]

theorem findAll?_eq_none : ∀ {trees : List (RoseTree α)},
    (∀ label ∈ labelsAll trees, wanted label = false) → findAll? wanted trees = none
  | [], _ => rfl
  | .node label below :: children, unwanted => by
      rw [labelsAll, labels, List.forall_mem_append, List.forall_mem_cons] at unwanted
      obtain ⟨⟨here, inside⟩, rest⟩ := unwanted
      rw [findAll?, find?, here, if_neg Bool.false_ne_true, findAll?_eq_none inside,
        findAll?_eq_none rest]

/-- Where at most one label is wanted, the outermost subtree is the one that is found. -/
theorem outermostAll_eq_toList : ∀ {trees : List (RoseTree α)},
    (labelsAll trees).countP wanted ≤ 1 → outermostAll wanted trees = (findAll? wanted trees).toList
  | [], _ => rfl
  | .node label below :: children, single => by
      rw [labelsAll, labels, List.cons_append, List.countP_cons, List.countP_append] at single
      rw [outermostAll, outermost, findAll?, find?]
      cases here : wanted label with
      | true =>
          rw [here, if_pos rfl] at single
          have rest : outermostAll wanted children = [] :=
            outermostAll_eq_nil (unwanted_of_countP (by omega))
          rw [rest]
          rfl
      | false =>
          rw [here, if_neg Bool.false_ne_true] at single
          have first : outermostAll wanted below = (findAll? wanted below).toList :=
            outermostAll_eq_toList (by omega)
          have second : outermostAll wanted children = (findAll? wanted children).toList :=
            outermostAll_eq_toList (by omega)
          rw [if_neg Bool.false_ne_true, if_neg Bool.false_ne_true, first, second]
          cases found : findAll? wanted below with
          | none => rfl
          | some branch =>
              have counted : 0 < (labelsAll below).countP wanted := by
                refine List.countP_pos_iff.mpr ⟨branch.label, ?_, wanted_of_findAll? found⟩
                exact (findAll?_labels found).subset (label_mem_labels branch)
              have rest : findAll? wanted children = none :=
                findAll?_eq_none (unwanted_of_countP (by omega))
              rw [rest]
              rfl

mutual

/-- The outermost wanted subtrees stand in the order of the tree. -/
theorem outermost_sublist_subtrees : ∀ tree : RoseTree α,
    (outermost wanted tree).Sublist (subtrees tree)
  | .node label children => by
      rw [outermost, subtrees]
      split_ifs
      · exact (List.nil_sublist _).cons_cons _
      · exact (outermostAll_sublist_subtreesAll children).cons _

/-- The same for several trees. -/
theorem outermostAll_sublist_subtreesAll : ∀ trees : List (RoseTree α),
    (outermostAll wanted trees).Sublist (subtreesAll trees)
  | [] => List.Sublist.refl _
  | child :: children => by
      rw [outermostAll, subtreesAll]
      exact (outermost_sublist_subtrees child).append (outermostAll_sublist_subtreesAll children)

end

mutual

/-- One subtree for each label. -/
theorem map_label_subtrees : ∀ tree : RoseTree α, (subtrees tree).map label = labels tree
  | .node own children => by
      rw [subtrees, labels, List.map_cons, map_label_subtreesAll children, label_node]

/-- The same for several trees. -/
theorem map_label_subtreesAll : ∀ trees : List (RoseTree α),
    (subtreesAll trees).map label = labelsAll trees
  | [] => rfl
  | child :: children => by
      rw [subtreesAll, labelsAll, List.map_append, map_label_subtrees child,
        map_label_subtreesAll children]

end

theorem labelsAll_eq_flatMap (trees : List (RoseTree α)) :
    labelsAll trees = trees.flatMap labels := by
  induction trees with
  | nil => rfl
  | cons tree trees ih =>
      rw [labelsAll, List.flatMap_cons, ih]

end Outermost

section Update

variable {wanted : α → Bool} {change : RoseTree α → RoseTree α}

mutual

/-- The tree with every outermost wanted subtree changed. -/
def update (wanted : α → Bool) (change : RoseTree α → RoseTree α) : RoseTree α → RoseTree α
  | .node label children =>
      if wanted label then change (.node label children)
      else .node label (updateAll wanted change children)

/-- Several trees with the wanted subtrees changed. -/
def updateAll (wanted : α → Bool) (change : RoseTree α → RoseTree α) :
    List (RoseTree α) → List (RoseTree α)
  | [] => []
  | child :: children => update wanted change child :: updateAll wanted change children

end

/-- Nothing wanted, nothing changed. -/
theorem updateAll_eq_self : ∀ {trees : List (RoseTree α)},
    (∀ label ∈ labelsAll trees, wanted label = false) → updateAll wanted change trees = trees
  | [], _ => rfl
  | .node label below :: children, unwanted => by
      rw [labelsAll, labels, List.forall_mem_append, List.forall_mem_cons] at unwanted
      obtain ⟨⟨here, inside⟩, rest⟩ := unwanted
      rw [updateAll, update, here, if_neg Bool.false_ne_true, updateAll_eq_self inside,
        updateAll_eq_self rest]

/-- Where at most one label is wanted, a splice that puts one tree in the place of what it
finds is an update. -/
theorem spliceAll_eq_updateAll : ∀ {trees after : List (RoseTree α)},
    (labelsAll trees).countP wanted ≤ 1 →
      spliceAll wanted (fun found => [change found]) trees = some after →
        after = updateAll wanted change trees
  | [], after, _, spliced => by cases spliced
  | .node label below :: children, after, single, spliced => by
      rw [labelsAll, labels, List.cons_append, List.countP_cons, List.countP_append] at single
      rw [spliceAll, label_node] at spliced
      rw [updateAll, update]
      cases here : wanted label with
      | true =>
          rw [here, if_pos rfl] at spliced single
          cases spliced
          have rest : updateAll wanted change children = children :=
            updateAll_eq_self (unwanted_of_countP (by omega))
          rw [if_pos rfl, rest, List.singleton_append]
      | false =>
          rw [here, if_neg Bool.false_ne_true] at spliced single
          rw [if_neg Bool.false_ne_true]
          cases first : splice wanted (fun found => [change found]) (.node label below) with
          | some changed =>
              rw [first] at spliced
              cases spliced
              obtain ⟨inside, found, rfl⟩ := Option.map_eq_some_iff.mp first
              have counted := countP_pos_of_spliceAll found
              have rest : updateAll wanted change children = children :=
                updateAll_eq_self (unwanted_of_countP (by omega))
              rw [rest, spliceAll_eq_updateAll (by omega) found]
          | none =>
              rw [first] at spliced
              obtain ⟨changed, found, rfl⟩ := Option.map_eq_some_iff.mp spliced
              have missing : spliceAll wanted (fun found => [change found]) below = none :=
                Option.map_eq_none_iff.mp first
              rw [updateAll_eq_self (spliceAll_eq_none_iff.mp missing),
                spliceAll_eq_updateAll (by omega) found]

/-- The same below a root that is not wanted. -/
theorem splice_eq_update {tree after : RoseTree α} (top : wanted tree.label = false)
    (single : (labelsAll tree.children).countP wanted ≤ 1)
    (spliced : splice wanted (fun found => [change found]) tree = some after) :
    after = update wanted change tree := by
  cases tree with
  | node label children =>
      obtain ⟨changed, found, rfl⟩ := Option.map_eq_some_iff.mp spliced
      rw [label_node] at top
      rw [update, top, if_neg Bool.false_ne_true, spliceAll_eq_updateAll single found,
        children_node]

end Update

section Rearrange

variable {wanted : α → Bool}
variable {change : List (RoseTree α) → RoseTree α → List (RoseTree α) → Option (List (RoseTree α))}

mutual

/-- Where siblings are only put in another order, so are the labels. -/
theorem labels_rearrange_perm
    (reorders : ∀ passed child rest changed, change passed child rest = some changed →
      changed.Perm (passed ++ child :: rest)) :
    ∀ {tree after : RoseTree α}, rearrange wanted change tree = some (some after) →
      after.label = tree.label ∧ (labels after).Perm (labels tree)
  | .node label children, after, rearranged => by
      obtain ⟨changed, found, here⟩ := Option.map_eq_some_iff.mp rearranged
      obtain ⟨siblings, rfl, rfl⟩ := Option.map_eq_some_iff.mp here
      have moved := labelsAll_rearrangeAll_perm reorders found
      rw [List.nil_append] at moved
      exact ⟨rfl, moved.cons label⟩

/-- The same among siblings. -/
theorem labelsAll_rearrangeAll_perm
    (reorders : ∀ passed child rest changed, change passed child rest = some changed →
      changed.Perm (passed ++ child :: rest)) :
    ∀ {passed trees after : List (RoseTree α)},
      rearrangeAll wanted change passed trees = some (some after) →
        (labelsAll after).Perm (labelsAll (passed ++ trees))
  | passed, [], after, rearranged => by cases rearranged
  | passed, child :: children, after, rearranged => by
      rw [rearrangeAll] at rearranged
      split_ifs at rearranged with isWanted
      · have moved := reorders passed child children after (Option.some.inj rearranged)
        exact labelsAll_perm moved
      · cases first : rearrange wanted change child with
        | some changed =>
            rw [first] at rearranged
            obtain ⟨inner, rfl, rfl⟩ := Option.map_eq_some_iff.mp (Option.some.inj rearranged)
            have moved := (labels_rearrange_perm reorders first).2
            rw [labelsAll_append, labelsAll_append, labelsAll, labelsAll]
            exact (moved.append_right _).append_left _
        | none =>
            rw [first] at rearranged
            have moved := labelsAll_rearrangeAll_perm reorders rearranged
            rwa [List.append_assoc, List.singleton_append] at moved

end

end Rearrange

section Alike

variable {β : Type v} {first second : α → β}

theorem label_map (change : α → β) (tree : RoseTree α) :
    (tree.map change).label = change tree.label := by
  cases tree
  rfl

theorem children_map (change : α → β) (tree : RoseTree α) :
    (tree.map change).children = mapAll change tree.children := by
  cases tree
  rfl

theorem length_mapAll (change : α → β) : ∀ trees : List (RoseTree α),
    (mapAll change trees).length = trees.length
  | [] => rfl
  | tree :: trees => by
      rw [mapAll, List.length_cons, List.length_cons, length_mapAll change trees]

/-- Trees that are changed into the same tree have the same shape. -/
theorem length_labels_of_map {tree other : RoseTree α} (same : tree.map first = other.map second) :
    tree.labels.length = other.labels.length := by
  have sizes := congrArg (fun tree => (labels tree).length) same
  simpa only [labels_map, List.length_map] using sizes

theorem length_children_of_map {tree other : RoseTree α}
    (same : tree.map first = other.map second) :
    tree.children.length = other.children.length := by
  have sizes := congrArg (fun tree => (children tree).length) same
  simpa only [children_map, length_mapAll] using sizes

mutual

/-- Two changes of a tree do the same exactly if they do the same to every label. -/
theorem map_eq_map_iff : ∀ tree : RoseTree α,
    tree.map first = tree.map second ↔ ∀ label ∈ labels tree, first label = second label
  | .node label children => by
      rw [map, map, labels, List.forall_mem_cons, ← mapAll_eq_mapAll_iff children]
      exact ⟨fun same => RoseTree.node.inj same, fun both => by rw [both.1, both.2]⟩

theorem mapAll_eq_mapAll_iff : ∀ trees : List (RoseTree α),
    mapAll first trees = mapAll second trees ↔ ∀ label ∈ labelsAll trees, first label = second label
  | [] => by
      rw [mapAll, mapAll, labelsAll]
      exact iff_of_true rfl (List.forall_mem_nil _)
  | tree :: trees => by
      rw [mapAll, mapAll, labelsAll, List.forall_mem_append, ← map_eq_map_iff tree,
        ← mapAll_eq_mapAll_iff trees]
      exact ⟨fun same => List.cons.inj same, fun both => by rw [both.1, both.2]⟩

end

end Alike

end RoseTree
