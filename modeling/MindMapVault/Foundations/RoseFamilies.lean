import MindMapVault.Foundations.RoseEdits

/-!
# Families of a tree

A node with the names of its children, in their order, is a family. The families of a
tree in preorder say what every node carries, who is whose child and which sibling comes
before which. Pruning drops families and names from families; children that are put
under a node come with their families and extend the one of the node.
-/

universe u v

namespace RoseTree

variable {α : Type u} {κ : Type v} (read : α → κ)

/-- The names of the roots of several trees. -/
def names (trees : List (RoseTree α)) : List κ := trees.map fun tree => read tree.label

mutual

/-- Every node with the names of its children. -/
def families : RoseTree α → List (α × List κ)
  | .node label children => (label, names read children) :: familiesAll children

/-- The same for several trees. -/
def familiesAll : List (RoseTree α) → List (α × List κ)
  | [] => []
  | child :: children => families child ++ familiesAll children

end

section Basic

theorem familiesAll_append (first second : List (RoseTree α)) :
    familiesAll read (first ++ second) = familiesAll read first ++ familiesAll read second := by
  induction first with
  | nil => rfl
  | cons child children ih =>
      rw [List.cons_append, familiesAll, familiesAll, ih, List.append_assoc]

mutual

/-- One family for each label. -/
theorem map_fst_families : ∀ tree : RoseTree α, (families read tree).map Prod.fst = labels tree
  | .node label children => by
      rw [families, labels, List.map_cons, map_fst_familiesAll children]

/-- The same for several trees. -/
theorem map_fst_familiesAll : ∀ trees : List (RoseTree α),
    (familiesAll read trees).map Prod.fst = labelsAll trees
  | [] => rfl
  | child :: children => by
      rw [familiesAll, labelsAll, List.map_append, map_fst_families child,
        map_fst_familiesAll children]

end

/-- The label of a family is one of the tree. -/
theorem label_of_mem_familiesAll {trees : List (RoseTree α)} {family : α × List κ}
    (present : family ∈ familiesAll read trees) : family.1 ∈ labelsAll trees := by
  rw [← map_fst_familiesAll read]
  exact List.mem_map_of_mem present

/-- The names in a family are those of nodes of the trees. -/
theorem name_of_mem_familiesAll : ∀ {trees : List (RoseTree α)} {family : α × List κ},
    family ∈ familiesAll read trees → ∀ name ∈ family.2, name ∈ (labelsAll trees).map read
  | [], family, present, _, _ => absurd present List.not_mem_nil
  | .node label below :: children, family, present, name, listed => by
      rw [familiesAll, families, List.cons_append, List.mem_cons, List.mem_append] at present
      rw [labelsAll, labels, List.cons_append, List.map_cons, List.map_append]
      rcases present with rfl | inside | beside
      · obtain ⟨child, here, rfl⟩ := List.mem_map.mp listed
        have own : child.label ∈ labelsAll below := by
          rw [labelsAll_eq_flatMap]
          exact List.mem_flatMap.mpr ⟨child, here, label_mem_labels child⟩
        exact List.mem_cons_of_mem _ (List.mem_append_left _ (List.mem_map_of_mem own))
      · exact List.mem_cons_of_mem _ (List.mem_append_left _
          (name_of_mem_familiesAll inside name listed))
      · exact List.mem_cons_of_mem _ (List.mem_append_right _
          (name_of_mem_familiesAll beside name listed))

end Basic

section Prune

variable (test : κ → Bool) (kept : α → Bool)

/-- A family without the children of some names. -/
def forsake (family : α × List κ) : α × List κ := (family.1, family.2.filter fun name => !test name)

theorem names_pruneAll (trees : List (RoseTree α)) :
    names read (pruneAll (fun label => test (read label)) trees) =
      (names read trees).filter fun name => !test name := by
  induction trees with
  | nil => rfl
  | cons tree children hyp =>
      cases tree with
      | node label below =>
          rw [pruneAll, label_node]
          cases here : test (read label) with
          | true =>
              rw [if_pos rfl, hyp]
              simp [names, here]
          | false =>
              rw [if_neg Bool.false_ne_true]
              simp only [names, List.map_cons, label_prune, label_node] at hyp ⊢
              rw [hyp, List.filter_cons_of_pos (by simp [here])]

/-- No node of these trees is kept. -/
theorem filter_familiesAll_of_not (trees : List (RoseTree α))
    (none : ∀ label ∈ labelsAll trees, kept label = false) :
    (familiesAll read trees).filter (fun family => kept family.1) = [] ∧
      (familiesAll read trees).filter (fun family => !kept family.1) = familiesAll read trees := by
  constructor
  · refine List.filter_eq_nil_iff.mpr fun family present => ?_
    simp [none _ (label_of_mem_familiesAll read present)]
  · refine List.filter_eq_self.mpr fun family present => ?_
    simp [none _ (label_of_mem_familiesAll read present)]

variable {kept}

/-- What is left after pruning are the families of the kept nodes, without the pruned
children, and what is pruned are the families of the others. -/
theorem familiesAll_pruneAll : ∀ {trees : List (RoseTree α)},
    (∀ label ∈ labelsAll (pruneAll (fun label => test (read label)) trees), kept label = true) →
    (∀ label ∈ labelsAll (outermostAll (fun label => test (read label)) trees),
      kept label = false) →
      familiesAll read (pruneAll (fun label => test (read label)) trees) =
          ((familiesAll read trees).filter fun family => kept family.1).map (forsake test) ∧
        familiesAll read (outermostAll (fun label => test (read label)) trees) =
          (familiesAll read trees).filter fun family => !kept family.1
  | [], _, _ => ⟨rfl, rfl⟩
  | .node label below :: children, stays, goes => by
      rw [pruneAll, label_node] at stays ⊢
      rw [outermostAll, outermost] at goes ⊢
      cases here : test (read label) with
      | true =>
          rw [here, if_pos rfl] at stays goes
          rw [List.singleton_append, labelsAll, List.forall_mem_append] at goes
          obtain ⟨left, right⟩ := familiesAll_pruneAll stays goes.2
          have dropped := filter_familiesAll_of_not read kept [.node label below]
            (by simpa [labelsAll] using goes.1)
          rw [familiesAll, familiesAll, List.append_nil] at dropped
          rw [if_pos rfl, if_pos rfl, List.singleton_append, familiesAll, familiesAll,
            List.filter_append, List.filter_append, List.map_append, dropped.1, dropped.2, left,
            right]
          exact ⟨rfl, rfl⟩
      | false =>
          rw [here, if_neg Bool.false_ne_true] at stays goes
          rw [labelsAll, prune, labels, List.forall_mem_append, List.forall_mem_cons] at stays
          rw [labelsAll_append, List.forall_mem_append] at goes
          obtain ⟨leftBelow, rightBelow⟩ := familiesAll_pruneAll stays.1.2 goes.1
          obtain ⟨left, right⟩ := familiesAll_pruneAll stays.2 goes.2
          rw [if_neg Bool.false_ne_true, if_neg Bool.false_ne_true, familiesAll_append,
            familiesAll, familiesAll, prune, families, families, names_pruneAll, leftBelow, left,
            rightBelow, right, List.filter_append, List.filter_append, List.map_append,
            List.filter_cons, if_pos stays.1.1, List.filter_cons_of_neg (by simp [stays.1.1])]
          exact ⟨rfl, rfl⟩

end Prune

section Grow

/-- A tree with more children, and another label at its root. -/
def grown (opened : α → α) (extra : List (RoseTree α)) : RoseTree α → RoseTree α
  | .node label children => .node (opened label) (children ++ extra)

/-- The family of a wanted node with more children. -/
def adopt (wanted : α → Bool) (opened : α → α) (extra : List κ) (family : α × List κ) :
    α × List κ :=
  if wanted family.1 then (opened family.1, family.2 ++ extra) else family

variable {read} {wanted : α → Bool} {opened : α → α} {extra : List (RoseTree α)}

/-- No node of these trees has more children. -/
theorem map_adopt_of_not {trees : List (RoseTree α)} {names : List κ}
    (none : ∀ label ∈ labelsAll trees, wanted label = false) :
    (familiesAll read trees).map (adopt wanted opened names) = familiesAll read trees := by
  refine (List.map_congr_left fun family present => ?_).trans (List.map_id _)
  have unwanted := none _ (label_of_mem_familiesAll read present)
  simp [adopt, unwanted]

theorem label_update (same : ∀ label, wanted label = true → read (opened label) = read label)
    (tree : RoseTree α) :
    read (update wanted (grown opened extra) tree).label = read tree.label := by
  cases tree with
  | node label children =>
      rw [update]
      split_ifs with here
      · exact same label here
      · rfl

theorem names_updateAll (same : ∀ label, wanted label = true → read (opened label) = read label)
    (trees : List (RoseTree α)) :
    names read (updateAll wanted (grown opened extra) trees) = names read trees := by
  induction trees with
  | nil => rfl
  | cons child children ih =>
      simp only [names, updateAll, List.map_cons] at ih ⊢
      rw [ih, label_update same]

variable (read opened extra) in
/-- Where one node is wanted, more children under it come with their families. -/
theorem familiesAll_updateAll_perm
    (same : ∀ label, wanted label = true → read (opened label) = read label) :
    ∀ {trees : List (RoseTree α)}, (labelsAll trees).countP wanted = 1 →
      (familiesAll read (updateAll wanted (grown opened extra) trees)).Perm
        ((familiesAll read trees).map (adopt wanted opened (names read extra)) ++
          familiesAll read extra)
  | [], single => nomatch single
  | .node label below :: children, single => by
      rw [labelsAll, labels, List.cons_append, List.countP_cons, List.countP_append] at single
      rw [updateAll, update, familiesAll, familiesAll, List.map_append]
      cases here : wanted label with
      | true =>
          rw [here, if_pos rfl] at single
          have beside := unwanted_of_countP (show (labelsAll children).countP wanted ≤ 0 by omega)
          have inside := unwanted_of_countP (show (labelsAll below).countP wanted ≤ 0 by omega)
          rw [if_pos rfl, updateAll_eq_self beside, map_adopt_of_not beside, grown, families,
            families, List.map_cons, map_adopt_of_not inside, familiesAll_append]
          have family : adopt wanted opened (names read extra) (label, names read below) =
              (opened label, names read (below ++ extra)) := by
            rw [adopt, if_pos here, names, names, names, List.map_append]
          rw [family, List.cons_append, List.cons_append, List.append_assoc,
            List.cons_append, List.append_assoc]
          exact (List.perm_append_comm.append_left _).cons _
      | false =>
          rw [here, if_neg Bool.false_ne_true] at single
          rw [if_neg Bool.false_ne_true, families, families, List.map_cons, names_updateAll same]
          have family : adopt wanted opened (names read extra) (label, names read below) =
              (label, names read below) := by
            rw [adopt, if_neg (by simp [here])]
          rw [family, List.cons_append, List.cons_append, List.cons_append]
          refine List.Perm.cons _ ?_
          by_cases inside : (labelsAll below).countP wanted = 1
          · have beside :=
              unwanted_of_countP (show (labelsAll children).countP wanted ≤ 0 by omega)
            rw [updateAll_eq_self beside, map_adopt_of_not beside]
            refine ((familiesAll_updateAll_perm same inside).append_right _).trans ?_
            rw [List.append_assoc, List.append_assoc]
            exact List.perm_append_comm.append_left _
          · have below_none :=
              unwanted_of_countP (show (labelsAll below).countP wanted ≤ 0 by omega)
            rw [updateAll_eq_self below_none, map_adopt_of_not below_none, List.append_assoc]
            exact (familiesAll_updateAll_perm same (by omega)).append_left _

end Grow

section Found

variable {wanted : α → Bool} {change : RoseTree α → RoseTree α}

mutual

/-- What is found is a subtree. -/
theorem mem_subtrees_of_find? : ∀ {tree found : RoseTree α},
    find? wanted tree = some found → found ∈ subtrees tree
  | .node label children, found, here => by
      rw [find?] at here
      rw [subtrees]
      split_ifs at here
      · cases here
        exact List.mem_cons_self
      · exact List.mem_cons_of_mem _ (mem_subtreesAll_of_findAll? here)

/-- The same in several trees. -/
theorem mem_subtreesAll_of_findAll? : ∀ {trees : List (RoseTree α)} {found : RoseTree α},
    findAll? wanted trees = some found → found ∈ subtreesAll trees
  | [], found, here => nomatch here
  | child :: children, found, here => by
      rw [findAll?] at here
      rw [subtreesAll]
      cases first : find? wanted child with
      | some other =>
          rw [first] at here
          cases here
          exact List.mem_append_left _ (mem_subtrees_of_find? first)
      | none =>
          rw [first] at here
          exact List.mem_append_right _ (mem_subtreesAll_of_findAll? here)

end

/-- A wanted subtree is found where at most one label is wanted. -/
theorem findAll?_of_mem : ∀ {trees : List (RoseTree α)} {branch : RoseTree α},
    (labelsAll trees).countP wanted ≤ 1 → branch ∈ subtreesAll trees →
      wanted branch.label = true → findAll? wanted trees = some branch
  | [], branch, _, present, _ => absurd present List.not_mem_nil
  | .node label below :: children, branch, single, present, isWanted => by
      rw [labelsAll, labels, List.cons_append, List.countP_cons, List.countP_append] at single
      rw [subtreesAll, subtrees, List.cons_append, List.mem_cons, List.mem_append] at present
      have counts : ∀ trees : List (RoseTree α), branch ∈ subtreesAll trees →
          0 < (labelsAll trees).countP wanted := fun trees present =>
        List.countP_pos_iff.mpr ⟨branch.label, (labels_of_mem_subtreesAll present).subset
          (label_mem_labels branch), isWanted⟩
      rw [findAll?, find?]
      rcases present with rfl | inside | beside
      · rw [label_node] at isWanted
        rw [if_pos isWanted]
      · have counted := counts below inside
        have unwanted : wanted label = false := by
          by_contra here
          rw [Bool.not_eq_false] at here
          rw [here, if_pos rfl] at single
          omega
        rw [unwanted, if_neg Bool.false_ne_true, findAll?_of_mem (by omega) inside isWanted]
      · have counted := counts children beside
        have unwanted : wanted label = false := by
          by_contra here
          rw [Bool.not_eq_false] at here
          rw [here, if_pos rfl] at single
          omega
        rw [unwanted, if_neg Bool.false_ne_true,
          findAll?_eq_none (unwanted_of_countP (by omega)),
          findAll?_of_mem (by omega) beside isWanted]

/-- The same in one tree. -/
theorem find?_of_mem {tree branch : RoseTree α} (single : (labels tree).countP wanted ≤ 1)
    (present : branch ∈ subtrees tree) (isWanted : wanted branch.label = true) :
    find? wanted tree = some branch := by
  have listed : branch ∈ subtreesAll [tree] := by
    rw [subtreesAll, subtreesAll, List.append_nil]
    exact present
  have found := findAll?_of_mem (by rwa [labelsAll, labelsAll, List.append_nil]) listed isWanted
  rw [findAll?] at found
  cases here : find? wanted tree with
  | some other =>
      rw [here] at found
      exact found
  | none =>
      rw [here] at found
      exact nomatch found

theorem self_mem_subtrees (tree : RoseTree α) : tree ∈ subtrees tree := by
  cases tree with
  | node label children => exact List.mem_cons_self

/-- A tree among several is a subtree of theirs. -/
theorem mem_subtreesAll_of_mem {trees : List (RoseTree α)} {tree : RoseTree α}
    (present : tree ∈ trees) : tree ∈ subtreesAll trees := by
  induction trees with
  | nil => exact absurd present List.not_mem_nil
  | cons child children ih =>
      rw [subtreesAll]
      rcases List.mem_cons.mp present with rfl | later
      · exact List.mem_append_left _ (self_mem_subtrees tree)
      · exact List.mem_append_right _ (ih later)

/-- A subtree of a subtree is one of the tree. -/
theorem subtreesAll_subset_of_mem : ∀ {trees : List (RoseTree α)} {branch : RoseTree α},
    branch ∈ subtreesAll trees → subtrees branch ⊆ subtreesAll trees
  | [], branch, present => absurd present List.not_mem_nil
  | .node label below :: children, branch, present => by
      rw [subtreesAll, subtrees, List.cons_append, List.mem_cons, List.mem_append] at present
      rw [subtreesAll, subtrees]
      rcases present with rfl | inside | beside
      · rw [subtrees]
        exact List.subset_append_left _ _
      · exact List.Subset.trans (subtreesAll_subset_of_mem inside)
          (List.Subset.trans (List.subset_cons_self _ _) (List.subset_append_left _ _))
      · exact List.Subset.trans (subtreesAll_subset_of_mem beside) (List.subset_append_right _ _)

/-- A child of a subtree is one of the tree. -/
theorem mem_subtrees_of_child {tree branch child : RoseTree α}
    (present : branch ∈ subtrees tree) (below : child ∈ branch.children) :
    child ∈ subtrees tree := by
  have listed : branch ∈ subtreesAll [tree] := by
    rw [subtreesAll, subtreesAll, List.append_nil]
    exact present
  have inside : child ∈ subtrees branch := by
    cases branch with
    | node label children => exact List.mem_cons_of_mem _ (mem_subtreesAll_of_mem below)
  have member := subtreesAll_subset_of_mem listed inside
  rwa [subtreesAll, subtreesAll, List.append_nil] at member

mutual

/-- An update changes what is found, where it stays wanted. -/
theorem find?_update (stays : ∀ tree, wanted tree.label = true →
      wanted (change tree).label = true) :
    ∀ tree : RoseTree α, find? wanted (update wanted change tree) = (find? wanted tree).map change
  | .node label children => by
      rw [update, find?]
      cases here : wanted label with
      | true =>
          rw [if_pos rfl, if_pos rfl, Option.map_some]
          have still := stays (.node label children) here
          cases changed : change (.node label children) with
          | node other below =>
              rw [changed, label_node] at still
              rw [find?, if_pos still]
      | false =>
          rw [if_neg Bool.false_ne_true, if_neg Bool.false_ne_true, find?, here,
            if_neg Bool.false_ne_true, findAll?_updateAll stays children]

/-- The same in several trees. -/
theorem findAll?_updateAll (stays : ∀ tree, wanted tree.label = true →
      wanted (change tree).label = true) :
    ∀ trees : List (RoseTree α),
      findAll? wanted (updateAll wanted change trees) = (findAll? wanted trees).map change
  | [] => rfl
  | child :: children => by
      rw [updateAll, findAll?, findAll?, find?_update stays child]
      cases first : find? wanted child with
      | some found => rfl
      | none =>
          rw [Option.map_none]
          exact findAll?_updateAll stays children

end

end Found

section Parent

variable {wanted : α → Bool}

mutual

/-- The label of the parent of the first wanted descendant in preorder. -/
def findParent? (wanted : α → Bool) : RoseTree α → Option α
  | .node label children => findParentAll? wanted label children

/-- The same among the children of a node. -/
def findParentAll? (wanted : α → Bool) (parent : α) : List (RoseTree α) → Option α
  | [] => none
  | child :: children =>
      if wanted child.label then some parent
      else
        match findParent? wanted child with
        | some found => some found
        | none => findParentAll? wanted parent children

end

mutual

/-- A node has a parent exactly where a splice finds it. -/
theorem isSome_findParent? (change : RoseTree α → List (RoseTree α)) :
    ∀ tree : RoseTree α, (findParent? wanted tree).isSome = (splice wanted change tree).isSome
  | .node label children => by
      rw [findParent?, splice, Option.isSome_map, isSome_findParentAll? change label children]

/-- The same among the children of a node. -/
theorem isSome_findParentAll? (change : RoseTree α → List (RoseTree α)) (parent : α) :
    ∀ trees : List (RoseTree α),
      (findParentAll? wanted parent trees).isSome = (spliceAll wanted change trees).isSome
  | [] => rfl
  | child :: children => by
      rw [findParentAll?, spliceAll]
      split_ifs
      · rfl
      · have inside := isSome_findParent? change child
        have beside := isSome_findParentAll? change parent children
        cases first : findParent? wanted child with
        | some found =>
            rw [first] at inside
            cases spliced : splice wanted change child with
            | some after => rfl
            | none =>
                rw [spliced] at inside
                exact nomatch inside
        | none =>
            rw [first] at inside
            cases spliced : splice wanted change child with
            | some after =>
                rw [spliced] at inside
                exact nomatch inside
            | none => rw [beside, Option.isSome_map]

end

mutual

/-- The parent of what is taken out is still there. -/
theorem mem_labels_of_findParent? : ∀ {tree after : RoseTree α} {parent : α},
    findParent? wanted tree = some parent → splice wanted (fun _ => []) tree = some after →
      parent ∈ labels after
  | .node label children, after, parent, found, spliced => by
      obtain ⟨changed, here, rfl⟩ := Option.map_eq_some_iff.mp spliced
      rw [labels, List.mem_cons]
      exact mem_labelsAll_of_findParentAll? found here

/-- The same among the children of a node. -/
theorem mem_labelsAll_of_findParentAll? :
    ∀ {trees after : List (RoseTree α)} {own parent : α},
      findParentAll? wanted own trees = some parent →
        spliceAll wanted (fun _ => []) trees = some after → parent = own ∨ parent ∈ labelsAll after
  | [], after, own, parent, found, _ => nomatch found
  | child :: children, after, own, parent, found, spliced => by
      rw [findParentAll?] at found
      rw [spliceAll] at spliced
      split_ifs at found spliced
      · exact .inl (Option.some.inj found).symm
      · have both : (findParent? wanted child).isSome =
            (splice wanted (fun _ => []) child).isSome := isSome_findParent? _ child
        cases first : findParent? wanted child with
        | some other =>
            rw [first] at found both
            cases here : splice wanted (fun _ => []) child with
            | none =>
                rw [here] at both
                exact nomatch both
            | some changed =>
                rw [here] at spliced
                cases found
                cases spliced
                rw [labelsAll, List.mem_append]
                exact .inr (.inl (mem_labels_of_findParent? first here))
        | none =>
            rw [first] at found both
            cases here : splice wanted (fun _ => []) child with
            | some changed =>
                rw [here] at both
                exact nomatch both
            | none =>
                rw [here] at spliced
                obtain ⟨rest, later, rfl⟩ := Option.map_eq_some_iff.mp spliced
                rw [labelsAll, List.mem_append]
                exact (mem_labelsAll_of_findParentAll? found later).imp id .inr

end

end Parent

end RoseTree
