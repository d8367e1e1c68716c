import Mathlib.Data.List.Basic

/-!
# Trees with any number of children

A tree is walked in preorder. A walk that carries a state and changes the labels does to
the list of labels what the same walk does along a list, so facts about such a walk are
facts about lists.
-/

universe u v w

/-- A tree with a label at each node. -/
inductive RoseTree (α : Type u)
  | node (label : α) (children : List (RoseTree α))

namespace RoseTree

/-- A walk along a list that carries a state. -/
def walkList {σ : Type u} {α : Type v} {β : Type w} (visit : σ → α → σ × β) :
    σ → List α → σ × List β
  | state, [] => (state, [])
  | state, item :: items =>
      let visited := visit state item
      let walked := walkList visit visited.1 items
      (walked.1, visited.2 :: walked.2)

section WalkList

variable {σ : Type u} {α : Type v} {β : Type w} (visit : σ → α → σ × β)

/-- A walk along a list goes through its parts one after the other. -/
theorem walkList_append (state : σ) (first second : List α) :
    walkList visit state (first ++ second) =
      ((walkList visit (walkList visit state first).1 second).1,
        (walkList visit state first).2 ++
          (walkList visit (walkList visit state first).1 second).2) := by
  induction first generalizing state with
  | nil => rfl
  | cons item items ih =>
      simp only [List.cons_append, walkList, ih]

end WalkList

variable {σ : Type u} {α : Type v} {β : Type w}

mutual

/-- The labels in preorder. -/
def labels : RoseTree α → List α
  | .node label children => label :: labelsAll children

/-- The labels of several trees, one tree after the other. -/
def labelsAll : List (RoseTree α) → List α
  | [] => []
  | child :: children => labels child ++ labelsAll children

end

mutual

/-- A walk through a tree that carries a state. -/
def walk (visit : σ → α → σ × β) : σ → RoseTree α → σ × RoseTree β
  | state, .node label children =>
      let visited := visit state label
      let walked := walkAll visit visited.1 children
      (walked.1, .node visited.2 walked.2)

/-- A walk through several trees. -/
def walkAll (visit : σ → α → σ × β) : σ → List (RoseTree α) → σ × List (RoseTree β)
  | state, [] => (state, [])
  | state, child :: children =>
      let first := walk visit state child
      let rest := walkAll visit first.1 children
      (rest.1, first.2 :: rest.2)

end

section Walk

variable (visit : σ → α → σ × β)

mutual

/-- A walk through a tree is a walk along its labels. -/
theorem walk_labels (state : σ) : ∀ tree : RoseTree α,
    ((walk visit state tree).1, labels (walk visit state tree).2) =
      walkList visit state (labels tree)
  | .node label children => by
      have along := walkAll_labels (visit state label).1 children
      simp only [walk, labels, walkList, ← along]

/-- A walk through several trees is one along their labels. -/
theorem walkAll_labels (state : σ) : ∀ trees : List (RoseTree α),
    ((walkAll visit state trees).1, labelsAll (walkAll visit state trees).2) =
      walkList visit state (labelsAll trees)
  | [] => rfl
  | child :: children => by
      have first := walk_labels state child
      have rest := walkAll_labels (walk visit state child).1 children
      rw [labelsAll, walkList_append, ← first, ← rest]
      simp only [walkAll, labelsAll]

end

end Walk

mutual

/-- The tree with every label changed. -/
def map (change : α → β) : RoseTree α → RoseTree β
  | .node label children => .node (change label) (mapAll change children)

/-- Several trees with every label changed. -/
def mapAll (change : α → β) : List (RoseTree α) → List (RoseTree β)
  | [] => []
  | child :: children => map change child :: mapAll change children

end

section Map

variable {γ : Type w}

mutual

/-- Changing the labels of a tree changes the list of them. -/
theorem labels_map (change : α → β) : ∀ tree : RoseTree α,
    labels (map change tree) = (labels tree).map change
  | .node label children => by
      simp only [map, labels, List.map_cons, labelsAll_mapAll change children]

/-- Changing the labels of several trees changes the list of them. -/
theorem labelsAll_mapAll (change : α → β) : ∀ trees : List (RoseTree α),
    labelsAll (mapAll change trees) = (labelsAll trees).map change
  | [] => rfl
  | child :: children => by
      simp only [mapAll, labelsAll, List.map_append, labels_map change child,
        labelsAll_mapAll change children]

end

mutual

/-- Changing the labels twice is changing them once. -/
theorem map_map (after : β → γ) (change : α → β) : ∀ tree : RoseTree α,
    map after (map change tree) = map (after ∘ change) tree
  | .node label children => by
      simp only [map, mapAll_mapAll after change children, Function.comp_apply]

/-- The same for several trees. -/
theorem mapAll_mapAll (after : β → γ) (change : α → β) : ∀ trees : List (RoseTree α),
    mapAll after (mapAll change trees) = mapAll (after ∘ change) trees
  | [] => rfl
  | child :: children => by
      simp only [mapAll, map_map after change child, mapAll_mapAll after change children]

end

mutual

theorem map_id : ∀ tree : RoseTree α, map id tree = tree
  | .node label children => congrArg (RoseTree.node label) (mapAll_id children)

theorem mapAll_id : ∀ trees : List (RoseTree α), mapAll id trees = trees
  | [] => rfl
  | child :: children => congrArg₂ List.cons (map_id child) (mapAll_id children)

end

mutual

/-- What no round of a walk changes in a label, the walk does not change in the tree. -/
theorem map_walk {visit : σ → α → σ × β} {before : α → γ} {after : β → γ}
    (keeps : ∀ state label, after (visit state label).2 = before label) (state : σ) :
    ∀ tree : RoseTree α, map after (walk visit state tree).2 = map before tree
  | .node label children => by
      simp only [walk, map, keeps, mapAll_walkAll keeps _ children]

/-- The same for several trees. -/
theorem mapAll_walkAll {visit : σ → α → σ × β} {before : α → γ} {after : β → γ}
    (keeps : ∀ state label, after (visit state label).2 = before label) (state : σ) :
    ∀ trees : List (RoseTree α), mapAll after (walkAll visit state trees).2 = mapAll before trees
  | [] => rfl
  | child :: children => by
      simp only [walkAll, mapAll, map_walk keeps state child, mapAll_walkAll keeps _ children]

end

end Map

section Search

/-- The label of the root. -/
def label : RoseTree α → α
  | .node label _ => label

@[simp] theorem label_node (label : α) (children : List (RoseTree α)) :
    (node label children).label = label := rfl

mutual

/-- The first subtree in preorder whose label is wanted. -/
def find? (wanted : α → Bool) : RoseTree α → Option (RoseTree α)
  | .node label children =>
      if wanted label then some (.node label children) else findAll? wanted children

/-- The first one in several trees. -/
def findAll? (wanted : α → Bool) : List (RoseTree α) → Option (RoseTree α)
  | [] => none
  | child :: children =>
      match find? wanted child with
      | some found => some found
      | none => findAll? wanted children

end

mutual

/-- The outermost subtrees whose labels are wanted, in preorder. -/
def outermost (wanted : α → Bool) : RoseTree α → List (RoseTree α)
  | .node label children =>
      if wanted label then [.node label children] else outermostAll wanted children

/-- The outermost ones of several trees. -/
def outermostAll (wanted : α → Bool) : List (RoseTree α) → List (RoseTree α)
  | [] => []
  | child :: children => outermost wanted child ++ outermostAll wanted children

end

mutual

/-- The tree in which the first descendant in preorder whose label is wanted has given
way to other trees. -/
def splice (wanted : α → Bool) (change : RoseTree α → List (RoseTree α)) :
    RoseTree α → Option (RoseTree α)
  | .node label children => (spliceAll wanted change children).map (.node label)

/-- The same for several trees, the roots of which count as descendants. -/
def spliceAll (wanted : α → Bool) (change : RoseTree α → List (RoseTree α)) :
    List (RoseTree α) → Option (List (RoseTree α))
  | [] => none
  | child :: children =>
      if wanted child.label then
        some (change child ++ children)
      else
        match splice wanted change child with
        | some changed => some (changed :: children)
        | none => (spliceAll wanted change children).map (child :: ·)

end

theorem labelsAll_append (first second : List (RoseTree α)) :
    labelsAll (first ++ second) = labelsAll first ++ labelsAll second := by
  induction first with
  | nil => rfl
  | cons child children ih =>
      rw [List.cons_append, labelsAll, labelsAll, ih, List.append_assoc]

variable {wanted : α → Bool} {change : RoseTree α → List (RoseTree α)}

mutual

/-- The labels of a subtree that is found stand together. -/
theorem find?_labels : ∀ {tree found : RoseTree α}, find? wanted tree = some found →
    List.Sublist (labels found) (labels tree)
  | .node label children, found, here => by
      rw [find?] at here
      split_ifs at here with isWanted
      · cases here
        exact List.Sublist.refl _
      · exact (findAll?_labels here).cons label

/-- The same in several trees. -/
theorem findAll?_labels : ∀ {trees : List (RoseTree α)} {found : RoseTree α},
    findAll? wanted trees = some found → List.Sublist (labels found) (labelsAll trees)
  | [], found, here => by cases here
  | child :: children, found, here => by
      rw [findAll?] at here
      cases first : find? wanted child with
      | some other =>
          rw [first] at here
          cases here
          exact (find?_labels first).trans (List.sublist_append_left _ _)
      | none =>
          rw [first] at here
          exact (findAll?_labels here).trans (List.sublist_append_right _ _)

end

mutual

/-- A label that is wanted is found. -/
theorem find?_isSome : ∀ {tree : RoseTree α} {label : α}, label ∈ labels tree →
    wanted label = true → (find? wanted tree).isSome = true
  | .node own children, label, present, isWanted => by
      rw [find?]
      split_ifs with here
      · rfl
      · rw [labels] at present
        rcases List.mem_cons.mp present with rfl | below
        · exact absurd isWanted here
        · exact findAll?_isSome below isWanted

/-- The same for several trees. -/
theorem findAll?_isSome : ∀ {trees : List (RoseTree α)} {label : α},
    label ∈ labelsAll trees → wanted label = true → (findAll? wanted trees).isSome = true
  | [], label, present, _ => by cases present
  | child :: children, label, present, isWanted => by
      rw [findAll?]
      cases first : find? wanted child with
      | some found => rfl
      | none =>
          rw [labelsAll] at present
          rcases List.mem_append.mp present with here | later
          · have found := find?_isSome here isWanted
            rw [first] at found
            cases found
          · exact findAll?_isSome later isWanted

end

mutual

/-- The labels of the outermost subtrees are labels of the tree, in order. -/
theorem outermost_labels : ∀ tree : RoseTree α,
    List.Sublist (labelsAll (outermost wanted tree)) (labels tree)
  | .node label children => by
      rw [outermost]
      split_ifs
      · rw [labelsAll, labelsAll, List.append_nil]
      · exact (outermostAll_labels children).cons label

/-- The same for several trees. -/
theorem outermostAll_labels : ∀ trees : List (RoseTree α),
    List.Sublist (labelsAll (outermostAll wanted trees)) (labelsAll trees)
  | [] => List.Sublist.refl _
  | child :: children => by
      rw [outermostAll, labelsAll_append]
      exact (outermost_labels child).append (outermostAll_labels children)

end

mutual

/-- A splice changes the labels at one place, where those of a wanted subtree were. -/
theorem splice_labels : ∀ {tree after : RoseTree α}, splice wanted change tree = some after →
    ∃ before found rest, wanted found.label = true ∧
      labels tree = before ++ labels found ++ rest ∧
      labels after = before ++ labelsAll (change found) ++ rest
  | .node label children, after, spliced => by
      obtain ⟨changed, here, rfl⟩ := Option.map_eq_some_iff.mp spliced
      obtain ⟨before, found, rest, isWanted, old, new⟩ := spliceAll_labels here
      exact ⟨label :: before, found, rest, isWanted, by simp [labels, old], by simp [labels, new]⟩

/-- The same for several trees. -/
theorem spliceAll_labels : ∀ {trees after : List (RoseTree α)},
    spliceAll wanted change trees = some after →
      ∃ before found rest, wanted found.label = true ∧
        labelsAll trees = before ++ labels found ++ rest ∧
        labelsAll after = before ++ labelsAll (change found) ++ rest
  | [], after, spliced => by cases spliced
  | child :: children, after, spliced => by
      rw [spliceAll] at spliced
      split_ifs at spliced with isWanted
      · cases spliced
        exact ⟨[], child, labelsAll children, isWanted, rfl,
          by rw [labelsAll_append, List.nil_append]⟩
      · cases first : splice wanted change child with
        | some changed =>
            rw [first] at spliced
            cases spliced
            obtain ⟨before, found, rest, holds, old, new⟩ := splice_labels first
            exact ⟨before, found, rest ++ labelsAll children, holds,
              by simp [labelsAll, old], by simp [labelsAll, new]⟩
        | none =>
            rw [first] at spliced
            obtain ⟨changed, here, rfl⟩ := Option.map_eq_some_iff.mp spliced
            obtain ⟨before, found, rest, holds, old, new⟩ := spliceAll_labels here
            exact ⟨labels child ++ before, found, rest, holds,
              by simp [labelsAll, old], by simp [labelsAll, new]⟩

end

end Search

end RoseTree
