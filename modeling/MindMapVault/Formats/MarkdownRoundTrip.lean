import MindMapVault.Formats.MarkdownGrowth

/-!
# Maps that come back from Markdown

An export and its import with the text of the root as the title. The root is found below one
node or two that the file has for the title, and these are taken off again.
-/

namespace MindMapVault
namespace Formats

open RoseTree hiding node

section Unwrap

variable {text : Chars} {tree : MindMapTreeNode}

/-- Either a node has an only child, or it has none or several. -/
theorem exists_only (alone : tree.children.length = 1) :
    ∃ node only, tree = .node node [only] := by
  obtain ⟨node, children⟩ := tree
  obtain ⟨only, same⟩ := List.length_eq_one_iff.mp alone
  exact ⟨node, only, congrArg _ same⟩

theorem echo_of_children (text : Chars) (several : tree.children.length ≠ 1) :
    echo text tree = tree := by
  unfold echo
  split
  · exact absurd rfl several
  · rfl

theorem promote_of_children (several : tree.children.length ≠ 1) : promote tree = tree := by
  unfold promote
  split
  · exact absurd rfl several
  · rfl

theorem unwrap_of_children (several : tree.children.length ≠ 1) : unwrap tree = tree := by
  unfold unwrap
  split
  · exact absurd rfl several
  · rfl

theorem length_only (node : NodeFields) (only : MindMapTreeNode) :
    (RoseTree.node node [only]).labels.length = only.labels.length + 1 := by
  rw [RoseTree.labels, labelsAll, labelsAll, List.append_nil, List.length_cons]

theorem length_promote_le (tree : MindMapTreeNode) :
    (promote tree).labels.length ≤ tree.labels.length := by
  by_cases alone : tree.children.length = 1
  · obtain ⟨node, only, rfl⟩ := exists_only alone
    rw [promote, length_only]
    exact Nat.le_succ _
  · rw [promote_of_children alone]

/-- Dropping the echo of the title adds no node. -/
theorem length_echo_le (text : Chars) : ∀ tree : MindMapTreeNode,
    (echo text tree).labels.length ≤ tree.labels.length
  | .node node children => by
      by_cases alone : (RoseTree.node node children).children.length = 1
      · match children, alone with
        | [only], _ =>
            rw [echo]
            split_ifs
            · rw [length_only]
              exact (length_echo_le text only).trans (Nat.le_succ _)
            · exact le_refl _
      · rw [echo_of_children text alone]

/-- The parent of an only child is taken off. -/
theorem length_promote_echo_lt (alone : tree.children.length = 1) :
    (promote (echo text tree)).labels.length < tree.labels.length := by
  obtain ⟨node, only, rfl⟩ := exists_only alone
  rw [echo, length_only]
  split_ifs
  · exact Nat.lt_succ_of_le ((length_promote_le _).trans (length_echo_le text only))
  · rw [promote]
    exact Nat.lt_succ_self _

theorem length_relabel (change : NodeFields → NodeFields) (tree : MindMapTreeNode) :
    (relabel change tree).labels.length = tree.labels.length := by
  cases tree
  rw [relabel, RoseTree.labels, RoseTree.labels, List.length_cons, List.length_cons]

variable {root node : NodeFields} {wrapped : MindMapTreeNode}

theorem unwrap_of_ne (other : wrapped.label.text ≠ root.text) :
    unwrap (.node root [wrapped]) = .node root [wrapped] := by
  rw [unwrap, if_neg other]

theorem unwrap_of_eq (same : wrapped.label.text = root.text) :
    unwrap (.node root [wrapped]) =
      relabel (fun current => { current with id := root.id, text := root.text })
        (promote (echo root.text wrapped)) := by
  rw [unwrap, if_pos same]

end Unwrap

section File

variable {fmtDate : Chars → Chars} {ids : Nat → String} {toIsoDate : Chars → Chars}
variable {root : MindMapTreeNode} {title : Chars}

/-- The lines of a file, with a heading above the root or without. -/
def fileLines (fmtDate : Chars → Chars) (root : MindMapTreeNode) : Option Chars → List Chars
  | none => treeLines fmtDate root 0
  | some heading => ('#' :: ' ' :: escapeMarkdown heading) :: [] :: treeLines fmtDate root 1

theorem fileLines_head (root : MindMapTreeNode) (heading : Option Chars) :
    ∃ line lines, fileLines fmtDate root heading = ('#' :: line) :: lines := by
  cases heading with
  | none =>
      cases root with
      | node node children =>
          rw [fileLines, treeLines, nodeLines, headLine, if_pos rfl]
          exact ⟨_, _, rfl⟩
  | some heading => exact ⟨_, _, rfl⟩

/-- An export is the lines of its file. -/
theorem treeToMarkdown_eq {vaultTitle : Option Chars} (root : MindMapTreeNode)
    (nonblank : ∀ title ∈ vaultTitle, Ecma.trimChars title ≠ []) :
    treeToMarkdown fmtDate root vaultTitle =
      join "\n" (fileLines fmtDate root (vaultTitle.map Ecma.trimChars)) := by
  cases vaultTitle with
  | none =>
      have joined : join "\n" [nodeToMarkdown fmtDate root 0] = nodeToMarkdown fmtDate root 0 :=
        List.intercalate_singleton
      exact joined.trans (nodeToMarkdown_eq fmtDate root 0)
  | some title =>
      have said : Ecma.trimChars title ≠ [] := nonblank title rfl
      have nonempty : title ≠ [] := by
        rintro rfl
        exact said rfl
      have joined : join "\n" (['#' :: ' ' :: escapeMarkdown (Ecma.trimChars title), []] ++
            [join "\n" (treeLines fmtDate root 1)]) =
          join "\n" (['#' :: ' ' :: escapeMarkdown (Ecma.trimChars title), []] ++
            (treeLines fmtDate root 1 ++ [])) :=
        join_append (treeLines_ne_nil fmtDate root 1) []
      rw [List.append_nil] at joined
      rw [treeToMarkdown, nodeToMarkdown_eq]
      simp only [Option.getD_some, if_neg said, if_neg nonempty]
      exact joined

theorem stripFrontmatter_join {lines : List Chars} (line : Chars) :
    stripFrontmatter (join "\n" (('#' :: line) :: lines)) = join "\n" (('#' :: line) :: lines) := by
  cases lines with
  | nil =>
      have joined : join "\n" ['#' :: line] = '#' :: line := List.intercalate_singleton
      rw [joined]
      exact stripFrontmatter_heading line
  | cons other lines =>
      rw [join_cons_cons]
      exact stripFrontmatter_heading _

/-- What is read of a file, before the root is unwrapped. -/
def readFile (ids : Nat → String) (toIsoDate : Chars → Chars) (title : Chars)
    (lines : List Chars) : Reading :=
  (pieces lines).foldl (readLine ids toIsoDate) (noLines ids title)

theorem obsidianMarkdownToTree_eq (root : MindMapTreeNode) (heading : Option Chars)
    (title : Chars) :
    ∃ id, obsidianMarkdownToTree ids toIsoDate (join "\n" (fileLines fmtDate root heading)) title =
      unwrap (orPlaceholder id
        (readFile ids toIsoDate title (fileLines fmtDate root heading)).close) := by
  have starts : ∃ line lines, fileLines fmtDate root heading = ('#' :: line) :: lines :=
    fileLines_head root heading
  obtain ⟨line, lines, same⟩ := starts
  rw [same, obsidianMarkdownToTree, stripFrontmatter_join, splitOn_join (List.cons_ne_nil _ _)]
  exact ⟨_, rfl⟩

theorem pieces_eq {lines : List Chars} (oneLine : ∀ line ∈ lines, '\n' ∉ line) :
    pieces lines = lines := by
  induction lines with
  | nil => rfl
  | cons line lines ih =>
      obtain ⟨first, others⟩ := List.forall_mem_cons.mp oneLine
      rw [pieces] at ih ⊢
      rw [List.flatMap_cons, List.splitOn_eq_singleton first, ih others, List.singleton_append]

theorem essence_fst (node : NodeFields) : (essence node).1 = node.text := rfl

theorem readEssence_fst (node : NodeFields) : (readEssence node).1 = readText node.text := by
  rw [readEssence]

/-- The root as it is read, and what it stands in. -/
structure Wrapped (root : MindMapTreeNode) (heading : Chars) (read wrapped : MindMapTreeNode) :
    Prop where
  same : read.map essence = root.map readEssence
  text : wrapped.label.text = readText heading
  below : wrapped = read ∨ ∃ after, wrapped = .node after [read]

/-- A file of texts on one line is read as a tree below the title. -/
theorem readFile_close (title : Chars) {heading : Option Chars}
    (trimmed : ∀ text ∈ heading, Ecma.trimChars text = text ∧ text ≠ [] ∧ '\n' ∉ text)
    (readable : ∀ node ∈ root.labels, Readable fmtDate node)
    (oneLine : ∀ node ∈ root.labels, '\n' ∉ node.text) :
    ∃ read wrapped, Wrapped root (heading.getD root.label.text) read wrapped ∧
      (readFile ids toIsoDate title (fileLines fmtDate root heading)).close =
        .node (makeNode (ids 0) title) [wrapped] := by
  have each (node : NodeFields) (listed : node ∈ root.labels) :
      Carried fmtDate node ∧ '\n' ∉ node.text :=
    ⟨(readable node listed).carried, oneLine node listed⟩
  cases heading with
  | none =>
      have lines : pieces (treeLines fmtDate root 0) = treeLines fmtDate root 0 :=
        pieces_eq (not_mem_treeLines root each)
      have closed : ∃ read : MindMapTreeNode, read.map essence = root.map readEssence ∧
          ((treeLines fmtDate root 0).foldl (readLine ids toIsoDate) (noLines ids title)).close =
            .node (makeNode (ids 0) title) [read] := close_untitled title readable
      obtain ⟨read, same, closes⟩ := closed
      refine ⟨read, read, ⟨same, ?_, .inl rfl⟩, ?_⟩
      · have labels := congrArg RoseTree.label same
        rw [label_map, label_map] at labels
        have texts := congrArg Prod.fst labels
        rw [essence_fst, readEssence_fst] at texts
        exact texts
      · rw [readFile, fileLines, lines]
        exact closes
  | some heading =>
      obtain ⟨whole, nonempty, noBreak⟩ := trimmed heading rfl
      have first : '\n' ∉ '#' :: ' ' :: escapeMarkdown heading := by
        have escaped := not_mem_escapeMarkdown noBreak
        simp [escaped]
      have lines : pieces (fileLines fmtDate root (some heading)) =
          fileLines fmtDate root (some heading) :=
        pieces_eq (List.forall_mem_cons.mpr ⟨first,
          List.forall_mem_cons.mpr ⟨List.not_mem_nil, not_mem_treeLines root each⟩⟩)
      have closed : ∃ (read : MindMapTreeNode) (after : NodeFields),
          read.map essence = root.map readEssence ∧ after.text = readText heading ∧
            after.notes = [] ∧
              ((('#' :: ' ' :: escapeMarkdown heading) :: [] :: treeLines fmtDate root 1).foldl
                (readLine ids toIsoDate) (noLines ids title)).close =
                .node (makeNode (ids 0) title) [.node after [read]] :=
        close_titled title whole nonempty readable
      obtain ⟨read, after, same, text, -, closes⟩ := closed
      refine ⟨read, .node after [read], ⟨same, text, .inr ⟨after, rfl⟩⟩, ?_⟩
      rw [readFile, lines]
      exact closes

/-- Any file adds nodes with clean texts to the title. -/
theorem readFile_texts (title : Chars) (lines : List Chars) :
    ∃ added, (readFile ids toIsoDate title lines).close.labels.map NodeFields.text =
        (makeNode (ids 0) title).text :: added ∧ ∀ text ∈ added, Clean text := by
  have run : ∃ added, (readFile ids toIsoDate title lines).texts =
      (noLines ids title).texts ++ added ∧ ∀ text ∈ added, Clean text :=
    readLines_texts (noLines ids title) oneLine_pieces
  obtain ⟨added, grows, clean⟩ := run
  exact ⟨added, (labels_close _).trans grows, clean⟩

end File

section Inner

variable {text : Chars} {tree : MindMapTreeNode} {property : Chars → Prop}

/-- The texts below the root. -/
def innerTexts (tree : MindMapTreeNode) : List Chars :=
  (labelsAll tree.children).map NodeFields.text

theorem texts_eq (tree : MindMapTreeNode) :
    tree.labels.map NodeFields.text = tree.label.text :: innerTexts tree := by
  rw [labels_eq, List.map_cons, innerTexts]

theorem innerTexts_only (node : NodeFields) (only : MindMapTreeNode) :
    innerTexts (.node node [only]) = only.label.text :: innerTexts only := by
  rw [← texts_eq, innerTexts, RoseTree.children, labelsAll, labelsAll, List.append_nil]

theorem innerTexts_promote (each : ∀ text ∈ innerTexts tree, property text) :
    ∀ text ∈ innerTexts (promote tree), property text := by
  by_cases alone : tree.children.length = 1
  · obtain ⟨node, only, rfl⟩ := exists_only alone
    rw [innerTexts_only] at each
    rw [promote]
    exact (List.forall_mem_cons.mp each).2
  · rwa [promote_of_children alone]

theorem innerTexts_echo (text : Chars) : ∀ tree : MindMapTreeNode,
    (∀ text ∈ innerTexts tree, property text) →
      ∀ inner ∈ innerTexts (echo text tree), property inner
  | .node node children, each => by
      by_cases alone : (RoseTree.node node children).children.length = 1
      · match children, alone with
        | [only], _ =>
            rw [echo]
            split_ifs
            · rw [innerTexts_only] at each
              exact innerTexts_echo text only (List.forall_mem_cons.mp each).2
            · exact each
      · rwa [echo_of_children text alone]

theorem innerTexts_relabel (change : NodeFields → NodeFields) (tree : MindMapTreeNode) :
    innerTexts (relabel change tree) = innerTexts tree := by
  cases tree
  rfl

theorem label_relabel (change : NodeFields → NodeFields) (tree : MindMapTreeNode) :
    (relabel change tree).label = change tree.label := by
  cases tree
  rfl

theorem label_unwrap (tree : MindMapTreeNode) :
    (unwrap tree).label.text = tree.label.text := by
  by_cases alone : tree.children.length = 1
  · obtain ⟨node, only, rfl⟩ := exists_only alone
    by_cases same : only.label.text = node.text
    · rw [unwrap_of_eq same, label_relabel]
      rfl
    · rw [unwrap_of_ne same]
  · rw [unwrap_of_children alone]

/-- Below an unwrapped root there are only nodes that were below the root. -/
theorem innerTexts_unwrap (each : ∀ text ∈ innerTexts tree, property text) :
    ∀ text ∈ innerTexts (unwrap tree), property text := by
  by_cases alone : tree.children.length = 1
  · obtain ⟨node, only, rfl⟩ := exists_only alone
    by_cases same : only.label.text = node.text
    · rw [innerTexts_only] at each
      rw [unwrap_of_eq same, innerTexts_relabel]
      exact innerTexts_promote (innerTexts_echo _ only (List.forall_mem_cons.mp each).2)
    · rwa [unwrap_of_ne same]
  · rwa [unwrap_of_children alone]

theorem orPlaceholder_of_children (id : String) (nonempty : tree.children ≠ []) :
    orPlaceholder id tree = tree := by
  unfold orPlaceholder
  split
  · exact absurd rfl nonempty
  · rfl

/-- A placeholder has a clean text. -/
theorem orPlaceholder_spec (id : String) (tree : MindMapTreeNode) :
    (orPlaceholder id tree).label = tree.label ∧
      ((∀ text ∈ innerTexts tree, Clean text) →
        ∀ text ∈ innerTexts (orPlaceholder id tree), Clean text) := by
  unfold orPlaceholder
  split
  · refine ⟨rfl, fun _ text listed => ?_⟩
    rw [innerTexts_only] at listed
    rw [List.mem_singleton.mp listed]
    exact clean_makeNode id (by decide)
  · exact ⟨rfl, fun each => each⟩

variable {ids : Nat → String} {toIsoDate : Chars → Chars}

/-- Whatever is imported, the root has the title, and the texts below it are clean. -/
theorem obsidianMarkdownToTree_texts (md title : Chars) :
    (obsidianMarkdownToTree ids toIsoDate md title).label.text =
        (makeNode (ids 0) title).text ∧
      ∀ text ∈ innerTexts (obsidianMarkdownToTree ids toIsoDate md title), Clean text := by
  have file : ∃ added, (readFile ids toIsoDate title [stripFrontmatter md]).close.labels.map
      NodeFields.text = (makeNode (ids 0) title).text :: added ∧ ∀ text ∈ added, Clean text :=
    readFile_texts title _
  obtain ⟨added, texts, clean⟩ := file
  rw [readFile, pieces, List.flatMap_singleton, texts_eq] at texts
  obtain ⟨own, inner⟩ := List.cons.inj texts
  rw [← inner] at clean
  rw [obsidianMarkdownToTree, label_unwrap, (orPlaceholder_spec _ _).1]
  exact ⟨own, innerTexts_unwrap ((orPlaceholder_spec _ _).2 clean)⟩

end Inner

end Formats
end MindMapVault
