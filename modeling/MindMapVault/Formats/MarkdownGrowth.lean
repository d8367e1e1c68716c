import Mathlib.Data.List.ModifyLast
import MindMapVault.Formats.MarkdownTexts

/-!
# What every line adds

Whatever a file is, the loop over its lines adds nodes at the end of what is read, and their
texts are neither empty nor have they line breaks. A line that an export writes for a node adds
at least one.
-/

namespace MindMapVault
namespace Formats

open Regex
open RoseTree hiding node

section Labels

/-- The nodes of a stack, from the root on. -/
def stackLabels : List Frame → List NodeFields
  | [] => []
  | frame :: below => stackLabels below ++ frame.toTree.labels

/-- The texts of the nodes that are read so far. -/
def Reading.texts (reading : Reading) : List Chars :=
  (stackLabels (reading.top :: reading.below)).map NodeFields.text

variable {reading : Reading}

/-- A node that is pushed comes last. -/
theorem labels_push (frame : Frame) (child : MindMapTreeNode) :
    (frame.push child).toTree.labels = frame.toTree.labels ++ child.labels := by
  rw [Frame.push, Frame.toTree, Frame.toTree, RoseTree.labels, RoseTree.labels,
    labelsAll_append,
    labelsAll, labelsAll, List.append_nil, List.cons_append]

/-- Closing nodes leaves all of them there. -/
theorem stackLabels_popTo (level : Nat) : ∀ (below : List Frame) (top : Frame),
    stackLabels ((popTo level top below).1 :: (popTo level top below).2) =
      stackLabels (top :: below)
  | [], _ => rfl
  | parent :: below, top => by
      rw [popTo]
      split_ifs
      · rw [stackLabels_popTo level below, stackLabels, labels_push, stackLabels, stackLabels,
          List.append_assoc]
      · rfl

theorem popTo_zero : ∀ (below : List Frame) (top : Frame), (popTo 0 top below).2 = []
  | [], _ => rfl
  | parent :: below, top => by
      rw [popTo, if_pos (Nat.zero_le _)]
      exact popTo_zero below _

/-- Closing the frames keeps the texts in order. -/
theorem labels_close (reading : Reading) :
    reading.close.labels.map NodeFields.text = reading.texts := by
  have whole := stackLabels_popTo 0 reading.below reading.top
  rw [popTo_zero, stackLabels, stackLabels, List.nil_append] at whole
  rw [Reading.close, Reading.texts, whole]

/-- A node that is opened adds its text. -/
theorem texts_openNode (node : NodeFields) (level : Nat) :
    (reading.openNode node level).texts = reading.texts ++ [node.text] := by
  have before := stackLabels_popTo level reading.below reading.top
  rw [Reading.texts, Reading.openNode, stackLabels, before, List.map_append, Reading.texts,
    Frame.toTree, RoseTree.labels, labelsAll]
  rfl

theorem texts_push (reading : Reading) (node : NodeFields) (drawn : Nat) (lastIsChild : Bool) :
    Reading.texts ⟨drawn, reading.top.push (.node node []), reading.below, lastIsChild⟩ =
      reading.texts ++ [node.text] := by
  rw [Reading.texts, Reading.texts, stackLabels, stackLabels, labels_push, RoseTree.labels,
    labelsAll, ← List.append_assoc, List.map_append]
  rfl

theorem texts_relabel {change : NodeFields → NodeFields}
    (same : ∀ node, (change node).text = node.text) (tree : MindMapTreeNode) :
    (relabel change tree).labels.map NodeFields.text = tree.labels.map NodeFields.text := by
  cases tree
  rw [relabel, RoseTree.labels, RoseTree.labels, List.map_cons, List.map_cons, same]

theorem texts_modifyLast {change : NodeFields → NodeFields}
    (same : ∀ node, (change node).text = node.text) (trees : List MindMapTreeNode) :
    (labelsAll (trees.modifyLast (relabel change))).map NodeFields.text =
      (labelsAll trees).map NodeFields.text := by
  rcases List.eq_nil_or_concat trees with rfl | ⟨front, last, rfl⟩
  · rfl
  · rw [List.concat_eq_append, List.modifyLast_concat,
      labelsAll_append, labelsAll_append,
      List.map_append, List.map_append, labelsAll, labelsAll, labelsAll,
      labelsAll, List.append_nil, List.append_nil, texts_relabel same]

/-- A change that keeps texts keeps them all. -/
theorem texts_changeLast {change : NodeFields → NodeFields}
    (same : ∀ node, (change node).text = node.text) :
    (reading.changeLast change).texts = reading.texts := by
  unfold Reading.changeLast
  split_ifs
  · simp only [Reading.texts, stackLabels, Frame.toTree, RoseTree.labels, List.map_append,
      List.map_cons, texts_modifyLast same]
  · simp only [Reading.texts, stackLabels, Frame.toTree, RoseTree.labels, List.map_append,
      List.map_cons, same]

end Labels

section Clean

variable {ids : Nat → String} {toIsoDate : Chars → Chars} {line text : Chars}

/-- A text that is there and on one line. -/
structure Clean (text : Chars) : Prop where
  nonempty : text ≠ []
  oneLine : '\n' ∉ text

theorem trimChars_sublist (text : Chars) : (Ecma.trimChars text).Sublist text :=
  (thins_trimChars fun _ white => white_isWritten white).sublist text

/-- What is trimmed, or a placeholder for it. -/
theorem clean_trimOr (oneLine : '\n' ∉ text) : Clean (trimOr "Untitled" text) := by
  unfold trimOr
  split_ifs with blank
  · exact ⟨by decide, by decide⟩
  · exact ⟨blank, fun inside => oneLine ((trimChars_sublist text).subset inside)⟩

theorem clean_makeNode (id : String) (oneLine : '\n' ∉ text) : Clean (makeNode id text).text := by
  have own : (makeNode id text).text = trimOr "Untitled" text := by rw [makeNode]
  rw [own]
  exact clean_trimOr oneLine

theorem rest_sublist {pattern : Regex} {step : Regex.Step}
    (found : match? pattern text = some step) : step.rest.Sublist text := by
  obtain ⟨⟨before, found⟩, isFound, rfl⟩ := Option.map_eq_some_iff.mp found
  rw [(find?_spec isFound).2]
  exact (List.sublist_append_right _ _).trans (List.sublist_append_right _ _)

theorem rest_getD_sublist (pattern : Regex) (text : Chars) :
    (((match? pattern text).map Regex.Step.rest).getD text).Sublist text := by
  cases found : match? pattern text with
  | none => exact .refl _
  | some step => exact rest_sublist found

/-- What stands before a text is only cut off. -/
theorem parseInlinePrefix_sublist (text : Chars) : (parseInlinePrefix text).text.Sublist text :=
  (takeIcons_sublist _ _).trans
    ((rest_getD_sublist progressPrefix _).trans (rest_getD_sublist checkboxPrefix text))

theorem clean_nodeOf (id : String) (checked : Option Bool) (oneLine : '\n' ∉ text) :
    Clean (nodeOf id checked text).text := by
  rw [nodeOf_text]
  refine clean_trimOr fun inside => oneLine ?_
  exact ((cleanText_sublist _).trans (parseInlinePrefix_sublist text)).subset inside

theorem not_mem_group {pattern : Regex} {step : Regex.Step} {index : Nat}
    (fills : pattern.Fills index Ecma.isDot)
    (found : match? (.seq .start pattern) text = some step) :
    '\n' ∉ Ecma.trimChars (Regex.group index step.groups) :=
  fun inside => not_mem_of_dots (fills.of_match? found) ((trimChars_sublist _).subset inside)

theorem fills_dots (index : Nat) :
    (Regex.capture index (.many Ecma.isDot)).Fills index Ecma.isDot :=
  fills_capture (within_run _ _ _)

theorem not_mem_matchHeading {level : Nat} {headingText : Chars}
    (heading : matchHeading line = some (level, headingText)) : '\n' ∉ headingText := by
  obtain ⟨step, found, same⟩ := Option.map_eq_some_iff.mp heading
  rw [← (Prod.mk.inj same).2]
  exact not_mem_group (fills_dots 2).after.after found

theorem not_mem_taskItem {depth : Nat} (oneLine : '\n' ∉ text) :
    '\n' ∉ (taskItem depth text).2.1 := by
  rw [taskItem]
  split
  · rename_i step found
    exact not_mem_group (fills_dots 2).after.after.after.after found
  · exact fun inside => oneLine ((trimChars_sublist _).subset inside)

theorem not_mem_matchItem {mark : Regex} {item : Nat × Chars × Option Bool}
    (matched : matchItem mark line = some item) : '\n' ∉ item.2.1 := by
  obtain ⟨step, found, rfl⟩ := Option.map_eq_some_iff.mp matched
  refine not_mem_taskItem (not_mem_of_dots ?_)
  exact (fills_dots 2).after.after.after.of_match? found

theorem not_mem_matchItems {item : Nat × Chars × Option Bool}
    (matched : (matchListItem line).or (matchOrderedListItem line) = some item) :
    '\n' ∉ item.2.1 := by
  rcases Option.or_eq_some_iff.mp matched with bullet | ⟨-, number⟩
  · exact not_mem_matchItem bullet
  · exact not_mem_matchItem number

/-- A line adds nodes with clean texts, if any. -/
theorem readLine_texts (reading : Reading) (oneLine : '\n' ∉ line) :
    ∃ added, (readLine ids toIsoDate reading line).texts = reading.texts ++ added ∧
      ∀ text ∈ added, Clean text := by
  have unchanged : ∃ added, reading.texts = reading.texts ++ added ∧
      ∀ text ∈ added, Clean text :=
    ⟨[], (List.append_nil _).symm, List.forall_mem_nil _⟩
  have one {after : Reading} {text : Chars} (grows : after.texts = reading.texts ++ [text])
      (clean : Clean text) : ∃ added, after.texts = reading.texts ++ added ∧
        ∀ text ∈ added, Clean text :=
    ⟨[text], grows, fun _ listed => List.mem_singleton.mp listed ▸ clean⟩
  unfold readLine
  dsimp only
  split_ifs
  · exact unchanged
  · exact unchanged
  split
  · rename_i level headingText heading
    exact one (texts_openNode _ _) (clean_nodeOf _ _ (not_mem_matchHeading heading))
  split
  · rename_i depth itemText checked item
    exact one (texts_openNode _ _) (clean_nodeOf _ _ (not_mem_matchItems item))
  split
  · rename_i found _
    rw [texts_changeLast fun node => congrArg Prod.fst (applyMetadata_essence found node)]
    exact unchanged
  split
  · rw [texts_changeLast fun node => by rw [applyNote_eq]]
    exact unchanged
  · have trimmed : (Ecma.trimEnd line).Sublist line :=
      (thins_trimEnd fun _ white => white_isWritten white).sublist line
    have clean := clean_makeNode (ids reading.drawn)
      fun inside => oneLine (((cleanText_sublist _).trans trimmed).subset inside)
    have grows := texts_push reading
      (makeNode (ids reading.drawn) (cleanText (Ecma.trimEnd line))) (reading.drawn + 1) true
    exact one grows clean

/-- Lines add nodes with clean texts, if any. -/
theorem readLines_texts : ∀ {lines : List Chars} (reading : Reading),
    (∀ line ∈ lines, '\n' ∉ line) →
      ∃ added, (lines.foldl (readLine ids toIsoDate) reading).texts = reading.texts ++ added ∧
        ∀ text ∈ added, Clean text
  | [], reading, _ =>
      ⟨[], (List.append_nil _).symm, List.forall_mem_nil _⟩
  | line :: lines, reading, oneLine => by
      obtain ⟨first, others⟩ := List.forall_mem_cons.mp oneLine
      have step : ∃ added, (readLine ids toIsoDate reading line).texts = reading.texts ++ added ∧
          ∀ text ∈ added, Clean text := readLine_texts reading first
      obtain ⟨added, grows, clean⟩ := step
      obtain ⟨more, growsMore, cleanMore⟩ :=
        readLines_texts (readLine ids toIsoDate reading line) others
      refine ⟨added ++ more, ?_, List.forall_mem_append.mpr ⟨clean, cleanMore⟩⟩
      rw [List.foldl_cons, growsMore, grows, List.append_assoc]

end Clean

section Growth

variable {fmtDate : Chars → Chars}

/-- However they are read, lines add so many nodes or more. -/
def Grows (ids : Nat → String) (toIsoDate : Chars → Chars) (lines : List Chars) (count : Nat) :
    Prop :=
  ∀ reading : Reading,
    reading.texts.length + count ≤ (lines.foldl (readLine ids toIsoDate) reading).texts.length

variable {ids : Nat → String} {toIsoDate : Chars → Chars} {node : NodeFields}

/-- The lines of a file that was joined of several. -/
def pieces (lines : List Chars) : List Chars := lines.flatMap (List.splitOn '\n')

/-- The lines of a file have no breaks. -/
theorem oneLine_pieces {lines : List Chars} : ∀ piece ∈ pieces lines, '\n' ∉ piece := by
  intro piece listed
  obtain ⟨line, -, inLine⟩ := List.mem_flatMap.mp listed
  exact Text.not_mem_of_mem_splitOn inLine

theorem grows_pieces (lines : List Chars) : Grows ids toIsoDate (pieces lines) 0 := by
  intro reading
  have run : ∃ added, ((pieces lines).foldl (readLine ids toIsoDate) reading).texts =
      reading.texts ++ added ∧ ∀ text ∈ added, Clean text :=
    readLines_texts reading oneLine_pieces
  obtain ⟨added, grows, -⟩ := run
  rw [grows, List.length_append]
  omega

/-- One file after another adds up. -/
theorem Grows.append {first second : List Chars} {less more : Nat}
    (former : Grows ids toIsoDate first less) (latter : Grows ids toIsoDate second more) :
    Grows ids toIsoDate (first ++ second) (less + more) := by
  intro reading
  have early := former reading
  have late := latter (first.foldl (readLine ids toIsoDate) reading)
  rw [List.foldl_append]
  omega

/-- A line that opens a node adds one. -/
theorem grows_of_opens {line : Chars}
    (opens : ∀ reading, ∃ opened level,
      readLine ids toIsoDate reading line = reading.openNode opened level) :
    Grows ids toIsoDate [line] 1 := by
  intro reading
  obtain ⟨opened, level, same⟩ := opens reading
  rw [List.foldl_cons, List.foldl_nil, same, texts_openNode, List.length_append,
    List.length_singleton]

/-- The line of a node, if its text is on one line. -/
theorem grows_oneLine (marked : Marked node) (begins : Ecma.Begins node.text) (depth : Nat) :
    Grows ids toIsoDate [headLine node depth] 1 := by
  refine grows_of_opens fun reading => ?_
  by_cases isRoot : depth = 0
  · have opens : ∃ opened, Opened ids reading node.text opened ∧
        readLine ids toIsoDate reading (headLine node 0) = reading.openNode opened 1 :=
      readLine_heading marked begins
    obtain ⟨opened, -, same⟩ := opens
    exact ⟨opened, 1, isRoot ▸ same⟩
  · have opens : ∃ opened, Opened ids reading node.text opened ∧
        readLine ids toIsoDate reading (headLine node depth) =
          reading.openNode opened (headingBase reading + headingMaxLevel + 1 + (depth - 1)) :=
      readLine_item marked begins isRoot
    obtain ⟨opened, -, same⟩ := opens
    exact ⟨opened, _, same⟩

/-- The node with another text. -/
def NodeFields.withText (node : NodeFields) (text : Chars) : NodeFields :=
  { node with text := text }

theorem Marked.withText (marked : Marked node) (text : Chars) : Marked (node.withText text) :=
  ⟨marked.progress, marked.icons⟩

theorem headLine_withText (front back : Chars) (depth : Nat) :
    headLine (node.withText (front ++ back)) depth =
      headLine (node.withText front) depth ++ escapeMarkdown back := by
  have same (text : Chars) : inlinePrefix (node.withText text) = inlinePrefix node := rfl
  have own (text : Chars) : (node.withText text).text = text := rfl
  unfold headLine
  rw [same, same, own, own, escapeMarkdown_eq, escapeMarkdown_eq, escapeMarkdown_eq,
    List.flatMap_append]
  split_ifs <;> simp only [List.cons_append, List.append_assoc]

/-- The lines of a node begin with one that opens a node. -/
theorem grows_headLine (marked : Marked node) (begins : Ecma.Begins node.text) (depth : Nat) :
    Grows ids toIsoDate ((headLine node depth).splitOn '\n') 1 := by
  by_cases broken : '\n' ∈ node.text
  · obtain ⟨front, back, split, before⟩ := List.eq_append_cons_of_mem broken
    have start : Ecma.Begins (node.withText front).text := by
      obtain ⟨char, rest, shape, dark⟩ := begins
      cases front with
      | nil =>
          rw [shape, List.nil_append] at split
          rw [(List.cons.inj split).1] at dark
          exact absurd dark (by decide)
      | cons first front =>
          rw [shape, List.cons_append] at split
          exact ⟨first, front, rfl, (List.cons.inj split).1 ▸ dark⟩
    have line : headLine node depth =
        headLine (node.withText front) depth ++ '\n' :: escapeMarkdown back := by
      have whole : node = node.withText (front ++ '\n' :: back) := by
        rw [← split]
        rfl
      have unmarked : escapeMarkdown ('\n' :: back) = '\n' :: escapeMarkdown back := by
        rw [escapeMarkdown_eq, escapeMarkdown_eq]
        rfl
      rw [← unmarked, ← headLine_withText, ← whole]
    have clean : '\n' ∉ headLine (node.withText front) depth :=
      not_mem_headLine (marked.withText front) before depth
    have opens : Grows ids toIsoDate [headLine (node.withText front) depth] 1 :=
      grows_oneLine (marked.withText front) start depth
    have others : Grows ids toIsoDate (pieces [escapeMarkdown back]) 0 := grows_pieces _
    rw [pieces, List.flatMap_singleton] at others
    rw [line, splitOn_append_newline, List.splitOn_eq_singleton clean]
    exact opens.append others
  · rw [List.splitOn_eq_singleton (not_mem_headLine marked broken depth)]
    exact grows_oneLine marked begins depth

mutual

/-- The lines of a tree add as many nodes as it has, or more. -/
theorem grows_tree : ∀ (tree : MindMapTreeNode) (depth : Nat),
    (∀ node ∈ tree.labels, Readable fmtDate node) →
      Grows ids toIsoDate (pieces (treeLines fmtDate tree depth)) tree.labels.length
  | .node node children, depth, readable => by
      rw [RoseTree.labels] at readable
      obtain ⟨own, others⟩ := List.forall_mem_cons.mp readable
      have head : Grows ids toIsoDate ((headLine node depth).splitOn '\n') 1 :=
        grows_headLine own.carried.marked own.begins depth
      have rest : Grows ids toIsoDate (pieces (noteLines node depth ++
          (metadata fmtDate node).map (bodyIndent depth ++ ·))) 0 := grows_pieces _
      have below : Grows ids toIsoDate (pieces (treesLines fmtDate children (depth + 1)))
          (labelsAll children).length := grows_trees children (depth + 1) others
      have all := head.append (rest.append below)
      rw [RoseTree.labels, List.length_cons, treeLines, nodeLines]
      simp only [pieces, List.cons_append, List.flatMap_cons, List.flatMap_append,
        List.append_assoc] at all ⊢
      rwa [Nat.zero_add, Nat.add_comm 1] at all

/-- Reading the lines of trees makes as many nodes. -/
theorem grows_trees : ∀ (trees : List MindMapTreeNode) (depth : Nat),
    (∀ node ∈ labelsAll trees, Readable fmtDate node) →
      Grows ids toIsoDate (pieces (treesLines fmtDate trees depth)) (labelsAll trees).length
  | [], depth, _ => by
      rw [treesLines]
      exact grows_pieces []
  | tree :: trees, depth, readable => by
      rw [labelsAll] at readable ⊢
      rw [treesLines, pieces, List.flatMap_append, List.length_append]
      exact (grows_tree tree depth fun node listed =>
          readable node (List.mem_append_left _ listed)).append
        (grows_trees trees depth fun node listed =>
          readable node (List.mem_append_right _ listed))

end

end Growth

end Formats
end MindMapVault
