import MindMapVault.Formats.MarkdownLines

/-!
# How an export is read

The lines of a tree, one after the other, put a tree of the same shape below the open node that
they are indented under. The run goes over the tree as the export does.
-/

namespace MindMapVault
namespace Formats

open Ecma
open RoseTree hiding node

section Split

theorem splitOn_append_newline (first second : Chars) :
    (first ++ '\n' :: second).splitOn '\n' = first.splitOn '\n' ++ second.splitOn '\n' :=
  List.splitOn_append_cons_self first second

/-- The lines of joined texts are the lines of each. -/
theorem splitOn_join : ∀ {texts : List Chars}, texts ≠ [] →
    (join "\n" texts).splitOn '\n' = texts.flatMap (List.splitOn '\n')
  | [], nonempty => absurd rfl nonempty
  | [text], _ => by
      rw [join, List.intercalate_singleton, List.flatMap_singleton]
  | text :: other :: texts, _ => by
      have rest := splitOn_join (List.cons_ne_nil other texts)
      rw [join] at rest ⊢
      rw [List.intercalate_cons_cons, List.flatMap_cons, ← rest, List.append_assoc]
      exact splitOn_append_newline _ _

/-- Texts without line breaks are the lines of what is joined of them. -/
theorem splitOn_join_of_forall {texts : List Chars} (nonempty : texts ≠ [])
    (oneLine : ∀ text ∈ texts, '\n' ∉ text) : (join "\n" texts).splitOn '\n' = texts :=
  List.splitOn_intercalate '\n' oneLine nonempty

end Split

section Flatten

variable (fmtDate : Chars → Chars)

mutual

/-- The lines of a tree. -/
def treeLines : MindMapTreeNode → Nat → List Chars
  | .node node children, depth =>
      nodeLines fmtDate node depth ++ treesLines children (depth + 1)

/-- The lines of several trees. -/
def treesLines : List MindMapTreeNode → Nat → List Chars
  | [], _ => []
  | child :: children, depth => treeLines child depth ++ treesLines children depth

end

theorem treeLines_ne_nil (tree : MindMapTreeNode) (depth : Nat) :
    treeLines fmtDate tree depth ≠ [] := by
  cases tree
  rw [treeLines, nodeLines]
  exact List.cons_ne_nil _ _

/-- Joining what is joined already. -/
theorem join_append {first second : List Chars} (nonempty : second ≠ []) (rest : List Chars) :
    join "\n" (first ++ join "\n" second :: rest) = join "\n" (first ++ (second ++ rest)) := by
  have inner (rest : List Chars) :
      join "\n" (join "\n" second :: rest) = join "\n" (second ++ rest) := by
    unfold join
    induction second with
    | nil => exact absurd rfl nonempty
    | cons text texts ih =>
        cases texts with
        | nil => rw [List.intercalate_singleton, List.singleton_append]
        | cons other texts =>
            have tail := ih (List.cons_ne_nil _ _)
            rw [List.intercalate_cons_cons, List.cons_append, List.cons_append,
              List.intercalate_cons_cons, ← List.cons_append, ← tail]
            cases rest with
            | nil => rw [List.intercalate_singleton, List.intercalate_singleton]
            | cons third rest =>
                rw [List.intercalate_cons_cons, List.intercalate_cons_cons]
                simp only [List.append_assoc]
  induction first with
  | nil => exact inner rest
  | cons text texts ih =>
      unfold join at ih ⊢
      have cons {lines : List Chars} (some : lines ≠ []) :
          "\n".toList.intercalate (text :: lines) =
            text ++ "\n".toList ++ "\n".toList.intercalate lines := by
        cases lines with
        | nil => exact absurd rfl some
        | cons other lines => exact List.intercalate_cons_cons
      rw [List.cons_append, List.cons_append, cons (by simp), cons (by simp [nonempty]), ih]

mutual

/-- A tree is written as its lines. -/
theorem nodeToMarkdown_eq : ∀ (tree : MindMapTreeNode) (depth : Nat),
    nodeToMarkdown fmtDate tree depth = join "\n" (treeLines fmtDate tree depth)
  | .node node children, depth => by
      rw [nodeToMarkdown, treeLines]
      exact nodesToMarkdown_eq children (depth + 1) _

theorem nodesToMarkdown_eq : ∀ (trees : List MindMapTreeNode) (depth : Nat)
    (before : List Chars),
    join "\n" (before ++ nodesToMarkdown fmtDate trees depth) =
      join "\n" (before ++ treesLines fmtDate trees depth)
  | [], _, _ => rfl
  | tree :: trees, depth, before => by
      rw [nodesToMarkdown, treesLines, nodeToMarkdown_eq tree depth,
        join_append (treeLines_ne_nil fmtDate tree depth), ← List.append_assoc,
        nodesToMarkdown_eq trees depth, List.append_assoc]

end

end Flatten

section Stack

variable {top : Frame} {below : List Frame}

/-- The trees are added to the children of an open node. -/
def Frame.pushAll (frame : Frame) (trees : List MindMapTreeNode) : Frame :=
  { frame with children := frame.children ++ trees }

/-- Frames that are closed in two steps are closed in one. -/
theorem popTo_popTo {lower upper : Nat} (le : lower ≤ upper) :
    popTo lower (popTo upper top below).1 (popTo upper top below).2 = popTo lower top below := by
  induction below generalizing top with
  | nil => rfl
  | cons parent below ih =>
      by_cases deep : upper ≤ top.level
      · rw [popTo, if_pos deep, ih]
        conv_rhs => rw [popTo, if_pos (le.trans deep)]
      · rw [popTo, if_neg deep]

/-- Where the stack stops stays the place to stop. -/
theorem popTo_pushAll (level : Nat) (trees : List MindMapTreeNode) :
    popTo level ((popTo level top below).1.pushAll trees) (popTo level top below).2 =
      ((popTo level top below).1.pushAll trees, (popTo level top below).2) := by
  induction below generalizing top with
  | nil => rfl
  | cons parent below ih =>
      by_cases deep : level ≤ top.level
      · rw [popTo, if_pos deep]
        exact ih
      · rw [popTo, if_neg deep]
        have same : (top.pushAll trees).level = top.level := rfl
        rw [popTo, if_neg (same ▸ deep)]

theorem popTo_of_lt {level : Nat} {parent : Frame} (shallow : top.level < level) :
    popTo level top (parent :: below) = (top, parent :: below) := by
  rw [popTo, if_neg (Nat.not_le.mpr shallow)]

/-- The level of the open heading. -/
def baseOf (frames : List Frame) : Nat :=
  ((frames.find? fun frame => frame.level ≤ headingMaxLevel).map Frame.level).getD 0

theorem headingBase_eq (reading : Reading) :
    headingBase reading = baseOf (reading.top :: reading.below) := rfl

theorem baseOf_cons_of_lt {frame : Frame} (deep : headingMaxLevel < frame.level)
    (frames : List Frame) : baseOf (frame :: frames) = baseOf frames := by
  rw [baseOf, List.find?_cons_of_neg (by simpa using deep), baseOf]

theorem baseOf_cons_congr {frame other : Frame} (same : frame.level = other.level)
    (frames : List Frame) : baseOf (frame :: frames) = baseOf (other :: frames) := by
  unfold baseOf
  rw [List.find?_cons, List.find?_cons, same]
  cases decide (other.level ≤ headingMaxLevel) with
  | true => exact same
  | false => rfl

/-- Closing items leaves the heading open. -/
theorem baseOf_popTo {level : Nat} (deep : headingMaxLevel < level) :
    baseOf ((popTo level top below).1 :: (popTo level top below).2) = baseOf (top :: below) := by
  induction below generalizing top with
  | nil => rfl
  | cons parent below ih =>
      by_cases deeper : level ≤ top.level
      · have same : (parent.push top.toTree).level = parent.level := rfl
        rw [popTo, if_pos deeper, ih, baseOf_cons_of_lt (deep.trans_le deeper)]
        exact baseOf_cons_congr same below
      · rw [popTo, if_neg deeper]

end Stack

section Notes

/-- A line of a note is added to notes. -/
def addNote (notes noteText : Chars) : Chars :=
  if trimChars noteText = [] then notes
  else if notes = [] then noteText else notes ++ '\n' :: noteText

theorem applyNote_eq (noteText : Chars) (node : NodeFields) :
    applyNote noteText node = { node with notes := addNote node.notes noteText } := by
  unfold applyNote addNote
  split_ifs <;> rfl

/-- Notes as they are read. -/
def readNotes (notes : Chars) : Chars :=
  if trimChars notes = [] then []
  else (((trimChars notes).splitOn '\n').map readNote).foldl addNote []

/-- What is compared of a node: its text and its notes. -/
def essence (node : NodeFields) : Chars × Chars := (node.text, node.notes)

/-- What is compared, as it is read. -/
def readEssence (node : NodeFields) : Chars × Chars := (readText node.text, readNotes node.notes)

variable {fmtDate : Chars → Chars} {ids : Nat → String} {toIsoDate : Chars → Chars}

/-- The node at the top of the stack is replaced. -/
def Reading.withNode (reading : Reading) (node : NodeFields) : Reading :=
  { reading with top := { reading.top with node := node } }

theorem changeLast_of_top {reading : Reading} (onTop : reading.lastIsChild = false)
    (change : NodeFields → NodeFields) :
    reading.changeLast change = reading.withNode (change reading.top.node) := by
  unfold Reading.changeLast Reading.withNode
  rw [if_neg (by simp [onTop])]

/-- Lines of notes go to the node at the top. -/
theorem foldl_noteLines (lines : List Chars) (depth : Nat) :
    ∀ {reading : Reading}, reading.lastIsChild = false →
      (lines.map fun noteLine => bodyIndent depth ++ '>' :: ' ' :: noteLine).foldl
          (readLine ids toIsoDate) reading =
        reading.withNode { reading.top.node with
          notes := (lines.map readNote).foldl addNote reading.top.node.notes } := by
  induction lines with
  | nil => intro reading _; rfl
  | cons noteLine lines ih =>
      intro reading onTop
      rw [List.map_cons, List.foldl_cons, readLine_note, changeLast_of_top onTop, applyNote_eq]
      exact ih onTop

/-- Metadata changes neither text nor notes. -/
theorem applyMetadata_essence (found : Metadata) (node : NodeFields) :
    essence (applyMetadata toIsoDate found node) = essence node := by
  cases found <;> rfl

/-- The lines of metadata leave the text and the notes. -/
theorem foldl_metadata {node : NodeFields} (carried : Carried fmtDate node) (depth : Nat) :
    ∀ {lines : List Chars}, (∀ line ∈ lines, line ∈ metadata fmtDate node) →
      ∀ reading : Reading, reading.lastIsChild = false →
        ∃ after, (lines.map (bodyIndent depth ++ ·)).foldl (readLine ids toIsoDate) reading =
            reading.withNode after ∧ essence after = essence reading.top.node
  | [], _, reading, _ => ⟨reading.top.node, rfl, rfl⟩
  | line :: lines, each, reading, onTop => by
      obtain ⟨first, others⟩ := List.forall_mem_cons.mp each
      have known : ∃ found, ∀ reading : Reading,
          readLine ids toIsoDate reading (bodyIndent depth ++ line) =
            reading.changeLast (applyMetadata toIsoDate found) :=
        readLine_metadata carried first depth
      obtain ⟨found, changes⟩ := known
      obtain ⟨after, same, kept⟩ := foldl_metadata carried depth others
        (reading.withNode (applyMetadata toIsoDate found reading.top.node)) onTop
      refine ⟨after, ?_, kept.trans (applyMetadata_essence found _)⟩
      rw [List.map_cons, List.foldl_cons, changes, changeLast_of_top onTop, same]
      rfl

/-- The lines of a node after its first leave its text and add its notes. -/
theorem foldl_rest {node : NodeFields} (carried : Carried fmtDate node) (depth : Nat)
    {reading : Reading} (onTop : reading.lastIsChild = false)
    (text : reading.top.node.text = readText node.text) (notes : reading.top.node.notes = []) :
    ∃ after, (noteLines node depth ++ (metadata fmtDate node).map (bodyIndent depth ++ ·)).foldl
        (readLine ids toIsoDate) reading = reading.withNode after ∧
      essence after = readEssence node := by
  have noted : (noteLines node depth).foldl (readLine ids toIsoDate) reading =
      reading.withNode { reading.top.node with notes := readNotes node.notes } := by
    unfold noteLines readNotes
    split_ifs
    · rw [← notes]
      rfl
    · rw [foldl_noteLines _ depth onTop, notes]
  obtain ⟨after, same, kept⟩ := foldl_metadata carried depth (fun _ listed => listed)
    (reading.withNode { reading.top.node with notes := readNotes node.notes }) onTop
  refine ⟨after, ?_, kept.trans (congrArg (fun text => (text, readNotes node.notes)) text)⟩
  rw [List.foldl_append, noted, same]
  rfl

end Notes

section Run

variable {fmtDate : Chars → Chars} (ids : Nat → String) (toIsoDate : Chars → Chars)

/-- The level of the items at a depth. -/
def levelAt (base depth : Nat) : Nat := base + headingMaxLevel + 1 + (depth - 1)

/-- Lines put trees below the open node of a level, and leave the heading open. -/
structure Reads (lines : List Chars) (level : Nat) (before : Reading)
    (read : List MindMapTreeNode) : Prop where
  stack : popTo level (lines.foldl (readLine ids toIsoDate) before).top
      (lines.foldl (readLine ids toIsoDate) before).below =
    ((popTo level before.top before.below).1.pushAll read, (popTo level before.top before.below).2)
  base : headingBase (lines.foldl (readLine ids toIsoDate) before) = headingBase before

variable {ids toIsoDate}

/-- What is read of lines and of the lines after them. -/
theorem Reads.append {first second : List Chars} {level : Nat} {before : Reading}
    {earlier later : List MindMapTreeNode} (former : Reads ids toIsoDate first level before earlier)
    (latter : Reads ids toIsoDate second level
      (first.foldl (readLine ids toIsoDate) before) later) :
    Reads ids toIsoDate (first ++ second) level before (earlier ++ later) := by
  refine ⟨?_, ?_⟩
  · rw [List.foldl_append, latter.stack, former.stack]
    simp only [Frame.pushAll, List.append_assoc]
  · rw [List.foldl_append, latter.base, former.base]

/-- The text of a node can be told from what is around it. -/
structure Readable (fmtDate : Chars → Chars) (node : NodeFields) : Prop where
  begins : Begins node.text
  carried : Carried fmtDate node

/-- A node that was opened, with its children below it. -/
theorem reads_opened {before : Reading} {node after : NodeFields} {level : Nat}
    {lines : List Chars} {read : List MindMapTreeNode} (deep : headingMaxLevel < level)
    (children : Reads ids toIsoDate lines (level + 1)
      ((before.openNode node level).withNode after) read) :
    popTo level
        (lines.foldl (readLine ids toIsoDate) ((before.openNode node level).withNode after)).top
        (lines.foldl (readLine ids toIsoDate) ((before.openNode node level).withNode after)).below =
      ((popTo level before.top before.below).1.pushAll [.node after read],
        (popTo level before.top before.below).2) ∧
    headingBase
        (lines.foldl (readLine ids toIsoDate) ((before.openNode node level).withNode after)) =
      headingBase before := by
  have stack := children.stack
  have base := children.base
  have top : popTo (level + 1) ((before.openNode node level).withNode after).top
      ((before.openNode node level).withNode after).below =
        (⟨after, level, []⟩, (popTo level before.top before.below).1 ::
          (popTo level before.top before.below).2) :=
    popTo_of_lt (Nat.lt_succ_self level)
  rw [top] at stack
  constructor
  · rw [← popTo_popTo (Nat.le_succ level), stack]
    refine Eq.trans ?_ (popTo_pushAll level [.node after read])
    rw [popTo]
    exact if_pos (le_refl level)
  · rw [base, headingBase_eq, headingBase_eq]
    exact (baseOf_cons_of_lt deep _).trans (baseOf_popTo deep)

mutual

/-- The lines of a tree put a tree with what is read of its nodes below the open node. -/
theorem reads_tree : ∀ (tree : MindMapTreeNode) {depth : Nat}, depth ≠ 0 →
    (∀ node ∈ tree.labels, Readable fmtDate node) → ∀ before : Reading,
      ∃ read, read.map essence = tree.map readEssence ∧
        Reads ids toIsoDate (treeLines fmtDate tree depth)
          (levelAt (headingBase before) depth) before [read]
  | .node node children, depth, below, readable, before => by
      rw [RoseTree.labels] at readable
      obtain ⟨own, others⟩ := List.forall_mem_cons.mp readable
      have line : ∃ opened, Opened ids before node.text opened ∧
          readLine ids toIsoDate before (headLine node depth) =
            before.openNode opened (levelAt (headingBase before) depth) :=
        readLine_item own.carried.marked own.begins below
      obtain ⟨opened, isOpened, opens⟩ := line
      have rest : ∃ after, (noteLines node depth ++
            (metadata fmtDate node).map (bodyIndent depth ++ ·)).foldl (readLine ids toIsoDate)
              (before.openNode opened (levelAt (headingBase before) depth)) =
            (before.openNode opened (levelAt (headingBase before) depth)).withNode after ∧
          essence after = readEssence node :=
        foldl_rest own.carried depth rfl isOpened.text isOpened.notes
      obtain ⟨after, carries, kept⟩ := rest
      have deep : headingMaxLevel < levelAt (headingBase before) depth := by
        unfold levelAt
        omega
      have heading : headingBase
          ((before.openNode opened (levelAt (headingBase before) depth)).withNode after) =
            headingBase before := by
        rw [headingBase_eq, headingBase_eq]
        exact (baseOf_cons_of_lt deep _).trans (baseOf_popTo deep)
      obtain ⟨read, same, reads⟩ := reads_trees children (Nat.succ_ne_zero depth) others
        ((before.openNode opened (levelAt (headingBase before) depth)).withNode after)
      have next : levelAt (headingBase ((before.openNode opened
          (levelAt (headingBase before) depth)).withNode after)) (depth + 1) =
            levelAt (headingBase before) depth + 1 := by
        rw [heading]
        unfold levelAt
        omega
      rw [next] at reads
      have lines : (treeLines fmtDate (.node node children) depth).foldl
          (readLine ids toIsoDate) before =
            (treesLines fmtDate children (depth + 1)).foldl (readLine ids toIsoDate)
              ((before.openNode opened (levelAt (headingBase before) depth)).withNode after) := by
        rw [treeLines, nodeLines, List.foldl_append, List.cons_append, List.foldl_cons, opens,
          carries]
      obtain ⟨stack, base⟩ := reads_opened deep reads
      refine ⟨.node after read, ?_, ⟨by rw [lines]; exact stack, by rw [lines]; exact base⟩⟩
      rw [RoseTree.map, RoseTree.map, kept, same]

/-- The lines of trees are read as the trees, after whatever was read before. -/
theorem reads_trees : ∀ (trees : List MindMapTreeNode) {depth : Nat}, depth ≠ 0 →
    (∀ node ∈ labelsAll trees, Readable fmtDate node) → ∀ before : Reading,
      ∃ read, mapAll essence read = mapAll readEssence trees ∧
        Reads ids toIsoDate (treesLines fmtDate trees depth)
          (levelAt (headingBase before) depth) before read
  | [], depth, _, _, before => by
      rw [treesLines]
      refine ⟨[], by rw [mapAll, mapAll], ⟨?_, by rw [List.foldl_nil]⟩⟩
      simp only [List.foldl_nil, Frame.pushAll, List.append_nil]
  | tree :: trees, depth, below, readable, before => by
      rw [labelsAll] at readable
      obtain ⟨first, same, reads⟩ := reads_tree tree below
        (fun node listed => readable node (List.mem_append_left _ listed)) before
      obtain ⟨others, alike, later⟩ := reads_trees trees below
        (fun node listed => readable node (List.mem_append_right _ listed))
        ((treeLines fmtDate tree depth).foldl (readLine ids toIsoDate) before)
      rw [reads.base] at later
      refine ⟨first :: others, ?_, ?_⟩
      · rw [mapAll, mapAll, same, alike]
      · rw [treesLines]
        exact reads.append later

end

end Run

section File

variable {fmtDate : Chars → Chars} {ids : Nat → String} {toIsoDate : Chars → Chars}

theorem not_mem_of_dots {text : Chars} (dots : text.all Ecma.isDot = true) : '\n' ∉ text := by
  intro inText
  exact absurd (List.all_eq_true.mp dots '\n' inText) (by decide)

theorem not_mem_blanks (times : Nat) : '\n' ∉ blanks times := by
  induction times with
  | zero => exact List.not_mem_nil
  | succ times ih =>
      rw [blanks_succ]
      simp [ih]

theorem not_mem_escapeMarkdown {text : Chars} (oneLine : '\n' ∉ text) :
    '\n' ∉ escapeMarkdown text := by
  intro escaped
  rcases mem_escapeMarkdown escaped with inText | backslash
  · exact oneLine inText
  · exact absurd backslash (by decide)

theorem not_mem_headLine {node : NodeFields} (marked : Marked node) (oneLine : '\n' ∉ node.text)
    (depth : Nat) : '\n' ∉ headLine node depth := by
  have before := not_mem_of_dots (inlinePrefix_dots marked)
  have escaped := not_mem_escapeMarkdown oneLine
  have blank := not_mem_blanks (depth - 1)
  unfold headLine indent
  split_ifs <;> simp [before, escaped, blank]

/-- What an export writes for a node has as many lines as it should. -/
theorem not_mem_nodeLines {node : NodeFields} (carried : Carried fmtDate node)
    (oneLine : '\n' ∉ node.text) {depth : Nat} {line : Chars}
    (listed : line ∈ nodeLines fmtDate node depth) : '\n' ∉ line := by
  obtain ⟨times, indented⟩ := exists_bodyIndent depth
  have blank : '\n' ∉ bodyIndent depth := indented ▸ not_mem_blanks _
  rw [nodeLines, List.cons_append, List.mem_cons, List.mem_append] at listed
  rcases listed with rfl | inNotes | inMetadata
  · exact not_mem_headLine carried.marked oneLine depth
  · unfold noteLines at inNotes
    split_ifs at inNotes
    · exact absurd inNotes List.not_mem_nil
    · obtain ⟨noteLine, inText, rfl⟩ := List.mem_map.mp inNotes
      have piece := Text.not_mem_of_mem_splitOn inText
      simp [blank, piece]
  · obtain ⟨said, inList, rfl⟩ := List.mem_map.mp inMetadata
    have clean := carried.oneLine said inList
    simp [blank, clean]

mutual

/-- The lines of a tree have no breaks. -/
theorem not_mem_treeLines : ∀ (tree : MindMapTreeNode) {depth : Nat},
    (∀ node ∈ tree.labels, Carried fmtDate node ∧ '\n' ∉ node.text) →
      ∀ line ∈ treeLines fmtDate tree depth, '\n' ∉ line
  | .node node children, depth, each, line, listed => by
      rw [RoseTree.labels] at each
      obtain ⟨own, others⟩ := List.forall_mem_cons.mp each
      rw [treeLines] at listed
      rcases List.mem_append.mp listed with here | later
      · exact not_mem_nodeLines own.1 own.2 here
      · exact not_mem_treesLines children others line later

/-- No line of a file has a break in it. -/
theorem not_mem_treesLines : ∀ (trees : List MindMapTreeNode) {depth : Nat},
    (∀ node ∈ labelsAll trees, Carried fmtDate node ∧ '\n' ∉ node.text) →
      ∀ line ∈ treesLines fmtDate trees depth, '\n' ∉ line
  | [], depth, _, line, listed => by
      rw [treesLines] at listed
      exact absurd listed List.not_mem_nil
  | tree :: trees, depth, each, line, listed => by
      rw [labelsAll] at each
      rw [treesLines] at listed
      rcases List.mem_append.mp listed with here | later
      · exact not_mem_treeLines tree (fun node inTree => each node (List.mem_append_left _ inTree))
          line here
      · exact not_mem_treesLines trees
          (fun node inTrees => each node (List.mem_append_right _ inTrees)) line later

end

/-- A file that begins with a heading has no frontmatter. -/
theorem stripFrontmatter_heading (rest : Chars) :
    stripFrontmatter ('#' :: rest) = '#' :: rest := by
  have start : trimStart ('#' :: rest) = '#' :: rest := trimStart_of_begins ⟨'#', rest, rfl, rfl⟩
  have leads : (Regex.capture 1 (.either (.literal "---") (.literal "+++"))).Leads isRule := by
    refine Regex.Leads.capture (.either ?_ ?_)
    · exact ((Regex.leads_one _).mono fun _ same => by rw [beq_iff_eq.mp same]; rfl).seq
    · exact ((Regex.leads_one _).mono fun _ same => by rw [beq_iff_eq.mp same]; rfl).seq
  have none : Regex.match? frontmatter ('#' :: rest) = none := Regex.match?_of_leads leads.seq rfl
  rw [stripFrontmatter, start, none]

theorem readLine_nil (reading : Reading) : readLine ids toIsoDate reading [] = reading := by
  unfold readLine
  exact if_pos (.inl rfl)

/-- What is read before the first line. -/
def noLines (ids : Nat → String) (title : Chars) : Reading :=
  ⟨1, ⟨makeNode (ids 0) title, 0, []⟩, [], false⟩

/-- Closing goes on from the frames that are left. -/
theorem close_eq {level : Nat} {reading : Reading} {top : Frame} {below : List Frame}
    (stack : popTo level reading.top reading.below = (top, below)) :
    reading.close = (popTo 0 top below).1.toTree := by
  rw [Reading.close, ← popTo_popTo (Nat.zero_le level), stack]

variable {title : Chars}

theorem headingBase_heading (opened after : NodeFields) :
    headingBase (((noLines ids title).openNode opened 1).withNode after) = 1 := rfl

/-- What is read below a first heading. -/
theorem close_heading {opened after : NodeFields} {lines : List Chars} {read : List MindMapTreeNode}
    (reads : Reads ids toIsoDate lines (levelAt 1 1)
      (((noLines ids title).openNode opened 1).withNode after) read) :
    (lines.foldl (readLine ids toIsoDate)
        (((noLines ids title).openNode opened 1).withNode after)).close =
      .node (makeNode (ids 0) title) [.node after read] := by
  have shallow : 1 < levelAt 1 1 := by decide
  have stays : popTo (levelAt 1 1) (((noLines ids title).openNode opened 1).withNode after).top
      (((noLines ids title).openNode opened 1).withNode after).below =
        (⟨after, 1, []⟩, [⟨makeNode (ids 0) title, 0, []⟩]) :=
    popTo_of_lt shallow
  have stack := reads.stack
  rw [stays] at stack
  rw [close_eq stack]
  rfl

/-- A file without a title above the root. -/
theorem close_untitled {root : MindMapTreeNode} (title : Chars)
    (readable : ∀ node ∈ root.labels, Readable fmtDate node) :
    ∃ read : MindMapTreeNode, read.map essence = root.map readEssence ∧
      ((treeLines fmtDate root 0).foldl (readLine ids toIsoDate) (noLines ids title)).close =
        .node (makeNode (ids 0) title) [read] := by
  cases root with
  | node node children =>
      rw [RoseTree.labels] at readable
      obtain ⟨own, others⟩ := List.forall_mem_cons.mp readable
      have line : ∃ opened, Opened ids (noLines ids title) node.text opened ∧
          readLine ids toIsoDate (noLines ids title) (headLine node 0) =
            (noLines ids title).openNode opened 1 :=
        readLine_heading own.carried.marked own.begins
      obtain ⟨opened, isOpened, opens⟩ := line
      have rest : ∃ after, (noteLines node 0 ++
            (metadata fmtDate node).map (bodyIndent 0 ++ ·)).foldl (readLine ids toIsoDate)
              ((noLines ids title).openNode opened 1) =
            ((noLines ids title).openNode opened 1).withNode after ∧
          essence after = readEssence node :=
        foldl_rest own.carried 0 rfl isOpened.text isOpened.notes
      obtain ⟨after, carries, kept⟩ := rest
      have below : ∃ read, mapAll essence read = mapAll readEssence children ∧
          Reads ids toIsoDate (treesLines fmtDate children 1)
            (levelAt (headingBase (((noLines ids title).openNode opened 1).withNode after)) 1)
            (((noLines ids title).openNode opened 1).withNode after) read :=
        reads_trees children Nat.one_ne_zero others _
      obtain ⟨read, same, reads⟩ := below
      rw [headingBase_heading] at reads
      refine ⟨.node after read, by rw [RoseTree.map, RoseTree.map, kept, same], ?_⟩
      rw [treeLines, nodeLines, List.foldl_append, List.cons_append, List.foldl_cons, opens,
        carries, close_heading reads]

/-- The heading of a title is the line of a node that carries nothing. -/
theorem headLine_makeNode {text : Chars} (id : String) (trimmed : trimChars text = text)
    (nonempty : text ≠ []) : headLine (makeNode id text) 0 = '#' :: ' ' :: escapeMarkdown text := by
  have own : (makeNode id text).text = text := by
    rw [makeNode, trimOr, trimmed, if_neg nonempty]
  have nothing : inlinePrefix (makeNode id text) = [] := rfl
  rw [headLine, if_pos rfl, nothing, own, List.nil_append]

theorem marked_makeNode (id : String) (text : Chars) : Marked (makeNode id text) where
  progress := fun _ absent => by cases absent
  icons := List.forall_mem_nil _

/-- A file with a title above the root. -/
theorem close_titled {root : MindMapTreeNode} (title : Chars) {heading : Chars}
    (trimmed : trimChars heading = heading) (nonempty : heading ≠ [])
    (readable : ∀ node ∈ root.labels, Readable fmtDate node) :
    ∃ (read : MindMapTreeNode) (after : NodeFields), read.map essence = root.map readEssence ∧
      after.text = readText heading ∧ after.notes = [] ∧
      ((('#' :: ' ' :: escapeMarkdown heading) :: [] :: treeLines fmtDate root 1).foldl
        (readLine ids toIsoDate) (noLines ids title)).close =
        .node (makeNode (ids 0) title) [.node after [read]] := by
  have own : (makeNode (ids 0) heading).text = heading := by
    rw [makeNode, trimOr, trimmed, if_neg nonempty]
  have begins : Begins (makeNode (ids 0) heading).text := by
    rw [own]
    exact begins_of_trimChars trimmed nonempty
  have line : ∃ opened, Opened ids (noLines ids title) (makeNode (ids 0) heading).text opened ∧
      readLine ids toIsoDate (noLines ids title) (headLine (makeNode (ids 0) heading) 0) =
        (noLines ids title).openNode opened 1 :=
    readLine_heading (marked_makeNode _ _) begins
  obtain ⟨opened, isOpened, opens⟩ := line
  rw [headLine_makeNode _ trimmed nonempty] at opens
  have below : ∃ read, read.map essence = root.map readEssence ∧
      Reads ids toIsoDate (treeLines fmtDate root 1)
        (levelAt (headingBase (((noLines ids title).openNode opened 1).withNode opened)) 1)
        (((noLines ids title).openNode opened 1).withNode opened) [read] :=
    reads_tree root Nat.one_ne_zero readable _
  obtain ⟨read, same, reads⟩ := below
  rw [headingBase_heading] at reads
  refine ⟨read, opened, same, own ▸ isOpened.text, isOpened.notes, ?_⟩
  rw [List.foldl_cons, List.foldl_cons, opens, readLine_nil]
  exact close_heading reads

end File

end Formats
end MindMapVault
