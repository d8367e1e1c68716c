import MindMapVault.Formats.FreeplaneRead

/-!
# Maps exported to FreePlane and imported again

A map comes back from its file, and is written again as the same file but for the ids, exactly
if its notes are plain and without returns, no colour or first link is empty or has a character
that XML cannot carry, and there is no tab or line break in them or in a text. The text of the
root comes back in any case, because the title of the import is put in its place.
-/

namespace MindMapVault
namespace Formats
namespace Freeplane

open Xml Result
open RoseTree hiding node
open Freemind (isWritable Admissible carried carriedTree carriedMap map_carriedTree)

/-! ### Nodes -/

/-- What is in a node survives the file, its text apart. -/
structure Survives (node : NodeFields) : Prop where
  notes : PlainNotes node.notes
  noReturn : '\r' ∉ node.notes
  color : ∀ color ∈ node.color, color ≠ [] ∧ OneLine color ∧ color.all isChar = true
  link : ∀ first ∈ node.urls.head?, first.url ≠ [] ∧ OneLine first.url ∧ first.url.all isChar = true

section Fields

variable {draft : Draft} {depth : Nat} {children : List Node}

/-- A text comes back through one line exactly if it is one. -/
theorem trimOr_inlined_iff {text : Chars} (trimmed : Ecma.trimChars text = text)
    (nonempty : text ≠ []) : trimOr "Untitled" (inlined text) = text ↔ OneLine text := by
  constructor
  · intro same
    rw [trimOr] at same
    split_ifs at same
    · rw [← same]
      decide
    · rw [← same]
      exact fun ch listed =>
        oneLine_inlined text ch ((Ecma.infix_trimChars _).subset listed)
  · intro oneLine
    rw [inlined_of_oneLine oneLine, trimOr, trimmed, if_neg nonempty]

/-- The fields that are read are those of the node, its text apart. -/
theorem carried_readFields (sided : Bool) (node : NodeFields) (id : String) (notes : Chars) :
    carried sided { readFields id node notes with text := node.text } = carried sided node ↔
      notes = node.notes ∧ (∀ color ∈ node.color, color ≠ [] ∧ OneLine color) ∧
        ∀ first ∈ node.urls.head?, first.url ≠ [] ∧ OneLine first.url := by
  have link : ((((node.urls.head?.map UrlEntry.url).filter (· ≠ [])).map inlined).map
      fun link => (⟨link, []⟩ : UrlEntry)).toList.head?.map UrlEntry.url =
        ((node.urls.head?.map UrlEntry.url).filter (· ≠ [])).map inlined := by
    cases ((node.urls.head?.map UrlEntry.url).filter (· ≠ [])).map inlined with
    | none => rfl
    | some link => rfl
  simp only [carried, readFields, link, Prod.mk.injEq, and_true, true_and,
    filter_inlined_eq_self_iff]
  simp

/-- Notes come back exactly if they are plain and have no returns. -/
theorem readNotes_iff {node : NodeFields} (trimmed : Ecma.trimChars node.notes = node.notes) :
    (if node.notes = [] then Except.ok []
      else stripHtml (paragraphsHtml (readLines node.notes))) = .ok node.notes ↔
      PlainNotes node.notes ∧ '\r' ∉ node.notes := by
  by_cases none : node.notes = []
  · rw [if_pos none, none]
    exact iff_of_true rfl ⟨Freemind.plainNotes_nil, List.not_mem_nil⟩
  · rw [if_neg none, readLines, trimmed]
    exact stripHtml_normalized_iff trimmed none

/-- The fields come back, the text as it was read, exactly if the node survives. -/
theorem parseFields_returns_iff (admissible : Admissible draft.node)
    (writable : isWritable draft.node = true)
    (noRichtext : ∀ child ∈ children, isRichcontent "NOTE" child = false) (sided : Bool)
    (id : String) :
    (∃ fields, parseFields id (fieldNode depth draft children) = .ok fields ∧
        carried sided { fields with text := draft.node.text } = carried sided draft.node) ↔
      Survives draft.node := by
  have notesBack := readNotes_iff admissible.notesTrimmed
  rw [parseFields_fieldNode admissible noRichtext]
  rw [isWritable, Bool.and_eq_true, Option.all_eq_true, Option.all_eq_true] at writable
  constructor
  · rintro ⟨fields, read, same⟩
    obtain ⟨notes, isRead, rfl⟩ := map_eq_ok.mp read
    obtain ⟨rfl, color, link⟩ := (carried_readFields sided draft.node id notes).mp same
    obtain ⟨plain, noReturn⟩ := notesBack.mp isRead
    exact ⟨plain, noReturn,
      fun text listed => ⟨(color text listed).1, (color text listed).2, writable.1 text listed⟩,
      fun first listed => ⟨(link first listed).1, (link first listed).2, writable.2 first listed⟩⟩
  · intro survives
    refine ⟨readFields id draft.node draft.node.notes, ?_, ?_⟩
    · rw [notesBack.mpr ⟨survives.notes, survives.noReturn⟩]
      rfl
    · refine (carried_readFields sided draft.node id _).mpr ⟨rfl, ?_, ?_⟩
      · exact fun text listed => (survives.color text listed).imp_right And.left
      · exact fun first listed => (survives.link first listed).imp_right And.left

/-- The text is read on one line. -/
theorem text_of_parseFields (admissible : Admissible draft.node)
    (noRichtext : ∀ child ∈ children, isRichcontent "NOTE" child = false) {id : String}
    {fields : NodeFields} (read : parseFields id (fieldNode depth draft children) = .ok fields) :
    fields.text = trimOr "Untitled" (inlined draft.node.text) := by
  rw [parseFields_fieldNode admissible noRichtext] at read
  obtain ⟨notes, -, rfl⟩ := map_eq_ok.mp read
  rfl

/-- A text comes back as well if it is on one line. -/
theorem parseFields_returns_text_iff (admissible : Admissible draft.node)
    (writable : isWritable draft.node = true)
    (noRichtext : ∀ child ∈ children, isRichcontent "NOTE" child = false) (sided : Bool)
    (id : String) :
    (∃ fields, parseFields id (fieldNode depth draft children) = .ok fields ∧
        carried sided fields = carried sided draft.node) ↔
      Survives draft.node ∧ OneLine draft.node.text := by
  rw [← parseFields_returns_iff admissible writable noRichtext sided id,
    ← trimOr_inlined_iff admissible.textTrimmed admissible.nonempty]
  constructor
  · rintro ⟨fields, read, same⟩
    have text : fields.text = draft.node.text := congrArg Prod.fst same
    refine ⟨⟨fields, read, ?_⟩, (text_of_parseFields admissible noRichtext read).symm.trans text⟩
    rw [← text]
    exact same
  · rintro ⟨⟨fields, read, same⟩, oneLine⟩
    have text : fields.text = draft.node.text :=
      (text_of_parseFields admissible noRichtext read).trans oneLine
    refine ⟨fields, read, ?_⟩
    rw [← text] at same
    exact same

end Fields

/-! ### Trees -/

/-- What a file carries of a tree, with the sides or without them, above and below. -/
def carriedWith (sided below : Bool) :
    MindMapTreeNode → RoseTree (Chars × Chars × Option Chars × Bool × Option Chars × Option Side)
  | .node node children => .node (carried sided node) (mapAll (carried below) children)

section Trees

variable (ids : Nat → String)

theorem map_carriedWith (below : Bool) (trees : List MindMapTreeNode) :
    trees.map (carriedWith below below) = mapAll (carried below) trees := by
  induction trees with
  | nil => rfl
  | cons tree trees ih =>
      cases tree with
      | node node children => rw [List.map_cons, ih]; rfl

/-- Texts and rich text are no nodes. -/
theorem parseNodes_spacedNodes (drawn depth : Nat) (items : List Node) :
    parseNodes ids drawn (spacedNodes depth items) = parseNodes ids drawn items := by
  have text (drawn depth : Nat) (others : List Node) :
      parseNodes ids drawn (.text (lineStart depth) :: others) = parseNodes ids drawn others := by
    rw [parseNodes, if_neg]
    exact (Option.some_ne_none "node").symm
  have lines (drawn : Nat) (items : List Node) :
      parseNodes ids drawn ((items.flatMap fun item => [.text (lineStart (depth + 1)), item]) ++
        [.text (lineStart depth)]) = parseNodes ids drawn items := by
    induction items generalizing drawn with
    | nil => exact text drawn depth []
    | cons item items ih =>
        rw [List.flatMap_cons, List.append_assoc, List.cons_append, text, List.singleton_append,
          parseNodes, parseNodes]
        simp only [ih]
  unfold spacedNodes
  split_ifs with empty
  · rw [List.isEmpty_iff.mp empty]
  · exact lines drawn items

/-- An element is read field by field, then its children. -/
theorem parseNode_fieldNode (drawn depth : Nat) (draft : Draft) (children : List Node) :
    parseNode ids drawn (fieldNode depth draft children) = do
      let fields ← parseFields (ids drawn) (fieldNode depth draft children)
      let (children, drawn) ← parseNodes ids (drawn + 1) children
      return (.node fields children, drawn) := by
  have notes : parseNodes ids (drawn + 1) (noteNodes depth draft.node.notes ++ children) =
      parseNodes ids (drawn + 1) children := by
    unfold noteNodes
    split_ifs
    · rfl
    · rw [List.singleton_append, parseNodes, if_neg]
      exact (by decide : ¬some "richcontent" = some "node")
  rw [← notes, ← parseNodes_spacedNodes ids (drawn + 1) depth]
  rfl

theorem isRichcontent_draftNodes (depth : Nat) (trees : List (RoseTree Draft)) :
    ∀ child ∈ draftNodes depth trees, isRichcontent "NOTE" child = false := by
  induction trees with
  | nil => exact List.forall_mem_nil _
  | cons tree trees ih =>
      rw [draftNodes, List.forall_mem_cons]
      refine ⟨?_, ih⟩
      cases tree with
      | node draft children => rfl

/-- What is known of the nodes below a root. -/
def Returns (draft : Draft) : Prop := Survives draft.node ∧ OneLine draft.node.text

mutual

/-- A node and what is below it come back exactly if each of them does. -/
theorem parseNode_returns_iff : ∀ (drawn depth : Nat) (sided below : Bool) (tree : RoseTree Draft),
    (∀ draft ∈ tree.labels, Admissible draft.node) →
    (tree.labels.all fun draft => isWritable draft.node) = true →
    ((∃ parsed after, parseNode ids drawn (draftNode depth tree) = .ok (parsed, after) ∧
        carriedWith sided below parsed = carriedWith sided below (tree.map Draft.node)) ↔
      ∀ draft ∈ tree.labels, Returns draft)
  | drawn, depth, sided, below, .node draft children, admissible, writable => by
      rw [RoseTree.labels, List.forall_mem_cons] at admissible
      rw [RoseTree.labels, List.all_cons, Bool.and_eq_true] at writable
      have here : (∃ fields, parseFields (ids drawn)
          (fieldNode depth draft (draftNodes (depth + 1) children)) = .ok fields ∧
            carried sided fields = carried sided draft.node) ↔ Returns draft :=
        parseFields_returns_text_iff admissible.1 writable.1
          (isRichcontent_draftNodes (depth + 1) children) sided (ids drawn)
      have under := parseNodes_returns_iff (drawn + 1) (depth + 1) below below children
        admissible.2 writable.2
      rw [RoseTree.labels, List.forall_mem_cons, ← here, ← under,
        ← Freemind.parsed_iff ids (parseNode_fieldNode ids drawn depth draft _)]
      constructor
      · rintro ⟨⟨fields, trees⟩, after, read, same⟩
        obtain ⟨sameFields, sameTrees⟩ := RoseTree.node.inj same
        refine ⟨fields, trees, after, read, sameFields, ?_⟩
        rw [map_carriedWith, map_carriedWith, sameTrees]
      · rintro ⟨fields, trees, after, read, sameFields, sameTrees⟩
        refine ⟨.node fields trees, after, read, ?_⟩
        rw [map_carriedWith, map_carriedWith] at sameTrees
        rw [RoseTree.map, carriedWith, carriedWith, sameFields, sameTrees]

theorem parseNodes_returns_iff : ∀ (drawn depth : Nat) (sided below : Bool)
    (trees : List (RoseTree Draft)),
    (∀ draft ∈ labelsAll trees, Admissible draft.node) →
    ((labelsAll trees).all fun draft => isWritable draft.node) = true →
    ((∃ parsed after, parseNodes ids drawn (draftNodes depth trees) = .ok (parsed, after) ∧
        parsed.map (carriedWith sided below) =
          (mapAll Draft.node trees).map (carriedWith sided below)) ↔
      ∀ draft ∈ labelsAll trees, Returns draft)
  | drawn, _, _, _, [], _, _ =>
      iff_of_true ⟨[], drawn, rfl, rfl⟩ (List.forall_mem_nil _)
  | drawn, depth, sided, below, tree :: trees, admissible, writable => by
      rw [labelsAll, List.forall_mem_append] at admissible
      rw [labelsAll, List.all_append, Bool.and_eq_true] at writable
      have named : lowerName (draftNode depth tree) = some "node" := by
        cases tree with
        | node draft children => exact (by decide : some "node" = some "node")
      rw [labelsAll, List.forall_mem_append,
        ← parseNode_returns_iff drawn depth sided below tree admissible.1 writable.1, draftNodes,
        mapAll, List.map_cons]
      exact Freemind.parseNodes_cons_iff named fun drawn =>
        parseNodes_returns_iff drawn depth sided below trees admissible.2 writable.2

end

end Trees

/-! ### Exporting again -/

section Again

variable (now : Nat → Nat)

/-- What is written of a node is what the file carries. -/
theorem elementXml_of_carried {first second : NodeFields}
    (same : carried true first = carried true second) (id : Chars) (depth : Nat)
    (children : List Chars) :
    elementXml first id depth children = elementXml second id depth children := by
  simp only [carried, if_true, Prod.mk.injEq] at same
  obtain ⟨text, notes, color, collapsed, link, side⟩ := same
  have links (node : NodeFields) :
      (node.urls.head?.map fun first => ("LINK", escapeXml first.url)) =
        (node.urls.head?.map UrlEntry.url).map fun url => ("LINK", escapeXml url) := by
    rw [Option.map_map]
    rfl
  have attributes : attributesText first id = attributesText second id := by
    rw [attributesText, attributesText, attributes, attributes, links, links, text, color, side,
      collapsed, link]
  unfold elementXml
  rw [attributes, notes]

mutual

/-- Trees of which the file carries the same are written the same. -/
theorem nodeToXml_of_carried : ∀ (depth nodeCounter : Nat) (first second : MindMapTreeNode),
    first.map (carried true) = second.map (carried true) →
    nodeToXml now depth nodeCounter first = nodeToXml now depth nodeCounter second
  | depth, nodeCounter, .node node children, .node other others, same => by
      obtain ⟨sameFields, sameTrees⟩ := RoseTree.node.inj same
      rw [nodeToXml, nodeToXml, nodesToXml_of_carried (depth + 1) (nodeCounter + 1) children others
        sameTrees]
      simp only [elementXml_of_carried sameFields]

theorem nodesToXml_of_carried : ∀ (depth nodeCounter : Nat) (first second : List MindMapTreeNode),
    mapAll (carried true) first = mapAll (carried true) second →
    nodesToXml now depth nodeCounter first = nodesToXml now depth nodeCounter second
  | _, _, [], [], _ => rfl
  | depth, nodeCounter, tree :: trees, other :: others, same => by
      obtain ⟨sameTree, sameTrees⟩ := List.cons.inj same
      rw [nodesToXml, nodesToXml, nodeToXml_of_carried depth nodeCounter tree other sameTree]
      simp only [nodesToXml_of_carried depth _ trees others sameTrees]

end

/-- Maps of which the file carries the same are exported the same. -/
theorem treeToFreeplane_of_carried {first second : MindMapTreeNode}
    (same : first.map (carried true) = second.map (carried true)) :
    treeToFreeplane now first = treeToFreeplane now second := by
  unfold treeToFreeplane
  rw [nodeToXml_of_carried now 1 0 first second same]

end Again

/-! ### The round trip -/

/-- What a file carries of a map, with the sides or without them. -/
def carriedRoot (top sided below : Bool) :
    MindMapTreeNode → RoseTree (Chars × Chars × Option Chars × Bool × Option Chars × Option Side)
  | .node root children => .node (carried top root) (children.map (carriedWith sided below))

/-- The file of a map is imported as a map that has what the file carries, and whenever that is
exported, its file is the one that the map has then. -/
def Returned (ids : Nat → String) (parseFromString : Chars → Node) (now : Nat → Nat)
    (root : MindMapTreeNode) : Prop :=
  ∃ imported, freemindToTree ids parseFromString (treeToFreeplane now root) root.label.text =
      .ok imported ∧
    carriedMap imported = carriedMap root ∧
    ∀ later, treeToFreeplane later imported = treeToFreeplane later root

section RoundTrip

variable {ids : Nat → String} {parseFromString : Chars → Node} {now : Nat → Nat}
variable {root : MindMapTreeNode}

theorem carriedMap_eq : carriedMap = carriedRoot false true false := by
  have trees : carriedTree true = carriedWith true false := by
    funext tree
    cases tree with
    | node node children => rfl
  funext tree
  cases tree with
  | node node children => rw [carriedMap, carriedRoot, trees]

theorem map_carried_eq (tree : MindMapTreeNode) :
    tree.map (carried true) = carriedRoot true true true tree := by
  cases tree with
  | node node children => rw [carriedRoot, map_carriedWith, RoseTree.map]

/-- A map comes back exactly if its root survives and everything below it does with its text. -/
theorem root_returns_iff (ids : Nat → String) (top sided below : Bool) (tree : RoseTree Draft)
    (admissible : ∀ draft ∈ tree.labels, Admissible draft.node)
    (writable : (tree.labels.all fun draft => isWritable draft.node) = true) :
    (∃ parsed, parseNode ids 0 (draftNode 1 tree) = .ok parsed ∧
        carriedRoot top sided below (retitled tree.label.node.text parsed.1) =
          carriedRoot top sided below (tree.map Draft.node)) ↔
      (∀ draft ∈ tree.labels, Survives draft.node) ∧
        ∀ draft ∈ tree.labels.tail, OneLine draft.node.text := by
  obtain ⟨draft, children⟩ := tree
  rw [RoseTree.labels, List.forall_mem_cons] at admissible
  rw [RoseTree.labels, List.all_cons, Bool.and_eq_true] at writable
  have here : (∃ fields, parseFields (ids 0)
      (fieldNode 1 draft (draftNodes 2 children)) = .ok fields ∧
        carried top { fields with text := draft.node.text } = carried top draft.node) ↔
          Survives draft.node :=
    parseFields_returns_iff admissible.1 writable.1
      (isRichcontent_draftNodes 2 children) top (ids 0)
  have under := parseNodes_returns_iff ids 1 2 sided below children admissible.2 writable.2
  have titled (fields : NodeFields) (trees : List MindMapTreeNode) :
      carriedRoot top sided below (retitled draft.node.text (.node fields trees)) =
        .node (carried top { fields with text := draft.node.text })
          (trees.map (carriedWith sided below)) := by
    rw [retitled, if_neg admissible.1.nonempty]
    rfl
  have each : (∀ draft ∈ labelsAll children, Returns draft) ↔
      (∀ draft ∈ labelsAll children, Survives draft.node) ∧
        ∀ draft ∈ labelsAll children, OneLine draft.node.text := by
    simp only [Returns, ← forall_and]
  rw [RoseTree.labels, List.tail_cons, List.forall_mem_cons, and_assoc, ← each, ← here, ← under,
    ← Freemind.parsed_iff ids (parseNode_fieldNode ids 0 1 draft _)]
  constructor
  · rintro ⟨⟨⟨fields, trees⟩, after⟩, read, same⟩
    obtain ⟨sameFields, sameTrees⟩ := RoseTree.node.inj ((titled fields trees).symm.trans same)
    exact ⟨fields, trees, after, read, sameFields, sameTrees⟩
  · rintro ⟨fields, trees, after, read, sameFields, sameTrees⟩
    refine ⟨(.node fields trees, after), read, (titled fields trees).trans ?_⟩
    rw [sameFields, sameTrees]
    rfl

/-- The same of a map whose ids are drawn. -/
theorem draft_returns_iff (ids : Nat → String) (now : Nat → Nat) (top sided below : Bool)
    (admissible : ∀ node ∈ root.labels, Admissible node)
    (writable : root.labels.all isWritable = true) :
    (∃ parsed, parseNode ids 0 (draftNode 1 (draft now root)) = .ok parsed ∧
        carriedRoot top sided below (retitled root.label.text parsed.1) =
          carriedRoot top sided below root) ↔
      (∀ node ∈ root.labels, Survives node) ∧ ∀ node ∈ root.labels.tail, OneLine node.text := by
  rw [← all_draft now] at writable
  have returns := root_returns_iff ids top sided below (draft now root)
    (forall_draft now admissible) writable
  have label : (draft now root).label.node = root.label := by
    cases root with
    | node node children => rfl
  rw [map_draft, label] at returns
  rw [returns, ← labels_draft now root, ← List.map_tail, List.forall_mem_map, List.forall_mem_map]

/-- A node that survives is one that XML can carry. -/
theorem isWritable_of_survives {node : NodeFields} (survives : Survives node) :
    isWritable node = true := by
  rw [isWritable, Bool.and_eq_true, Option.all_eq_true, Option.all_eq_true]
  exact ⟨fun text listed => (survives.color text listed).2.2,
    fun first listed => (survives.link first listed).2.2⟩

/-- Where a map comes back its nodes survive. -/
theorem survives_of_returned (conforms : Conforms parseFromString)
    (admissible : ∀ node ∈ root.labels, Admissible node)
    (returned : Returned ids parseFromString now root) :
    (∀ node ∈ root.labels, Survives node) ∧ ∀ node ∈ root.labels.tail, OneLine node.text := by
  have valid : ∀ node ∈ root.labels, Freemind.IsXmlText node :=
    fun node listed => (admissible node listed).toIsXmlText
  obtain ⟨imported, read, same, -⟩ := returned
  by_cases writable : root.labels.all isWritable = true
  · rw [freemindToTree_of_writable ids now conforms valid writable] at read
    obtain ⟨parsed, isParsed, rfl⟩ := map_eq_ok.mp read
    rw [carriedMap_eq] at same
    exact (draft_returns_iff ids now false true false admissible writable).mp
      ⟨parsed, isParsed, same⟩
  · obtain ⟨error, refused⟩ :=
      freemindToTree_of_not_writable ids now conforms valid writable root.label.text
    rw [refused] at read
    exact absurd read (by simp)

/-- Nodes that survive come back, and are written again as they were. -/
theorem returned_of_survives (conforms : Conforms parseFromString)
    (admissible : ∀ node ∈ root.labels, Admissible node)
    (survive : ∀ node ∈ root.labels, Survives node)
    (oneLine : ∀ node ∈ root.labels.tail, OneLine node.text) :
    Returned ids parseFromString now root := by
  have writable : root.labels.all isWritable = true :=
    List.all_eq_true.mpr fun node listed => isWritable_of_survives (survive node listed)
  have returns (top sided below : Bool) :=
    (draft_returns_iff ids now top sided below admissible writable).mpr ⟨survive, oneLine⟩
  obtain ⟨parsed, isParsed, same⟩ := returns false true false
  obtain ⟨again, isAgain, whole⟩ := returns true true true
  rw [isParsed] at isAgain
  rw [← Except.ok.inj isAgain, ← map_carried_eq, ← map_carried_eq] at whole
  refine ⟨retitled root.label.text parsed.1, ?_, ?_, fun later => ?_⟩
  · rw [freemindToTree_of_writable ids now conforms
      (fun node listed => (admissible node listed).toIsXmlText) writable, isParsed]
    rfl
  · rw [carriedMap_eq]
    exact same
  · exact treeToFreeplane_of_carried later whole

end RoundTrip

/-- With a parser that conforms, a map comes back from its file, and is exported as the same
file again but for the ids, exactly if every node survives and every text but the root's is on
one line. -/
theorem freeplane_returned_iff {ids : Nat → String} {parseFromString : Chars → Node}
    {now : Nat → Nat} (conforms : Conforms parseFromString) {root : MindMapTreeNode}
    (admissible : ∀ node ∈ root.labels, Admissible node) :
    Returned ids parseFromString now root ↔
      (∀ node ∈ root.labels, Survives node) ∧ ∀ node ∈ root.labels.tail, OneLine node.text :=
  ⟨survives_of_returned conforms admissible,
    fun survive => returned_of_survives conforms admissible survive.1 survive.2⟩

instance (node : NodeFields) : Decidable (Survives node) :=
  decidable_of_iff
    ((NoBlankLine node.notes ∧
        ∀ pattern ∈ noteReferences.map Prod.fst, Regex.test pattern node.notes = false) ∧
      '\r' ∉ node.notes ∧
      (∀ color ∈ node.color, color ≠ [] ∧ OneLine color ∧ color.all isChar = true) ∧
      ∀ first ∈ node.urls.head?, first.url ≠ [] ∧ OneLine first.url ∧ first.url.all isChar = true)
    ⟨fun ⟨notes, noReturn, color, link⟩ => ⟨⟨notes.1, notes.2⟩, noReturn, color, link⟩,
      fun survives =>
        ⟨⟨survives.notes.1, survives.notes.2⟩, survives.noReturn, survives.color, survives.link⟩⟩

theorem freeplane_returned_iff_linedMap :
    Returned toString Xml.parse (fun _ => 1700000000000) Freemind.linedMap :=
  (freeplane_returned_iff conforms_parse (by decide +kernel)).mpr (by decide +kernel)

end Freeplane
end Formats
end MindMapVault
