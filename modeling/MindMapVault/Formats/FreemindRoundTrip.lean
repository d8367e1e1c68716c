import MindMapVault.Formats.FreemindRead
import MindMapVault.Foundations.XmlParse

/-!
# Maps exported to FreeMind and imported again

A map comes back from its file with what the file carries exactly if its notes are plain,
and no colour or first link is empty or has a character that XML cannot carry. Blank lines
between paragraphs become single line breaks, and entities that stand in the notes are decoded,
because `&amp;` is replaced before them.
-/

namespace MindMapVault
namespace Formats
namespace Freemind

open Xml Result
open RoseTree hiding node

/-! ### Nodes -/

/-- What a file carries of a node, with its side or without. -/
def carried (sided : Bool) (node : NodeFields) :
    Chars × Chars × Option Chars × Bool × Option Chars × Option Side :=
  (node.text, node.notes, node.color, node.collapsed, node.urls.head?.map UrlEntry.url,
    if sided then node.side else none)

/-- What is in a node survives the file. -/
structure Survives (node : NodeFields) : Prop where
  notes : PlainNotes node.notes
  color : ∀ color ∈ node.color, color ≠ [] ∧ color.all isChar = true
  link : ∀ first ∈ node.urls.head?, first.url ≠ [] ∧ first.url.all isChar = true

section Fields

variable {node : NodeFields} {sided : Bool} {children : List Node}

theorem plainNotes_nil : PlainNotes [] where
  noBlank := by decide
  noReference := noReference_iff.mpr fun stage listed =>
    Regex.find?_of_countP_replaceAll (lightens_of_mem stage listed) (Nat.zero_le _)

/-- An empty value counts as none. -/
theorem filter_eq_self_iff {value : Option Chars} :
    value.filter (· ≠ []) = value ↔ ∀ text ∈ value, text ≠ [] := by
  cases value with
  | none => simp
  | some text =>
      cases text with
      | nil => simp
      | cons char text => simp

/-- The notes, the colour and the first link decide what comes back of a node. -/
theorem carried_readFields (admissible : Admissible node) (id : String) (notes : Chars) :
    carried sided (readFields id node sided notes) = carried sided node ↔
      notes = node.notes ∧ (∀ color ∈ node.color, color ≠ []) ∧
        ∀ first ∈ node.urls.head?, first.url ≠ [] := by
  have text : (makeNode id node.text).text = node.text := by
    rw [makeNode, trimOr, admissible.textTrimmed, if_neg admissible.nonempty]
  have link : (((node.urls.head?.map UrlEntry.url).filter (· ≠ [])).map
      fun link => (⟨link, []⟩ : UrlEntry)).toList.head?.map UrlEntry.url =
        (node.urls.head?.map UrlEntry.url).filter (· ≠ []) := by
    cases (node.urls.head?.map UrlEntry.url).filter (· ≠ []) with
    | none => rfl
    | some link => rfl
  have side : (if sided then if sided then node.side else none else none) =
      if sided then node.side else none := by
    cases sided with
    | false => rfl
    | true => rfl
  simp only [carried, readFields, text, link, side, Prod.mk.injEq, true_and, and_true,
    filter_eq_self_iff]
  simp

/-- A node comes back exactly if it survives, once XML can carry it. -/
theorem parseFields_returns_iff (admissible : Admissible node) (writable : isWritable node = true)
    (noRichtext : ∀ child ∈ children, isRichcontent "NOTE" child = false) (id : String) :
    (∃ fields, parseFields id (fieldNode node sided children) = .ok fields ∧
        carried sided fields = carried sided node) ↔ Survives node := by
  have stripped : (if node.notes = [] then Except.ok []
      else stripHtml (paragraphsHtml (paragraphLines node.notes))) = .ok node.notes ↔
        PlainNotes node.notes := by
    by_cases none : node.notes = []
    · rw [if_pos none, none]
      exact iff_of_true rfl plainNotes_nil
    · rw [if_neg none]
      exact stripHtml_paragraphLines_iff admissible.notesTrimmed none
  rw [parseFields_fieldNode admissible noRichtext]
  rw [isWritable, Bool.and_eq_true, Option.all_eq_true, Option.all_eq_true] at writable
  constructor
  · rintro ⟨fields, read, same⟩
    obtain ⟨notes, isRead, rfl⟩ := map_eq_ok.mp read
    obtain ⟨rfl, color, link⟩ := (carried_readFields admissible id notes).mp same
    exact ⟨stripped.mp isRead, fun text listed => ⟨color text listed, writable.1 text listed⟩,
      fun first listed => ⟨link first listed, writable.2 first listed⟩⟩
  · intro survives
    refine ⟨readFields id node sided node.notes, ?_, ?_⟩
    · rw [stripped.mpr survives.notes]
      rfl
    · exact (carried_readFields admissible id node.notes).mpr
        ⟨rfl, fun text listed => (survives.color text listed).1,
          fun first listed => (survives.link first listed).1⟩

end Fields

/-! ### Trees -/

/-- What a file carries of a tree, with the side of its root or without. -/
def carriedTree (sided : Bool) :
    MindMapTreeNode → RoseTree (Chars × Chars × Option Chars × Bool × Option Chars × Option Side)
  | .node node children => .node (carried sided node) (mapAll (carried false) children)

/-- What a file carries of a map: the sides of the root's children. -/
def carriedMap :
    MindMapTreeNode → RoseTree (Chars × Chars × Option Chars × Bool × Option Chars × Option Side)
  | .node root children => .node (carried false root) (children.map (carriedTree true))

section Trees

variable (ids : Nat → String)

theorem map_carriedTree (trees : List MindMapTreeNode) :
    trees.map (carriedTree false) = mapAll (carried false) trees := by
  induction trees with
  | nil => rfl
  | cons tree trees ih =>
      cases tree with
      | node node children => rw [List.map_cons, ih]; rfl

/-- Texts and rich text are no nodes. -/
theorem parseNodes_linedNodes (drawn : Nat) (notes : Chars) (children : List Node) :
    parseNodes ids drawn (linedNodes (noteNodes notes ++ children)) =
      parseNodes ids drawn children := by
  have text (data : Chars) (others : List Node) :
      parseNodes ids drawn (.text data :: others) = parseNodes ids drawn others := by
    rw [parseNodes, if_neg]
    exact (Option.some_ne_none "node").symm
  have lines (items : List Node) :
      parseNodes ids drawn (linedNodes items) = parseNodes ids drawn items := by
    cases items with
    | nil => rfl
    | cons item items => exact text _ _
  rw [lines, noteNodes]
  split_ifs with none
  · rfl
  · rw [List.cons_append, List.cons_append, List.nil_append, parseNodes, if_neg, text]
    exact (by decide : ¬some "richcontent" = some "node")

/-- An element is read field by field, then its children. -/
theorem parseNode_fieldNode (drawn : Nat) (node : NodeFields) (sided : Bool)
    (children : List Node) :
    parseNode ids drawn (fieldNode node sided children) = do
      let fields ← parseFields (ids drawn) (fieldNode node sided children)
      let (children, drawn) ← parseNodes ids (drawn + 1) children
      return (.node fields children, drawn) := by
  rw [← parseNodes_linedNodes ids (drawn + 1) node.notes children]
  rfl

/-- The elements of the children are no notes. -/
theorem isRichcontent_treeNodes (sided : Bool) (trees : List MindMapTreeNode) :
    ∀ child ∈ treeNodes sided trees, isRichcontent "NOTE" child = false := by
  induction trees with
  | nil => exact List.forall_mem_nil _
  | cons tree trees ih =>
      rw [treeNodes, List.forall_mem_cons, List.forall_mem_cons]
      refine ⟨?_, rfl, ih⟩
      cases tree with
      | node node children => rfl

/-- An element is read as what its fields and the elements below are read as. -/
theorem parsed_iff {element : Node} {below : List Node} {drawn : Nat}
    (opens : parseNode ids drawn element = do
      let fields ← parseFields (ids drawn) element
      let (children, drawn) ← parseNodes ids (drawn + 1) below
      return (.node fields children, drawn))
    {sameFields : NodeFields → Prop} {sameTrees : List MindMapTreeNode → Prop} :
    (∃ fields trees after, parseNode ids drawn element = .ok (.node fields trees, after) ∧
        sameFields fields ∧ sameTrees trees) ↔
      (∃ fields, parseFields (ids drawn) element = .ok fields ∧ sameFields fields) ∧
        ∃ trees after, parseNodes ids (drawn + 1) below = .ok (trees, after) ∧ sameTrees trees := by
  rw [opens]
  constructor
  · rintro ⟨fields, trees, after, read, fieldsBack, treesBack⟩
    obtain ⟨found, isFields, read⟩ := bind_eq_ok.mp read
    obtain ⟨parsed, isTrees, read⟩ := bind_eq_ok.mp read
    obtain ⟨sameTree, -⟩ := Prod.mk.inj (Except.ok.inj read)
    obtain ⟨rfl, rfl⟩ := RoseTree.node.inj sameTree
    exact ⟨⟨found, isFields, fieldsBack⟩, parsed.1, parsed.2, isTrees, treesBack⟩
  · rintro ⟨⟨fields, isFields, fieldsBack⟩, trees, after, isTrees, treesBack⟩
    refine ⟨fields, trees, after, ?_, fieldsBack, treesBack⟩
    rw [isFields]
    change (parseNodes ids (drawn + 1) below >>= _) = _
    rw [isTrees]
    rfl

/-- A node and what is below it come back exactly if each of them does. -/
theorem node_returns_iff {node : NodeFields} (sided below : Bool)
    {children : List MindMapTreeNode} (admissible : Admissible node)
    (writable : isWritable node = true) (drawn : Nat)
    {same : List MindMapTreeNode → Prop} {each : Prop}
    (returns : ∀ drawn, (∃ trees after,
      parseNodes ids drawn (treeNodes below children) = .ok (trees, after) ∧ same trees) ↔ each) :
    (∃ fields trees after, parseNode ids drawn
          (fieldNode node sided (treeNodes below children)) = .ok (.node fields trees, after) ∧
        carried sided fields = carried sided node ∧ same trees) ↔ Survives node ∧ each := by
  have here : (∃ fields,
      parseFields (ids drawn) (fieldNode node sided (treeNodes below children)) = .ok fields ∧
        carried sided fields = carried sided node) ↔ Survives node :=
    parseFields_returns_iff admissible writable (isRichcontent_treeNodes below children) _
  rw [← here, ← returns (drawn + 1), ← parsed_iff ids (parseNode_fieldNode ids drawn node sided _)]

omit ids in
/-- Nodes are read as wanted if the first is, and the others are with whatever ids. -/
theorem parseNodes_cons_iff {ids : Nat → String} {drawn : Nat} {child : Node}
    {others : List Node} (named : lowerName child = some "node")
    {Carried : Type} {carry : MindMapTreeNode → Carried} {first : Carried} {rest : List Carried}
    {returns : Prop}
    (each : ∀ drawn, (∃ parsed after, parseNodes ids drawn others = .ok (parsed, after) ∧
      parsed.map carry = rest) ↔ returns) :
    (∃ parsed after, parseNodes ids drawn (child :: others) = .ok (parsed, after) ∧
        parsed.map carry = first :: rest) ↔
      (∃ parsed after, parseNode ids drawn child = .ok (parsed, after) ∧ carry parsed = first) ∧
        returns := by
  rw [parseNodes, if_pos named]
  constructor
  · rintro ⟨parsed, after, read, same⟩
    obtain ⟨here, isFirst, read⟩ := bind_eq_ok.mp read
    obtain ⟨later, isRest, read⟩ := bind_eq_ok.mp read
    obtain ⟨rfl, -⟩ := Prod.mk.inj (Except.ok.inj read)
    obtain ⟨sameFirst, sameRest⟩ := List.cons.inj same
    exact ⟨⟨here.1, here.2, isFirst, sameFirst⟩,
      (each here.2).mp ⟨later.1, later.2, isRest, sameRest⟩⟩
  · rintro ⟨⟨here, between, isFirst, sameFirst⟩, holds⟩
    obtain ⟨later, after, isRest, sameRest⟩ := (each between).mpr holds
    refine ⟨here :: later, after, ?_, ?_⟩
    · rw [isFirst]
      change (parseNodes ids between others >>= _) = _
      rw [isRest]
      rfl
    · rw [List.map_cons, sameFirst, sameRest]

mutual

/-- A tree comes back exactly if each of its nodes survives. -/
theorem parseNode_returns_iff : ∀ (drawn : Nat) (sided : Bool) (tree : MindMapTreeNode),
    (∀ node ∈ tree.labels, Admissible node) → tree.labels.all isWritable = true →
    ((∃ parsed after, parseNode ids drawn (treeNode sided tree) = .ok (parsed, after) ∧
        carriedTree sided parsed = carriedTree sided tree) ↔
      ∀ node ∈ tree.labels, Survives node)
  | drawn, sided, .node node children, admissible, writable => by
      rw [RoseTree.labels, List.forall_mem_cons] at admissible
      rw [RoseTree.labels, List.all_cons, Bool.and_eq_true] at writable
      rw [RoseTree.labels, List.forall_mem_cons]
      have returns := node_returns_iff ids sided false admissible.1 writable.1 drawn
        (fun drawn => parseNodes_returns_iff drawn false children admissible.2 writable.2)
      rw [← returns]
      constructor
      · rintro ⟨⟨fields, trees⟩, after, read, same⟩
        obtain ⟨sameFields, sameTrees⟩ := RoseTree.node.inj same
        refine ⟨fields, trees, after, read, sameFields, ?_⟩
        rw [map_carriedTree, map_carriedTree, sameTrees]
      · rintro ⟨fields, trees, after, read, sameFields, sameTrees⟩
        refine ⟨.node fields trees, after, read, ?_⟩
        rw [map_carriedTree, map_carriedTree] at sameTrees
        rw [carriedTree, carriedTree, sameFields, sameTrees]

theorem parseNodes_returns_iff : ∀ (drawn : Nat) (sided : Bool) (trees : List MindMapTreeNode),
    (∀ node ∈ labelsAll trees, Admissible node) →
    (labelsAll trees).all isWritable = true →
    ((∃ parsed after, parseNodes ids drawn (treeNodes sided trees) = .ok (parsed, after) ∧
        parsed.map (carriedTree sided) = trees.map (carriedTree sided)) ↔
      ∀ node ∈ labelsAll trees, Survives node)
  | drawn, sided, [], _, _ =>
      iff_of_true ⟨[], drawn, rfl, rfl⟩ (List.forall_mem_nil _)
  | drawn, sided, tree :: trees, admissible, writable => by
      rw [labelsAll, List.forall_mem_append] at admissible
      rw [labelsAll, List.all_append, Bool.and_eq_true] at writable
      have named : lowerName (treeNode sided tree) = some "node" := by
        cases tree with
        | node node children => exact (by decide : some "node" = some "node")
      rw [labelsAll, List.forall_mem_append,
        ← parseNode_returns_iff drawn sided tree admissible.1 writable.1, List.map_cons, treeNodes]
      -- the line break after an element is passed over
      exact parseNodes_cons_iff named fun between =>
        parseNodes_returns_iff between sided trees admissible.2 writable.2

end

end Trees

/-! ### Exporting again -/

section Again

variable {sided : Bool}

/-- What is written of a node is what the file carries. -/
theorem elementXml_of_carried {first second : NodeFields}
    (same : carried sided first = carried sided second) (hasChildren : Bool) (children : Chars) :
    elementXml first sided hasChildren children = elementXml second sided hasChildren children := by
  simp only [carried, Prod.mk.injEq] at same
  obtain ⟨text, notes, color, collapsed, link, side⟩ := same
  have position : (if sided then first.side.map sideText else none) =
      if sided then second.side.map sideText else none := by
    cases sided with
    | false => rfl
    | true => exact congrArg (Option.map sideText) side
  have attributes : attributes first sided = attributes second sided := by
    rw [attributes_eq, attributes_eq, text, color, collapsed, link, position]
  have written : nodeAttributes first sided = nodeAttributes second sided := by
    rw [nodeAttributes, nodeAttributes, attributes]
  unfold elementXml
  rw [written, notes]

mutual

/-- Trees of which the file carries the same are written the same. -/
theorem nodeToXml_of_carriedTree : ∀ (sided : Bool) (first second : MindMapTreeNode),
    carriedTree sided first = carriedTree sided second →
    nodeToXml sided first = nodeToXml sided second
  | sided, .node node children, .node other others, same => by
      obtain ⟨sameFields, sameTrees⟩ := RoseTree.node.inj same
      have length : children.length = others.length := by
        rw [← length_mapAll (carried false) children, sameTrees, length_mapAll]
      rw [← map_carriedTree, ← map_carriedTree] at sameTrees
      rw [nodeToXml, nodeToXml, elementXml_of_carried sameFields, length,
        nodesToXml_of_carriedTree false children others sameTrees]

theorem nodesToXml_of_carriedTree : ∀ (sided : Bool) (first second : List MindMapTreeNode),
    first.map (carriedTree sided) = second.map (carriedTree sided) →
    nodesToXml sided first = nodesToXml sided second
  | _, [], [], _ => rfl
  | sided, tree :: trees, other :: others, same => by
      obtain ⟨sameTree, sameTrees⟩ := List.cons.inj same
      rw [nodesToXml, nodesToXml, nodeToXml_of_carriedTree sided tree other sameTree,
        nodesToXml_of_carriedTree sided trees others sameTrees]

end

/-- Maps that carry the same are written as the same file. -/
theorem treeToFreemind_of_carriedMap {first second : MindMapTreeNode}
    (same : carriedMap first = carriedMap second) :
    treeToFreemind first = treeToFreemind second := by
  obtain ⟨node, children⟩ := first
  obtain ⟨other, others⟩ := second
  obtain ⟨sameFields, sameTrees⟩ := RoseTree.node.inj same
  have length : children.length = others.length := by
    rw [← List.length_map (carriedTree true), sameTrees, List.length_map]
  have root : serializeRoot (.node node children) = serializeRoot (.node other others) := by
    rw [serializeRoot, serializeRoot, elementXml_of_carried sameFields, length,
      nodesToXml_of_carriedTree true children others sameTrees]
  unfold treeToFreemind
  rw [root]

end Again

/-! ### The round trip -/

/-- The file of a map is imported as a map that has what the file carries, and its own file is
the same. -/
def Returned (ids : Nat → String) (parseFromString : Chars → Node) (root : MindMapTreeNode) :
    Prop :=
  ∃ imported, freemindToTree ids parseFromString (treeToFreemind root) root.label.text =
      .ok imported ∧
    carriedMap imported = carriedMap root ∧ treeToFreemind imported = treeToFreemind root

section RoundTrip

variable {ids : Nat → String} {parseFromString : Chars → Node} {root : MindMapTreeNode}

/-- A root that is read has the text it had. -/
theorem text_of_parseFields {node fields : NodeFields} {sided : Bool} {children : List Node}
    (admissible : Admissible node)
    (noRichtext : ∀ child ∈ children, isRichcontent "NOTE" child = false) {id : String}
    (read : parseFields id (fieldNode node sided children) = .ok fields) :
    fields.text = node.text := by
  rw [parseFields_fieldNode admissible noRichtext] at read
  obtain ⟨notes, -, rfl⟩ := map_eq_ok.mp read
  change trimOr "Untitled" node.text = node.text
  rw [trimOr, admissible.textTrimmed, if_neg admissible.nonempty]

/-- The title of an import is the text that the root has. -/
theorem carriedMap_retitled {title : Chars} {fields : NodeFields} {trees : List MindMapTreeNode}
    (same : fields.text = title) :
    carriedMap (retitled title (.node fields trees)) =
      .node (carried false fields) (trees.map (carriedTree true)) := by
  rw [retitled, carriedMap]
  simp only [carried, same, ite_self]

/-- A map comes back exactly if each of its nodes does. -/
theorem rootNode_returns_iff (ids : Nat → String)
    (admissible : ∀ node ∈ root.labels, Admissible node)
    (writable : root.labels.all isWritable = true) :
    (∃ parsed, parseNode ids 0 (rootNode root) = .ok parsed ∧
        carriedMap (retitled root.label.text parsed.1) = carriedMap root) ↔
      ∀ node ∈ root.labels, Survives node := by
  obtain ⟨node, children⟩ := root
  rw [RoseTree.labels, List.forall_mem_cons] at admissible
  rw [RoseTree.labels, List.all_cons, Bool.and_eq_true] at writable
  have returns := node_returns_iff ids false true admissible.1 writable.1 0
    (fun drawn => parseNodes_returns_iff ids drawn true children admissible.2 writable.2)
  have text {fields : NodeFields} {trees : List MindMapTreeNode} {after : Nat}
      (read : parseNode ids 0 (fieldNode node false (treeNodes true children)) =
        .ok (.node fields trees, after)) : fields.text = node.text := by
    rw [parseNode_fieldNode] at read
    obtain ⟨found, isFields, read⟩ := bind_eq_ok.mp read
    obtain ⟨parsed, -, read⟩ := bind_eq_ok.mp read
    obtain ⟨sameTree, -⟩ := Prod.mk.inj (Except.ok.inj read)
    rw [← (RoseTree.node.inj sameTree).1]
    exact text_of_parseFields admissible.1 (isRichcontent_treeNodes true children) isFields
  rw [RoseTree.labels, List.forall_mem_cons, ← returns, rootNode]
  constructor
  · rintro ⟨⟨⟨fields, trees⟩, after⟩, read, same⟩
    obtain ⟨sameFields, sameTrees⟩ :=
      RoseTree.node.inj ((carriedMap_retitled (text read)).symm.trans same)
    exact ⟨fields, trees, after, read, sameFields, sameTrees⟩
  · rintro ⟨fields, trees, after, read, sameFields, sameTrees⟩
    refine ⟨(.node fields trees, after), read, (carriedMap_retitled (text read)).trans ?_⟩
    rw [sameFields, sameTrees]
    rfl

/-- A node whose colour or link XML cannot carry does not survive. -/
theorem isWritable_of_survives {node : NodeFields} (survives : Survives node) :
    isWritable node = true := by
  rw [isWritable, Bool.and_eq_true, Option.all_eq_true, Option.all_eq_true]
  exact ⟨fun text listed => (survives.color text listed).2,
    fun first listed => (survives.link first listed).2⟩

/-- Where a map comes back its nodes survive. -/
theorem survives_of_returned (conforms : Conforms parseFromString)
    (admissible : ∀ node ∈ root.labels, Admissible node)
    (returned : Returned ids parseFromString root) : ∀ node ∈ root.labels, Survives node := by
  have valid : ∀ node ∈ root.labels, IsXmlText node :=
    fun node listed => (admissible node listed).toIsXmlText
  obtain ⟨imported, read, same, -⟩ := returned
  by_cases writable : root.labels.all isWritable = true
  · rw [freemindToTree_of_writable ids conforms valid writable] at read
    obtain ⟨parsed, isParsed, rfl⟩ := map_eq_ok.mp read
    exact (rootNode_returns_iff ids admissible writable).mp ⟨parsed, isParsed, same⟩
  · obtain ⟨error, refused⟩ :=
      freemindToTree_of_not_writable ids conforms valid writable root.label.text
    rw [refused] at read
    exact absurd read (by simp)

/-- Where every node survives the map comes back. -/
theorem returned_of_survives (conforms : Conforms parseFromString)
    (admissible : ∀ node ∈ root.labels, Admissible node)
    (survive : ∀ node ∈ root.labels, Survives node) : Returned ids parseFromString root := by
  have writable : root.labels.all isWritable = true :=
    List.all_eq_true.mpr fun node listed => isWritable_of_survives (survive node listed)
  obtain ⟨parsed, isParsed, same⟩ := (rootNode_returns_iff ids admissible writable).mpr survive
  refine ⟨_, ?_, same, treeToFreemind_of_carriedMap same⟩
  rw [freemindToTree_of_writable ids conforms
    (fun node listed => (admissible node listed).toIsXmlText) writable, isParsed]
  rfl

end RoundTrip

/-- With a parser that conforms, a map comes back from its file, and is exported as the same
file again, exactly if every node survives. -/
theorem freemind_returned_iff {ids : Nat → String} {parseFromString : Chars → Node}
    (conforms : Conforms parseFromString) {root : MindMapTreeNode}
    (admissible : ∀ node ∈ root.labels, Admissible node) :
    Returned ids parseFromString root ↔ ∀ node ∈ root.labels, Survives node :=
  ⟨survives_of_returned conforms admissible, returned_of_survives conforms admissible⟩

/-- A map with notes on two lines, marks in its texts, a colour, a link and a side. -/
def linedMap : MindMapTreeNode :=
  .node (makeNode "root" "Plan".toList)
    [.node { makeNode "a" "x < y & z".toList with
        notes := "first\n<second> & \"third\"".toList
        collapsed := true
        color := some "#ff0000".toList
        urls := [⟨"http://a/?b&c".toList, []⟩]
        side := some .left } [.node (makeNode "b" "below".toList) []]]

/-- A map whose notes are two paragraphs. -/
def paragraphsMap : MindMapTreeNode :=
  .node { makeNode "root" "Plan".toList with notes := "first\n\nsecond".toList } []

instance (node : NodeFields) : Decidable (Admissible node) :=
  decidable_of_iff
    (node.text.all isChar = true ∧ node.notes.all isChar = true ∧
      Ecma.trimChars node.text = node.text ∧ node.text ≠ [] ∧ htmlStart.test node.text = false ∧
      Ecma.trimChars node.notes = node.notes)
    ⟨fun ⟨text, notes, textTrimmed, nonempty, plainText, notesTrimmed⟩ =>
        ⟨⟨text, notes⟩, textTrimmed, nonempty, plainText, notesTrimmed⟩,
      fun admissible => ⟨admissible.text, admissible.notes, admissible.textTrimmed,
        admissible.nonempty, admissible.plainText, admissible.notesTrimmed⟩⟩

instance (node : NodeFields) : Decidable (Survives node) :=
  decidable_of_iff
    ((NoBlankLine node.notes ∧
        ∀ pattern ∈ noteReferences.map Prod.fst, Regex.test pattern node.notes = false) ∧
      (∀ color ∈ node.color, color ≠ [] ∧ color.all isChar = true) ∧
      ∀ first ∈ node.urls.head?, first.url ≠ [] ∧ first.url.all isChar = true)
    ⟨fun ⟨notes, color, link⟩ => ⟨⟨notes.1, notes.2⟩, color, link⟩,
      fun survives => ⟨⟨survives.notes.1, survives.notes.2⟩, survives.color, survives.link⟩⟩

theorem freemind_returned_iff_linedMap : Returned toString Xml.parse linedMap :=
  (freemind_returned_iff conforms_parse (by decide +kernel)).mpr (by decide +kernel)

/-- Two paragraphs come back with a single line break between them. -/
theorem blank_line_lost :
    Conforms Xml.parse ∧ (∀ node ∈ paragraphsMap.labels, Admissible node) ∧
      ¬Returned toString Xml.parse paragraphsMap := by
  have admissible : ∀ node ∈ paragraphsMap.labels, Admissible node := by decide +kernel
  refine ⟨conforms_parse, admissible, fun returned => ?_⟩
  exact absurd (survives_of_returned conforms_parse admissible returned) (by decide +kernel)

end Freemind
end Formats
end MindMapVault
