import MindMapVault.Formats.FreemindMarkup

/-!
# Reading FreeMind files

What an import makes of an exported file, node by node: the fields of its attributes, and the
notes that stripping the HTML of its rich text gives.
-/

namespace MindMapVault
namespace Formats
namespace Freemind

open Xml (Markup Node)

/-! ### Elements -/

/-- The elements of an exported file. -/
def elementNames : List String := ["map", "node", "richcontent", "html", "head", "body", "p", "br"]

section Names

theorem names_lineItems (lines : List Chars) :
    Markup.tagNamesAll (lineItems lines) ⊆ elementNames := by
  have text (raw : Chars) : Markup.tagNamesAll (textItem raw) = [] := by
    unfold textItem
    split_ifs
    · rfl
    · rfl
  induction lines using lineItems.induct with
  | case1 => exact List.nil_subset _
  | case2 line =>
      rw [lineItems, text]
      exact List.nil_subset _
  | case3 line next lines ih =>
      rw [lineItems, Markup.tagNamesAll_append, text, List.nil_append, Markup.tagNamesAll]
      exact List.append_subset.mpr ⟨by decide, ih⟩

theorem names_htmlMarkup (paragraphs : List (List Chars)) :
    (htmlMarkup paragraphs).tagNames ⊆ elementNames := by
  have body : Markup.tagNamesAll (paragraphs.map fun lines =>
      .element "p" [] (lineItems lines)) ⊆ elementNames := by
    induction paragraphs with
    | nil => exact List.nil_subset _
    | cons lines paragraphs ih =>
        rw [List.map_cons, Markup.tagNamesAll, Markup.tagNames]
        exact List.append_subset.mpr ⟨List.cons_subset.mpr ⟨by decide, names_lineItems lines⟩, ih⟩
  simp only [htmlMarkup, Markup.tagNames, Markup.tagNamesAll, List.append_nil]
  exact List.cons_subset.mpr ⟨by decide,
    List.append_subset.mpr ⟨by decide, List.cons_subset.mpr ⟨by decide, body⟩⟩⟩

/-- The element of a node has a known name, and so has what is inside if it has. -/
theorem names_fieldMarkup (node : NodeFields) (parentIsRoot : Bool) {children : List Markup}
    (inside : Markup.tagNamesAll children ⊆ elementNames) :
    (fieldMarkup node parentIsRoot children).tagNames ⊆ elementNames := by
  have notes : Markup.tagNamesAll (noteItems node.notes) ⊆ elementNames := by
    unfold noteItems
    split_ifs
    · exact List.nil_subset _
    · simp only [Markup.tagNamesAll, Markup.tagNames, List.append_nil]
      exact List.cons_subset.mpr ⟨by decide, names_htmlMarkup _⟩
  have all : Markup.tagNamesAll (noteItems node.notes ++ children) ⊆ elementNames := by
    rw [Markup.tagNamesAll_append]
    exact List.append_subset.mpr ⟨notes, inside⟩
  have lines : Markup.tagNamesAll (lined (noteItems node.notes ++ children)) ⊆ elementNames := by
    unfold lined
    split_ifs
    · exact List.nil_subset _
    · exact all
  exact List.cons_subset.mpr ⟨by decide, lines⟩

mutual

theorem names_nodeMarkup : ∀ (parentIsRoot : Bool) (tree : MindMapTreeNode),
    (nodeMarkup parentIsRoot tree).tagNames ⊆ elementNames
  | parentIsRoot, .node node children =>
      names_fieldMarkup node parentIsRoot (names_nodesMarkup false children)

theorem names_nodesMarkup : ∀ (parentIsRoot : Bool) (trees : List MindMapTreeNode),
    Markup.tagNamesAll (nodesMarkup parentIsRoot trees) ⊆ elementNames
  | _, [] => List.nil_subset _
  | parentIsRoot, tree :: trees =>
      List.append_subset.mpr
        ⟨names_nodeMarkup parentIsRoot tree, names_nodesMarkup parentIsRoot trees⟩

end

/-- A file has elements of the few known names only. -/
theorem names_freemindDocument (root : MindMapTreeNode) :
    (freemindDocument root).root.tagNames ⊆ elementNames := by
  obtain ⟨node, children⟩ := root
  have element := names_fieldMarkup node false (names_nodesMarkup true children)
  simp only [freemindDocument, Markup.tagNames, Markup.tagNamesAll, List.nil_append,
    List.append_nil, rootMarkup]
  exact List.cons_subset.mpr ⟨by decide, element⟩

end Names

/-! ### Files -/

section Files

variable (ids : Nat → String) {parseFromString : Chars → Node} {root : MindMapTreeNode}

/-- An exported file that XML can carry is imported from its root element. -/
theorem freemindToTree_of_writable (conforms : Xml.Conforms parseFromString)
    (valid : ∀ node ∈ root.labels, IsXmlText node)
    (writable : root.labels.all isWritable = true) (title : Chars) :
    freemindToTree ids parseFromString (treeToFreemind root) title =
      (parseNode ids 0 (rootNode root)).map fun parsed => retitled title parsed.1 := by
  have isNode := node_freemindDocument valid
  rw [if_pos writable] at isNode
  have read : parseFromString (treeToFreemind root) = mapNode root := by
    rw [← render_freemindDocument]
    exact conforms.accepts _ _ (grammar_freemindDocument root) isNode
  have noError : Xml.querySelector (mapNode root) "parsererror" = none :=
    Xml.querySelector_eq_none isNode fun inside =>
      absurd (names_freemindDocument root inside) (by decide)
  have found : Xml.querySelector (mapNode root) "map" = some (mapNode root) := by
    rw [Xml.querySelector, mapNode, Node.inclusive]
    exact List.find?_cons_of_pos rfl
  have child : childNamed (mapNode root) "node" = some (rootNode root) := by
    cases root with
    | node node children => rfl
  simp only [freemindToTree, read, noError, found, child]

/-- A file that XML cannot carry is not imported. -/
theorem freemindToTree_of_not_writable (conforms : Xml.Conforms parseFromString)
    (valid : ∀ node ∈ root.labels, IsXmlText node)
    (invalid : ¬root.labels.all isWritable = true) (title : Chars) :
    ∃ error, freemindToTree ids parseFromString (treeToFreemind root) title = .error error := by
  have isNode := node_freemindDocument valid
  rw [if_neg invalid] at isNode
  have rejected := conforms.rejects _ (grammar_freemindDocument root) isNode
  rw [render_freemindDocument] at rejected
  obtain ⟨parseError, found⟩ := Option.isSome_iff_exists.mp rejected
  exact ⟨_, by simp only [freemindToTree, found]; rfl⟩

end Files

/-! ### Fields -/

/-- What the claimed trees have of a node: a text and notes as XML can carry them. -/
structure Admissible (node : NodeFields) : Prop extends IsXmlText node where
  textTrimmed : Ecma.trimChars node.text = node.text
  nonempty : node.text ≠ []
  plainText : htmlStart.test node.text = false
  notesTrimmed : Ecma.trimChars node.notes = node.notes

section Fields

variable {node : NodeFields} {parentIsRoot : Bool} {children : List Node}

/-- An attribute of the element that is read. -/
theorem getAttribute_fieldNode (node : NodeFields) (parentIsRoot : Bool) (children : List Node)
    (name : String) :
    (fieldNode node parentIsRoot children).getAttribute name =
      (attributes node parentIsRoot).lookup name :=
  lookup_sortedAttributes node parentIsRoot name

theorem getAttribute_text (valid : IsXmlText node) :
    (fieldNode node parentIsRoot children).getAttribute "TEXT" = some node.text := by
  rw [getAttribute_fieldNode, lookup_attributes, if_pos rfl, map_nul valid.text]

/-- A text that is no HTML is read from its attribute. -/
theorem nodeText_fieldNode (admissible : Admissible node) :
    nodeText (fieldNode node parentIsRoot children) = .ok node.text := by
  have raw : ¬(node.text = [] ∨ htmlStart.test node.text = true) := by
    rw [admissible.plainText]
    simp [admissible.nonempty]
  rw [nodeText, getAttribute_text admissible.toIsXmlText, Option.getD_some]
  exact if_neg raw

/-- Notes are read from the body of the rich text. -/
theorem nodeNotes_fieldNode (trimmed : Ecma.trimChars node.notes = node.notes)
    (noRichtext : ∀ child ∈ children, isRichcontent "NOTE" child = false) :
    nodeNotes (fieldNode node parentIsRoot children) =
      if node.notes = [] then .ok []
        else stripHtml (paragraphsHtml (paragraphLines node.notes)) := by
  by_cases none : node.notes = []
  · have absent : (fieldNode node parentIsRoot children).children.find? (isRichcontent "NOTE") =
        Option.none := by
      refine List.find?_eq_none.mpr fun child listed => ?_
      have inside := List.mem_of_mem_filter listed
      have empty : noteNodes node.notes = [] := by
        rw [none]
        rfl
      rw [fieldNode, Node.childNodes, empty, List.nil_append, linedNodes] at inside
      split_ifs at inside
      · exact absurd inside List.not_mem_nil
      · rcases List.mem_cons.mp inside with rfl | later
        · exact Bool.false_ne_true
        · rw [noRichtext child later]
          exact Bool.false_ne_true
    rw [nodeNotes, absent, if_pos none]
  · have found : (fieldNode node parentIsRoot children).children.find? (isRichcontent "NOTE") =
        some (.element "richcontent" [("TYPE", "NOTE".toList)]
          [htmlNode (paragraphLines node.notes)]) := by
      rw [Node.children, fieldNode, Node.childNodes, noteNodes, trimmed, if_neg none]
      rfl
    have body : (Node.element "richcontent" [("TYPE", "NOTE".toList)]
        [htmlNode (paragraphLines node.notes)]).querySelector "body" =
          some (bodyNode (paragraphLines node.notes)) := rfl
    rw [nodeNotes, found, if_neg none]
    change richText _ = _
    rw [richText, body, Option.getD_some, innerHTML_bodyNode (filled_paragraphLines trimmed none)]

/-- What is read of a node with some notes. -/
def readFields (id : String) (node : NodeFields) (parentIsRoot : Bool) (notes : Chars) :
    NodeFields :=
  { makeNode id node.text with
    color := node.color.filter (· ≠ [])
    collapsed := node.collapsed
    side := if parentIsRoot then node.side else none
    urls := (((node.urls.head?.map UrlEntry.url).filter (· ≠ [])).map fun link => ⟨link, []⟩).toList
    notes := notes }

/-- The fields of a node are read from its element, and its notes from their HTML. -/
theorem parseFields_fieldNode (admissible : Admissible node)
    (noRichtext : ∀ child ∈ children, isRichcontent "NOTE" child = false) (id : String) :
    parseFields id (fieldNode node parentIsRoot children) =
      (if node.notes = [] then .ok []
        else stripHtml (paragraphsHtml (paragraphLines node.notes))).map
          (readFields id node parentIsRoot) := by
  have color : ((node.color.filter (· ≠ [])).filter (· ≠ [])).or none =
      node.color.filter (· ≠ []) := by
    rw [Option.or_none, Option.filter_filter]
    simp
  have folded : ((if node.collapsed then some "true".toList else none) == some "true".toList) =
      node.collapsed := by
    cases node.collapsed with
    | false => rfl
    | true => rfl
  have side : sideOf (if parentIsRoot then node.side.map sideText else none) =
      if parentIsRoot then node.side else none := by
    cases parentIsRoot with
    | false => rfl
    | true =>
        cases node.side with
        | none => rfl
        | some side =>
            cases side with
            | left => rfl
            | right => rfl
  have value (name : String) : (fieldNode node parentIsRoot children).getAttribute name = _ :=
    (getAttribute_fieldNode node parentIsRoot children name).trans
      (lookup_attributes node parentIsRoot name)
  have colorValue : (fieldNode node parentIsRoot children).getAttribute "COLOR" =
      node.color.filter (· ≠ []) := value "COLOR"
  have foldedValue : (fieldNode node parentIsRoot children).getAttribute "FOLDED" =
      if node.collapsed then some "true".toList else none := value "FOLDED"
  have sideValue : (fieldNode node parentIsRoot children).getAttribute "POSITION" =
      if parentIsRoot then node.side.map sideText else none := value "POSITION"
  have linkValue : (fieldNode node parentIsRoot children).getAttribute "LINK" =
      node.urls.head?.map UrlEntry.url := value "LINK"
  have backgroundValue : (fieldNode node parentIsRoot children).getAttribute "BACKGROUND_COLOR" =
      none := value "BACKGROUND_COLOR"
  have encryptedValue : (fieldNode node parentIsRoot children).getAttribute "ENCRYPTED_CONTENT" =
      none := value "ENCRYPTED_CONTENT"
  rw [parseFields, nodeText_fieldNode admissible,
    nodeNotes_fieldNode admissible.notesTrimmed noRichtext]
  generalize (if node.notes = [] then Except.ok []
    else stripHtml (paragraphsHtml (paragraphLines node.notes))) = stripped
  cases stripped with
  | error error => rfl
  | ok notes =>
      change Except.ok _ = Except.ok _
      simp only [colorValue, foldedValue, sideValue, linkValue, backgroundValue, encryptedValue,
        folded, side, Option.filter_none, color]
      rfl

end Fields

end Freemind
end Formats
end MindMapVault
