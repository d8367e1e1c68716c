import MindMapVault.Formats.FreemindMarkup
import MindMapVault.Formats.FreeplaneExport

/-!
# FreePlane files as markup

The ids are drawn first, and the file is the text of a document that is written of the nodes
with their ids. What a parser reads of it is known from the nodes: white space in a text is
blanks, and between the elements stand line breaks and the blanks before each line.
-/

namespace MindMapVault
namespace Formats
namespace Freeplane

open Ecma Xml
open RoseTree hiding node
open Xml.Markup (renderAll GrammarAll nodes)
open Freemind (IsXmlText isWritable)

/-! ### Ids -/

/-- A node with an id that can stand in an attribute. -/
structure Draft where
  node : NodeFields
  id : Chars
  plain : id.all isWord = true

theorem isWord_nextId (now : Nat → Nat) (nodeCounter : Nat) :
    (nextId now nodeCounter).all isWord = true := by
  have digits (number : Nat) : (Nat.toDigits 10 number).all isWord = true :=
    List.all_eq_true.mpr (forall_toDigits (by decide) (by decide) number)
  rw [nextId, List.all_append, List.all_append, digits, digits]
  rfl

/-- A node with the next id. -/
def drafted (now : Nat → Nat) (nodeCounter : Nat) (node : NodeFields) : Nat × Draft :=
  (nodeCounter + 1, ⟨node, nextId now (nodeCounter + 1), isWord_nextId now (nodeCounter + 1)⟩)

/-- A map with its ids. -/
def draft (now : Nat → Nat) (root : MindMapTreeNode) : RoseTree Draft :=
  (RoseTree.walk (drafted now) 0 root).2

mutual

/-- What is written of a tree with its ids. -/
def draftXml (depth : Nat) : RoseTree Draft → Chars
  | .node draft children =>
      elementXml draft.node draft.id depth (draftsXml (depth + 1) children)

def draftsXml (depth : Nat) : List (RoseTree Draft) → List Chars
  | [] => []
  | child :: children => draftXml depth child :: draftsXml depth children

end

section Drafts

variable (now : Nat → Nat)

/-- Without its ids it is the map that was exported. -/
theorem map_draft (root : MindMapTreeNode) : RoseTree.map Draft.node (draft now root) = root := by
  have keeps : ∀ nodeCounter node, (drafted now nodeCounter node).2.node = id node := fun _ _ => rfl
  rw [draft, map_walk keeps, map_id]

/-- Drawing the ids keeps the nodes. -/
theorem labels_draft (root : MindMapTreeNode) :
    (draft now root).labels.map Draft.node = root.labels := by
  rw [← labels_map, map_draft]

mutual

/-- The ids are drawn in the order of the file. -/
theorem nodeToXml_eq (depth nodeCounter : Nat) : ∀ tree : MindMapTreeNode,
    nodeToXml now depth nodeCounter tree =
      (draftXml depth (RoseTree.walk (drafted now) nodeCounter tree).2,
        (RoseTree.walk (drafted now) nodeCounter tree).1)
  | .node node children => by
      rw [nodeToXml, nodesToXml_eq (depth + 1) (nodeCounter + 1) children]
      rfl

/-- The export draws the ids in order and writes the drafts. -/
theorem nodesToXml_eq (depth nodeCounter : Nat) : ∀ trees : List MindMapTreeNode,
    nodesToXml now depth nodeCounter trees =
      (draftsXml depth (walkAll (drafted now) nodeCounter trees).2,
        (walkAll (drafted now) nodeCounter trees).1)
  | [] => rfl
  | child :: children => by
      rw [nodesToXml, nodeToXml_eq depth nodeCounter child]
      simp only [nodesToXml_eq depth _ children]
      rfl

end

end Drafts

/-! ### Attributes -/

/-- What is escaped into the attributes of a node. -/
def fields (draft : Draft) : List (String × Option Chars) :=
  [("TEXT", some draft.node.text),
    ("ID", some draft.id),
    ("COLOR", draft.node.color.filter (· ≠ [])),
    ("POSITION", draft.node.side.map positionText),
    ("FOLDED", if draft.node.collapsed then some "true".toList else none),
    ("LINK", draft.node.urls.head?.map UrlEntry.url)]

/-- What is read in the tag of a node. -/
def readAttributes (draft : Draft) : List (String × Chars) :=
  (Xml.present (fields draft)).map fun field => (field.1, inlined field.2)

section Attributes

variable (draft : Draft)

/-- No mark is a letter or a digit. -/
theorem escapeXml_of_isWord {text : Chars} (plain : text.all isWord = true) :
    escapeXml text = text :=
  escapeXml_of_all rfl plain

/-- The attributes that are written are those of the element, escaped. -/
theorem attributes_eq :
    attributes draft.node draft.id =
      (Xml.present (fields draft)).map fun field => (field.1, escapeXml field.2) := by
  have id : escapeXml draft.id = draft.id := escapeXml_of_isWord draft.plain
  have folded : escapeXml "true".toList = "true".toList := escapeXml_of_isWord rfl
  have position (side : Side) : escapeXml (positionText side) = positionText side := by
    cases side with
    | left => exact escapeXml_of_isWord rfl
    | right => exact escapeXml_of_isWord rfl
  have sided : (draft.node.side.map fun side => ("POSITION", positionText side)) =
      (draft.node.side.map positionText).map fun text => ("POSITION", escapeXml text) := by
    rw [Option.map_map]
    exact Option.map_congr fun side _ => congrArg _ (position side).symm
  have collapsed : (if draft.node.collapsed then [("FOLDED", "true".toList)] else []) =
      ((if draft.node.collapsed then some "true".toList else none).map
        fun text => ("FOLDED", escapeXml text)).toList := by
    cases draft.node.collapsed with
    | false => rfl
    | true => exact congrArg (fun text => [("FOLDED", text)]) folded.symm
  rw [attributes, sided, collapsed, fields]
  simp only [map_present_cons, Option.map_map, Function.comp_def, List.append_assoc]
  simp [Xml.present, id]

/-- No attribute is written twice. -/
theorem nodup_fields : ((fields draft).map Prod.fst).Nodup :=
  (by decide : ["TEXT", "ID", "COLOR", "POSITION", "FOLDED", "LINK"].Nodup)

theorem names_attributes :
    ((attributes draft.node draft.id).map Prod.fst).Sublist
      ["TEXT", "ID", "COLOR", "POSITION", "FOLDED", "LINK"] := by
  rw [attributes_eq, List.map_map]
  exact names_present (fields draft)

/-- The attributes are as XML has them. -/
theorem grammar_attributes :
    ∀ field ∈ attributes draft.node draft.id, Markup.AttributeGrammar field := by
  have names : ∀ name ∈ (fields draft).map Prod.fst, Markup.IsName name :=
    (by decide : ∀ name ∈ ["TEXT", "ID", "COLOR", "POSITION", "FOLDED", "LINK"], Markup.IsName name)
  rw [attributes_eq]
  exact grammar_escaped names

variable {draft}

/-- A colour and a link as they are read, if XML can carry them. -/
theorem attributeValues_written (valid : draft.node.text.all isChar = true) :
    Markup.attributeValues (attributes draft.node draft.id) =
      if isWritable draft.node = true then some (readAttributes draft) else none := by
  have id : draft.id.all isChar = true :=
    List.all_eq_true.mpr fun ch listed =>
      isChar_of_isWord (List.all_eq_true.mp draft.plain ch listed)
  have color : (draft.node.color.filter (· ≠ [])).all (·.all isChar) =
      draft.node.color.all (·.all isChar) := by
    cases draft.node.color with
    | none => rfl
    | some color =>
        cases color with
        | nil => rfl
        | cons first rest => rfl
  have position : (draft.node.side.map positionText).all (·.all isChar) = true := by
    cases draft.node.side with
    | none => rfl
    | some side =>
        cases side with
        | left => rfl
        | right => rfl
  have folded : (if draft.node.collapsed then some "true".toList else none).all
      (·.all isChar) = true := by
    cases draft.node.collapsed with
    | false => rfl
    | true => rfl
  have all : ((Xml.present (fields draft)).all fun field => field.2.all isChar) =
      isWritable draft.node := by
    rw [all_present (List.all · isChar), fields]
    simp only [List.all_cons, List.all_nil, Option.all_some, valid, id, color, position, folded,
      Option.all_map, Bool.true_and, Bool.and_true]
    rfl
  rw [attributes_eq, attributeValues_map attributeValue_escapeXml, all]
  rfl

/-- The tag of a node as it is written. -/
theorem flatMap_attributes (draft : Draft) :
    (attributes draft.node draft.id).flatMap renderAttribute =
      ' ' :: attributesText draft.node draft.id := by
  have some : attributes draft.node draft.id ≠ [] := by
    rw [attributes_eq]
    exact List.cons_ne_nil _ _
  rw [flatMap_renderAttribute some]
  rfl

end Attributes

/-! ### Trees -/

/-- The rich text of notes, if there are any. -/
def noteItems (depth : Nat) (notes : Chars) : List Markup :=
  if trimChars notes = [] then []
  else
    [.element "richcontent" [("TYPE", "NOTE".toList)]
      (spaced (depth + 1) [htmlMarkup ((paragraphLines (trimChars notes)).map (·.map escapeXml))])]

/-- The element of a node. -/
def fieldMarkup (depth : Nat) (draft : Draft) (children : List Markup) : Markup :=
  .element "node" (attributes draft.node draft.id)
    (spaced depth (noteItems depth draft.node.notes ++ children))

mutual

/-- The element of a tree. -/
def draftMarkup (depth : Nat) : RoseTree Draft → Markup
  | .node draft children => fieldMarkup depth draft (draftsMarkup (depth + 1) children)

def draftsMarkup (depth : Nat) : List (RoseTree Draft) → List Markup
  | [] => []
  | child :: children => draftMarkup depth child :: draftsMarkup depth children

end

/-- An exported file. -/
def freeplaneDocument (root : RoseTree Draft) : Document where
  declared := true
  before := ['\n']
  root := .element "map" [("version", "freeplane 1.9.0".toList)] (spaced 0 [draftMarkup 1 root])
  after := []

section Render

/-- A part of an element on lines of its own. -/
theorem render_noteItems {notes : Chars} (some : trimChars notes ≠ []) (depth : Nat) :
    ((noteItems depth notes).flatMap fun item => lineStart (depth + 1) ++ item.render) =
      [indentation depth ++ "  <richcontent TYPE=\"NOTE\">".toList,
        indentation depth ++ "    ".toList ++ notesToHtml escapeXml notes,
        indentation depth ++ "  </richcontent>".toList].flatMap ("\n".toList ++ ·) := by
  have html := render_htmlMarkup_paragraphLines some fun _ => escapeXml_eq_nil.mp
  rw [noteItems, if_neg some, List.flatMap_singleton, Markup.render, renderAll_spaced,
    List.isEmpty_cons, if_neg Bool.false_ne_true, List.flatMap_singleton, html]
  simp [elementText, renderAttribute, lineStart, indentation_succ]

/-- An element with something in it, line by line. -/
theorem render_lines (depth : Nat) (draft : Draft) {items : List Markup} {parts : List Chars}
    (some : items ≠ [])
    (same : (items.flatMap fun item => lineStart (depth + 1) ++ item.render) =
      parts.flatMap ("\n".toList ++ ·)) :
    indentation depth ++ (Markup.element "node" (attributes draft.node draft.id)
        (spaced depth items)).render =
      "\n".toList.intercalate
        ([indentation depth ++ "<node ".toList ++ attributesText draft.node draft.id ++
            ">".toList] ++ parts ++ [indentation depth ++ "</node>".toList]) := by
  have filled : items.isEmpty = false := List.isEmpty_eq_false_iff.mpr some
  have content : ((parts.flatMap ("\n".toList ++ ·)) ++ lineStart depth).isEmpty = false :=
    List.isEmpty_eq_false_iff.mpr (List.append_ne_nil_of_right_ne_nil _ (List.cons_ne_nil _ _))
  rw [Markup.render, renderAll_spaced, filled, if_neg Bool.false_ne_true, same, elementText,
    flatMap_attributes, content, if_neg Bool.false_ne_true, List.append_assoc [_],
    List.singleton_append, intercalate_cons, List.flatMap_append, List.flatMap_singleton]
  simp [lineStart]

/-- What is rendered is what is exported. -/
theorem render_fieldMarkup (depth : Nat) (draft : Draft) {written : List Chars}
    {children : List Markup}
    (same : written = children.map fun child => indentation (depth + 1) ++ child.render) :
    indentation depth ++ (fieldMarkup depth draft children).render =
      elementXml draft.node draft.id depth written := by
  have lines : (children.flatMap fun child => lineStart (depth + 1) ++ child.render) =
      written.flatMap ("\n".toList ++ ·) := by
    rw [same, List.flatMap_map]
    rfl
  unfold elementXml
  simp only
  by_cases none : trimChars draft.node.notes = []
  · have noItems : noteItems depth draft.node.notes = [] := if_pos none
    rw [fieldMarkup, noItems, List.nil_append]
    cases children with
    | nil =>
        rw [same, Markup.render, elementText, flatMap_attributes]
        simp [none, spaced, renderAll]
    | cons child children =>
        have some : 0 < written.length := by simp [same]
        rw [if_neg fun both => both.2 some, if_neg (not_not.mpr none)]
        exact render_lines depth draft (List.cons_ne_nil _ _) lines
  · have someItems : noteItems depth draft.node.notes ++ children ≠ [] := by
      rw [noteItems, if_neg none]
      exact List.cons_ne_nil _ _
    rw [if_neg fun both => both.1 none, if_pos none]
    rw [List.append_assoc [_] _ written]
    refine render_lines depth draft someItems ?_
    rw [List.flatMap_append, List.flatMap_append, render_noteItems none depth, lines]

mutual

/-- A tree is written as its markup. -/
theorem draftXml_eq (depth : Nat) : ∀ tree : RoseTree Draft,
    draftXml depth tree = indentation depth ++ (draftMarkup depth tree).render
  | .node draft children => by
      rw [draftXml, draftMarkup]
      exact (render_fieldMarkup depth draft (draftsXml_eq (depth + 1) children)).symm

theorem draftsXml_eq (depth : Nat) : ∀ trees : List (RoseTree Draft),
    draftsXml depth trees =
      (draftsMarkup depth trees).map fun child => indentation depth ++ child.render
  | [] => rfl
  | child :: children => by
      rw [draftsXml, draftXml_eq depth child, draftsXml_eq depth children]
      rfl

end

/-- The file is the text of the document. -/
theorem render_freeplaneDocument (now : Nat → Nat) (root : MindMapTreeNode) :
    (freeplaneDocument (draft now root)).render = treeToFreeplane now root := by
  unfold treeToFreeplane
  rw [nodeToXml_eq, draftXml_eq]
  simp [freeplaneDocument, Document.render, Markup.render, renderAll_spaced, elementText,
    renderAttribute, declaration, lineStart, draft, indentation]

end Render

/-! ### Grammar -/

section Grammar

theorem grammar_noteItems (depth : Nat) (notes : Chars) :
    ∀ item ∈ noteItems depth notes, item.Grammar ∧ item.isText = false := by
  unfold noteItems
  split_ifs with none
  · exact List.forall_mem_nil _
  · have type : ∀ field ∈ [("TYPE", "NOTE".toList)], Markup.AttributeGrammar field := by
      decide
    have clean : ∀ lines ∈ (paragraphLines (trimChars notes)).map (·.map escapeXml),
        ∀ line ∈ lines, ∀ ch ∈ line, ch ≠ '<' ∧ ch ≠ '>' := by
      rw [List.forall_mem_map]
      intro lines _
      rw [List.forall_mem_map]
      intro line _ ch listed
      obtain ⟨noLess, noGreater, -⟩ := escapeXml_clean line ch listed
      exact ⟨noLess, noGreater⟩
    have html : ∀ item ∈ [htmlMarkup ((paragraphLines (trimChars notes)).map
        (·.map escapeXml))], item.Grammar ∧ item.isText = false := by
      rw [List.forall_mem_singleton]
      exact ⟨grammar_htmlMarkup clean, rfl⟩
    rw [List.forall_mem_singleton]
    exact ⟨⟨⟨by decide, rfl⟩, List.nodup_singleton _, type, grammarAll_spaced html _⟩, rfl⟩

theorem grammar_fieldMarkup (depth : Nat) (draft : Draft) {children : List Markup}
    (each : ∀ child ∈ children, child.Grammar ∧ child.isText = false) :
    (fieldMarkup depth draft children).Grammar := by
  have items : ∀ item ∈ noteItems depth draft.node.notes ++ children,
      item.Grammar ∧ item.isText = false := by
    rw [List.forall_mem_append]
    exact ⟨grammar_noteItems depth draft.node.notes, each⟩
  exact ⟨⟨by decide, rfl⟩, (names_attributes draft).nodup (by decide), grammar_attributes draft,
    grammarAll_spaced items depth⟩

mutual

theorem grammar_draftMarkup (depth : Nat) : ∀ tree : RoseTree Draft,
    (draftMarkup depth tree).Grammar
  | .node draft children => grammar_fieldMarkup depth draft (grammar_draftsMarkup _ children)

theorem grammar_draftsMarkup (depth : Nat) : ∀ trees : List (RoseTree Draft),
    ∀ child ∈ draftsMarkup depth trees, child.Grammar ∧ child.isText = false
  | [] => List.forall_mem_nil _
  | .node draft children :: trees =>
      List.forall_mem_cons.mpr ⟨⟨grammar_draftMarkup depth (.node draft children), rfl⟩,
        grammar_draftsMarkup depth trees⟩

end

/-- An exported file is an XML document. -/
theorem grammar_freeplaneDocument (root : RoseTree Draft) :
    (freeplaneDocument root).Grammar := by
  have version : ∀ field ∈ [("version", "freeplane 1.9.0".toList)],
      Markup.AttributeGrammar field := by
    decide
  have map : ∀ item ∈ [draftMarkup 1 root], item.Grammar ∧ item.isText = false := by
    rw [List.forall_mem_singleton]
    refine ⟨grammar_draftMarkup 1 root, ?_⟩
    cases root with
    | node draft children => rfl
  exact ⟨⟨_, _, _, rfl⟩,
    ⟨⟨by decide, rfl⟩, List.nodup_singleton _, version, grammarAll_spaced map 0⟩, rfl, rfl⟩

end Grammar

/-! ### Nodes -/

/-- The lines of notes as they are read. -/
def readLines (notes : Chars) : List (List Chars) :=
  (paragraphLines (trimChars notes)).map (·.map normalizeBreaks)

/-- What is read of the rich text of notes. -/
def noteNodes (depth : Nat) (notes : Chars) : List Node :=
  if trimChars notes = [] then []
  else
    [.element "richcontent" [("TYPE", "NOTE".toList)]
      (spacedNodes (depth + 1) [htmlNode (readLines notes)])]

/-- What is read of the element of a node. -/
def fieldNode (depth : Nat) (draft : Draft) (children : List Node) : Node :=
  .element "node" (readAttributes draft)
    (spacedNodes depth (noteNodes depth draft.node.notes ++ children))

mutual

def draftNode (depth : Nat) : RoseTree Draft → Node
  | .node draft children => fieldNode depth draft (draftNodes (depth + 1) children)

def draftNodes (depth : Nat) : List (RoseTree Draft) → List Node
  | [] => []
  | child :: children => draftNode depth child :: draftNodes depth children

end

/-- What is read of an exported file. -/
def mapNode (root : RoseTree Draft) : Node :=
  .element "map" [("version", "freeplane 1.9.0".toList)] (spacedNodes 0 [draftNode 1 root])

section Nodes

theorem readsLine_escapeXml {line : Chars} (valid : line.all isChar = true) :
    ReadsLine escapeXml normalizeBreaks line where
  data := by rw [characterData_escapeXml, if_pos valid]
  empty := escapeXml_eq_nil.trans normalizeBreaks_eq_nil.symm

/-- The notes of a node are read as they are rendered. -/
theorem nodes_noteItems (depth : Nat) {notes : Chars} (valid : notes.all isChar = true) :
    nodes (noteItems depth notes) = some (noteNodes depth notes) := by
  unfold noteItems noteNodes
  split_ifs with none
  · rfl
  · have inside : ∀ ch ∈ trimChars notes, isChar ch = true :=
      fun ch listed => List.all_eq_true.mp valid ch ((infix_trimChars notes).subset listed)
    have html := node_htmlMarkup fun lines inNotes line inLines =>
      readsLine_escapeXml (List.all_eq_true.mpr
        (forall_mem_paragraphLines (by decide) inside lines inNotes line inLines))
    have type : attributeValue "NOTE".toList = some "NOTE".toList := by decide
    simp only [nodes, Markup.node, Xml.Markup.attributeValues, nodes_spaced, html, type]
    rfl

/-- An element is read back exactly if XML can carry its fields. -/
theorem node_fieldMarkup (depth : Nat) {draft : Draft} (valid : IsXmlText draft.node)
    (children : List Markup) :
    (fieldMarkup depth draft children).node =
      if isWritable draft.node = true then (nodes children).map (fieldNode depth draft)
      else none := by
  rw [fieldMarkup, Markup.node, attributeValues_written valid.text, nodes_spaced, nodes_append,
    nodes_noteItems depth valid.notes]
  split_ifs
  · cases nodes children with
    | none => rfl
    | some others => rfl
  · rfl

mutual

/-- The file is read if XML can carry all colours and links. -/
theorem node_draftMarkup (depth : Nat) : ∀ tree : RoseTree Draft,
    (∀ draft ∈ tree.labels, IsXmlText draft.node) →
    (draftMarkup depth tree).node =
      if (tree.labels.all fun draft => isWritable draft.node) = true then
        some (draftNode depth tree)
      else none
  | .node draft children, valid => by
      rw [RoseTree.labels, List.forall_mem_cons] at valid
      rw [draftMarkup, node_fieldMarkup depth valid.1,
          nodes_draftsMarkup (depth + 1) children valid.2,
        RoseTree.labels, List.all_cons]
      cases isWritable draft.node with
      | false => rfl
      | true =>
          rw [if_pos rfl, Bool.true_and]
          split_ifs
          · rfl
          · rfl

/-- The elements are read if XML can carry every attribute. -/
theorem nodes_draftsMarkup (depth : Nat) : ∀ trees : List (RoseTree Draft),
    (∀ draft ∈ labelsAll trees, IsXmlText draft.node) →
    nodes (draftsMarkup depth trees) =
      if ((labelsAll trees).all fun draft => isWritable draft.node) = true then
        some (draftNodes depth trees)
      else none
  | [], _ => rfl
  | tree :: trees, valid => by
      rw [labelsAll, List.forall_mem_append] at valid
      rw [draftsMarkup, nodes, node_draftMarkup depth tree valid.1,
        nodes_draftsMarkup depth trees valid.2, labelsAll, List.all_append]
      cases tree.labels.all fun draft => isWritable draft.node with
      | false => rfl
      | true =>
          rw [if_pos rfl, Bool.true_and]
          split_ifs
          · rfl
          · rfl

end

/-- A file is read back exactly if XML can carry all of its fields. -/
theorem node_freeplaneDocument {root : RoseTree Draft}
    (valid : ∀ draft ∈ root.labels, IsXmlText draft.node) :
    (freeplaneDocument root).root.node =
      if (root.labels.all fun draft => isWritable draft.node) = true then some (mapNode root)
      else none := by
  have version : attributeValue "freeplane 1.9.0".toList = some "freeplane 1.9.0".toList := by
    decide
  simp only [freeplaneDocument, Markup.node, Xml.Markup.attributeValues, version, nodes_spaced,
    nodes, node_draftMarkup 1 root valid]
  by_cases writable : (root.labels.all fun draft => isWritable draft.node) = true
  · rw [if_pos writable, if_pos writable]
    rfl
  · rw [if_neg writable, if_neg writable]
    rfl

end Nodes

end Freeplane
end Formats
end MindMapVault
