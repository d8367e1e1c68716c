import MindMapVault.Foundations.XmlSections
import MindMapVault.Formats.FreemindMarkup
import MindMapVault.Formats.Wisemapping

/-!
# WiseMapping files as markup

Each node is given what its place in the map adds to it, and the file is the text of a document
that is written of the nodes and their places. What a parser reads of it is known from them: a
text on one line with blanks for its tabs, and any other text with line breaks for its returns.
-/

namespace MindMapVault
namespace Formats
namespace Wisemapping

open Ecma Xml
open Xml.Markup (renderAll GrammarAll nodes)
open Freemind (isWritable)

/-! ### Places -/

/-- A node and what its place in the map adds to it. -/
structure Topic where
  node : NodeFields
  depth : Nat
  order : Nat
  isRoot : Bool
  side : Option Side
  id : Nat
  hasChildren : Bool

mutual

/-- A map with the places of its nodes, and the number of topics before and after. -/
def place (depth order : Nat) (isRoot : Bool) (side : Option Side) (topicCounter : Nat) :
    MindMapTreeNode → RoseTree Topic × Nat
  | .node node children =>
      let (placed, counted) := placeAll (depth + 1) 0 side (topicCounter + 1) children
      (.node ⟨node, depth, order, isRoot, side, topicCounter + 1, !children.isEmpty⟩ placed,
       counted)

def placeAll (depth order : Nat) (side : Option Side) (topicCounter : Nat) :
    List MindMapTreeNode → List (RoseTree Topic) × Nat
  | [] => ([], topicCounter)
  | child :: children =>
      let (first, counted) := place depth order false (child.label.side.or side) topicCounter child
      let (rest, counted) := placeAll depth (order + 1) side counted children
      (first :: rest, counted)

end

/-- The topics of a map. -/
def topics (root : MindMapTreeNode) : RoseTree Topic := (place 1 0 true none 0 root).1

/-! ### Attributes -/

/-- The text on one line. -/
def lineText (node : NodeFields) : Option Chars :=
  if '\n' ∉ rmXmlInv node.text ∧ rmXmlInv node.text ≠ [] then some (rmXmlInv node.text) else none

/-- What is escaped into the attributes of a topic. -/
def fields (topic : Topic) : List (String × Option Chars) :=
  [("central", if topic.isRoot then some "true".toList else none),
    ("position", if topic.isRoot then none
      else some (synthesizePosition topic.side topic.order topic.depth)),
    ("order", if topic.isRoot then none else some (Nat.toDigits 10 topic.order)),
    ("text", lineText topic.node),
    ("id", some (Nat.toDigits 10 topic.id)),
    ("bgColor", topic.node.color.filter (· ≠ [])),
    ("shrink", if topic.node.collapsed ∧ topic.isRoot = false ∧ topic.hasChildren then
      some "true".toList else none)]

/-- What is read in the tag of a topic. -/
def readAttributes (topic : Topic) : List (String × Chars) :=
  (Xml.present (fields topic)).map fun field => (field.1, inlined field.2)

section Attributes

/-- Not a mark of XML: digits, letters, signs and commas. -/
def isPlain (ch : Char) : Bool := Ecma.isWord ch || ch == '-' || ch == ','

theorem isPlain_toDigits (number : Nat) : (Nat.toDigits 10 number).all isPlain = true :=
  List.all_eq_true.mpr (forall_toDigits (by decide) (by decide) number)

theorem isPlain_intText (number : Int) : (intText number).all isPlain = true := by
  unfold intText
  split_ifs
  · exact (Bool.and_eq_true _ _).mpr ⟨by decide, isPlain_toDigits _⟩
  · exact isPlain_toDigits _

theorem isPlain_synthesizePosition (side : Option Side) (order depth : Nat) :
    (synthesizePosition side order depth).all isPlain = true := by
  simp only [synthesizePosition, List.all_append, isPlain_intText]
  rfl

theorem escapeXml_of_isPlain {text : Chars} (plain : text.all isPlain = true) :
    escapeXml text = text :=
  escapeXml_of_all rfl plain

variable (topic : Topic)

/-- The attributes that are written are those of the element, escaped. -/
theorem attributes_eq :
    attributes topic.node topic.depth topic.order topic.isRoot topic.side topic.id
        topic.hasChildren =
      (Xml.present (fields topic)).map fun field => (field.1, escapeXml field.2) := by
  have digits (number : Nat) : escapeXml (Nat.toDigits 10 number) = Nat.toDigits 10 number :=
    escapeXml_of_isPlain (isPlain_toDigits number)
  have position : escapeXml (synthesizePosition topic.side topic.order topic.depth) =
      synthesizePosition topic.side topic.order topic.depth :=
    escapeXml_of_isPlain (isPlain_synthesizePosition _ _ _)
  have flag : escapeXml "true".toList = "true".toList := escapeXml_of_isPlain rfl
  have text : (if '\n' ∉ rmXmlInv topic.node.text ∧ rmXmlInv topic.node.text ≠ [] then
      [("text", escapeXml (rmXmlInv topic.node.text))] else []) =
        ((lineText topic.node).map fun text => ("text", escapeXml text)).toList := by
    unfold lineText
    split_ifs
    · rfl
    · rfl
  have shrink : (if topic.node.collapsed ∧ topic.isRoot = false ∧ topic.hasChildren then
      [("shrink", "true".toList)] else []) =
        ((if topic.node.collapsed ∧ topic.isRoot = false ∧ topic.hasChildren then
          some "true".toList else none).map fun text => ("shrink", escapeXml text)).toList := by
    split_ifs
    · exact congrArg (fun text => [("shrink", text)]) flag.symm
    · rfl
  have place : (if topic.isRoot then [("central", "true".toList)]
      else [("position", synthesizePosition topic.side topic.order topic.depth),
        ("order", Nat.toDigits 10 topic.order)]) =
      (Xml.present ((fields topic).take 3)).map fun field => (field.1, escapeXml field.2) := by
    rw [fields]
    simp only [List.take_succ_cons, List.take_zero, map_present_cons]
    cases topic.isRoot with
    | true => exact congrArg (fun text => [("central", text)]) flag.symm
    | false => simp [Xml.present, position, digits]
  rw [attributes, text, shrink, place, fields]
  simp only [List.take_succ_cons, List.take_zero, map_present_cons, List.append_assoc]
  simp [Xml.present, digits]

theorem nodup_fields : ((fields topic).map Prod.fst).Nodup :=
  (by decide : ["central", "position", "order", "text", "id", "bgColor", "shrink"].Nodup)

theorem names_attributes :
    ((attributes topic.node topic.depth topic.order topic.isRoot topic.side topic.id
      topic.hasChildren).map Prod.fst).Sublist
        ["central", "position", "order", "text", "id", "bgColor", "shrink"] := by
  rw [attributes_eq, List.map_map]
  exact names_present (fields topic)

theorem grammar_attributes :
    ∀ field ∈ attributes topic.node topic.depth topic.order topic.isRoot topic.side topic.id
      topic.hasChildren, Markup.AttributeGrammar field := by
  have names : ∀ name ∈ (fields topic).map Prod.fst, Markup.IsName name :=
    (by decide : ∀ name ∈ ["central", "position", "order", "text", "id", "bgColor", "shrink"],
      Markup.IsName name)
  rw [attributes_eq]
  exact grammar_escaped names

/-- What is kept is what XML can carry. -/
theorem isKept_eq : isKept = isChar := by
  funext ch
  have bound : ch.toNat ≤ 0x10FFFF := by
    have valid := ch.valid
    rw [UInt32.isValidChar, Nat.isValidChar] at valid
    change ch.val.toNat ≤ 0x10FFFF
    omega
  simp only [isKept, isChar, isCharCode]
  have high : decide (ch.toNat ≤ 1114111) = true := decide_eq_true bound
  rw [high, Bool.and_true]

/-- What is left of a text is what XML can hold. -/
theorem all_isChar_rmXmlInv (text : Chars) : (rmXmlInv text).all isChar = true := by
  rw [rmXmlInv, isKept_eq, List.all_filter]
  simp

theorem isChar_of_isPlain {text : Chars} (plain : text.all isPlain = true) :
    text.all isChar = true := by
  refine List.all_eq_true.mpr fun ch listed => ?_
  have isPlain := List.all_eq_true.mp plain ch listed
  simp only [Wisemapping.isPlain, Bool.or_eq_true, beq_iff_eq] at isPlain
  rcases isPlain with (isWord | rfl) | rfl
  · exact isChar_of_isWord isWord
  · rfl
  · rfl

/-- The attributes are read if XML can carry the colour. -/
theorem attributeValues_attributes :
    Markup.attributeValues (attributes topic.node topic.depth topic.order topic.isRoot topic.side
        topic.id topic.hasChildren) =
      if topic.node.color.all (·.all isChar) = true then some (readAttributes topic)
      else none := by
  have color : (topic.node.color.filter (· ≠ [])).all (·.all isChar) =
      topic.node.color.all (·.all isChar) := by
    cases topic.node.color with
    | none => rfl
    | some color =>
        cases color with
        | nil => rfl
        | cons first rest => rfl
  have text : (lineText topic.node).all (·.all isChar) = true := by
    unfold lineText
    split_ifs
    · exact all_isChar_rmXmlInv _
    · rfl
  have optional {condition : Prop} [Decidable condition] {text : Chars}
      (isPlain : text.all isPlain = true) :
      (if condition then some text else none).all (·.all isChar) = true ∧
        (if condition then none else some text).all (·.all isChar) = true := by
    split_ifs
    · exact ⟨isChar_of_isPlain isPlain, rfl⟩
    · exact ⟨rfl, isChar_of_isPlain isPlain⟩
  have flag : "true".toList.all isPlain = true := rfl
  have all : ((Xml.present (fields topic)).all fun field => field.2.all isChar) =
      topic.node.color.all (·.all isChar) := by
    rw [all_present (List.all · isChar), fields]
    simp only [List.all_cons, List.all_nil, Option.all_some, color, text, (optional flag).1,
      (optional (isPlain_synthesizePosition _ _ _)).2, (optional (isPlain_toDigits _)).2,
      isChar_of_isPlain (isPlain_toDigits topic.id), Bool.true_and, Bool.and_true]
  rw [attributes_eq, attributeValues_map attributeValue_escapeXml, all]
  rfl

end Attributes

/-! ### Sections -/

/-- An element with a text in sections. -/
def partMarkup (name : String) (text : Chars) : Markup :=
  .element name [] ((sections text).map .cdata)

/-- What is read of it. -/
def partNode (name : String) (text : Chars) : Node :=
  .element name [] ((sections text).map fun piece => .cdata (normalizeBreaks piece))

section Sections

/-- A section is split wherever its end is in the text. -/
theorem cdata_eq (text : Chars) :
    cdata text = sectionStart ++ (Replacing.replaceText ']' [']', '>']
      (']' :: ']' :: (sectionEnd ++ (sectionStart ++ ['>']))) text ++ sectionEnd) := by
  have shape : "]]>".toList = [']', ']', '>'] := rfl
  have replaced (written : Chars) :
      Regex.replaceAll (Regex.literal "]]>") (fun _ => written) text =
        Replacing.replaceText ']' [']', '>'] written text :=
    Replacing.replaceAll_literal shape written text
  have starts : "<![CDATA[".toList = sectionStart := rfl
  have between : "]]]]><![CDATA[>".toList =
      ']' :: ']' :: (sectionEnd ++ (sectionStart ++ ['>'])) := rfl
  have ends : "]]>".toList = sectionEnd := rfl
  unfold cdata
  rw [replaced, between, starts, ends, List.append_assoc]

/-- A text is rendered as sections that none of its brackets end. -/
theorem renderAll_sections (text : Chars) :
    renderAll ((sections text).map .cdata) = cdata text := by
  have rendered (pieces : List Chars) :
      renderAll (pieces.map .cdata) = pieces.flatMap cdataText := by
    induction pieces with
    | nil => rfl
    | cons piece pieces ih =>
        rw [List.map_cons, renderAll, Markup.render, ih, List.flatMap_cons]
  rw [rendered, flatMap_cdataText_sections, cdata_eq]

theorem render_partMarkup (name : String) (text : Chars) :
    (partMarkup name text).render =
      '<' :: (name.toList ++ '>' :: (cdata text ++ '<' :: '/' :: (name.toList ++ ['>']))) := by
  have some : (cdata text).isEmpty = false := by
    rw [cdata_eq]
    rfl
  rw [partMarkup, Markup.render, elementText, renderAll_sections, some]
  simp

theorem grammar_partMarkup {name : String} (isName : Markup.IsName name) (text : Chars) :
    (partMarkup name text).Grammar := by
  have all (pieces : List Chars) (each : ∀ piece ∈ pieces, Markup.NoEnd piece) :
      GrammarAll (pieces.map .cdata) := by
    induction pieces with
    | nil => exact trivial
    | cons piece pieces ih =>
        obtain ⟨here, later⟩ := List.forall_mem_cons.mp each
        exact ⟨here, fun isText => Bool.noConfusion isText, ih later⟩
  exact ⟨isName, List.nodup_nil, List.forall_mem_nil _,
    all _ (noEnd_sections text)⟩

/-- A part is read as it is written. -/
theorem node_partMarkup (name : String) {text : Chars} (valid : text.all isChar = true) :
    (partMarkup name text).node = some (partNode name text) := by
  have all (pieces : List Chars) (each : pieces.flatten.all isChar = true) :
      nodes (pieces.map .cdata) =
        some (pieces.map fun piece => .cdata (normalizeBreaks piece)) := by
    induction pieces with
    | nil => rfl
    | cons piece pieces ih =>
        rw [List.flatten_cons, List.all_append, Bool.and_eq_true] at each
        rw [List.map_cons, nodes, Markup.node, sectionData, if_pos each.1, ih each.2]
        rfl
  rw [partMarkup, Markup.node, all _ (by rwa [flatten_sections])]
  rfl

/-- The text is read with its line breaks normalised. -/
theorem textContent_partNode (name : String) (text : Chars) :
    (partNode name text).textContent = normalizeBreaks text := by
  have all (pieces : List Chars) :
      Node.contents (pieces.map fun piece => .cdata (normalizeBreaks piece)) =
        pieces.flatMap normalizeBreaks := by
    induction pieces with
    | nil => rfl
    | cons piece pieces ih =>
        rw [List.map_cons, Node.contents, Node.textContent, ih, List.flatMap_cons]
  rw [partNode, Node.textContent, all, flatMap_normalizeBreaks_sections]

end Sections

/-! ### Trees -/

/-- The elements in a topic before its children. -/
def bodyItems (node : NodeFields) : List Markup :=
  (if '\n' ∈ rmXmlInv node.text then [partMarkup "text" (rmXmlInv node.text)] else []) ++
    (if trimChars node.notes ≠ [] then
      [partMarkup "note" (rmXmlInv (trimChars node.notes))]
    else []) ++
    (node.urls.head?.map fun first =>
      .element "link" [("url", escapeXml first.url), ("urlType", "url".toList)] []).toList

/-- The element of a topic. -/
def fieldMarkup (topic : Topic) (children : List Markup) : Markup :=
  .element "topic" (attributes topic.node topic.depth topic.order topic.isRoot topic.side topic.id
      topic.hasChildren)
    (spaced topic.depth (bodyItems topic.node ++ children))

mutual

/-- The element of a topic and the topics below it. -/
def topicMarkup : RoseTree Topic → Markup
  | .node topic children => fieldMarkup topic (topicsMarkup children)

def topicsMarkup : List (RoseTree Topic) → List Markup
  | [] => []
  | child :: children => topicMarkup child :: topicsMarkup children

end

/-- The attributes of the map. -/
def mapFields (title : Option Chars) : List (String × Option Chars) :=
  [("name", (title.filter fun title => trimChars title ≠ []).map fun title =>
      rmXmlInv (trimChars title)),
    ("version", some "tango".toList), ("layout", some "mindmap".toList)]

/-- An exported file. -/
def wisemappingDocument (title : Option Chars) (root : RoseTree Topic) : Document where
  declared := false
  before := []
  root := .element "map" ((Xml.present (mapFields title)).map fun field =>
      (field.1, escapeXml field.2))
    (spaced 0 [topicMarkup root])
  after := []

section Render

/-- What is rendered of a body is what is exported. -/
theorem render_bodyItems (node : NodeFields) (depth : Nat) :
    ((bodyItems node).flatMap fun item => lineStart (depth + 1) ++ item.render) =
      (bodyXml node depth).flatMap ("\n".toList ++ ·) := by
  have link (first : UrlEntry) :
      (Markup.element "link" [("url", escapeXml first.url), ("urlType", "url".toList)] []).render =
        "<link url=\"".toList ++ escapeXml first.url ++ "\" urlType=\"url\"/>".toList := by
    simp [Markup.render, elementText, renderAttribute, renderAll]
  have line (content : Chars) : lineStart (depth + 1) ++ content =
      "\n".toList ++ (indentation depth ++ "  ".toList ++ content) := by
    simp [lineStart, indentation_succ]
  rw [bodyItems, bodyXml]
  simp only [List.flatMap_append]
  refine congrArg₂ (· ++ ·) (congrArg₂ (· ++ ·) ?_ ?_) ?_
  · split_ifs
    · rw [List.flatMap_singleton, List.flatMap_singleton, render_partMarkup, line]
      simp
    · rfl
  · split_ifs
    · rw [List.flatMap_singleton, List.flatMap_singleton, render_partMarkup, line]
      simp
    · rfl
  · cases node.urls.head? with
    | none => rfl
    | some first =>
        rw [Option.map_some, Option.map_some, Option.toList_some, Option.toList_some,
          List.flatMap_singleton, List.flatMap_singleton, link, line]
        simp

/-- An element with a part on each line, or with none. -/
theorem render_lines {tagName : String} {attributes : List (String × Chars)} (depth : Nat)
    {items : List Markup} {parts : List Chars}
    (same : (items.flatMap fun item => lineStart (depth + 1) ++ item.render) =
      parts.flatMap ("\n".toList ++ ·)) :
    (Markup.element tagName attributes (spaced depth items)).render =
      '<' :: (tagName.toList ++ attributes.flatMap renderAttribute) ++
        if parts = [] then "/>".toList
        else ">\n".toList ++ "\n".toList.intercalate parts ++ "\n".toList ++ indentation depth ++
          "</".toList ++ tagName.toList ++ ">".toList := by
  cases parts with
  | nil =>
      have none : items = [] := by
        cases items with
        | nil => rfl
        | cons item items =>
            rw [List.flatMap_cons, lineStart] at same
            exact absurd same (List.cons_ne_nil _ _)
      rw [none, if_pos rfl]
      simp [Markup.render, elementText, spaced, renderAll]
  | cons part parts =>
      have some : items.isEmpty = false := by
        cases items with
        | nil => exact absurd same (List.cons_ne_nil _ _).symm
        | cons item items => rfl
      have lines : "\n".toList ++ "\n".toList.intercalate (part :: parts) =
          (part :: parts).flatMap ("\n".toList ++ ·) := by
        rw [intercalate_cons, List.flatMap_cons, List.append_assoc]
      have content : renderAll (spaced depth items) =
          "\n".toList ++ "\n".toList.intercalate (part :: parts) ++ lineStart depth := by
        rw [renderAll_spaced, some, if_neg Bool.false_ne_true, same, lines]
      have filled : ("\n".toList ++ "\n".toList.intercalate (part :: parts) ++
          lineStart depth).isEmpty = false := rfl
      rw [Markup.render, content, elementText, filled, if_neg Bool.false_ne_true,
        if_neg (List.cons_ne_nil part parts)]
      simp [lineStart]

/-- What is rendered of a topic is what is exported. -/
theorem render_fieldMarkup (topic : Topic) {written : List Chars} {children : List Markup}
    (family : topic.hasChildren = !children.isEmpty)
    (same : written = children.map fun child => indentation (topic.depth + 1) ++ child.render) :
    indentation topic.depth ++ (fieldMarkup topic children).render =
      topicXml topic.node topic.depth topic.order topic.isRoot topic.side topic.id written := by
  have lines : ((bodyItems topic.node ++ children).flatMap fun item =>
      lineStart (topic.depth + 1) ++ item.render) =
        (bodyXml topic.node topic.depth ++ written).flatMap ("\n".toList ++ ·) := by
    rw [List.flatMap_append, List.flatMap_append, render_bodyItems, same, List.flatMap_map]
    rfl
  have parents : (!written.isEmpty) = topic.hasChildren := by
    rw [same, family, List.isEmpty_map]
  have some : attributes topic.node topic.depth topic.order topic.isRoot topic.side topic.id
      topic.hasChildren ≠ [] := by
    intro none
    have ids := congrArg (List.map Prod.fst) none
    simp [attributes] at ids
  rw [fieldMarkup, render_lines topic.depth lines, flatMap_renderAttribute some]
  unfold topicXml
  rw [parents]
  simp only
  split_ifs
  · simp
  · simp

mutual

/-- The topics of a map are written as their markup. -/
theorem nodeToXml_eq (depth order : Nat) (isRoot : Bool) (side : Option Side)
    (topicCounter : Nat) : ∀ tree : MindMapTreeNode,
    nodeToXml depth order isRoot side topicCounter tree =
      (indentation depth ++
        (topicMarkup (place depth order isRoot side topicCounter tree).1).render,
        (place depth order isRoot side topicCounter tree).2)
  | .node node children => by
      have family : (!children.isEmpty) =
          !(topicsMarkup (placeAll (depth + 1) 0 side (topicCounter + 1) children).1).isEmpty := by
        cases children with
        | nil => rfl
        | cons child children => rfl
      rw [nodeToXml, nodesToXml_eq (depth + 1) 0 side (topicCounter + 1) children, place]
      have written := render_fieldMarkup
        ⟨node, depth, order, isRoot, side, topicCounter + 1, !children.isEmpty⟩ family rfl
      exact Prod.ext written.symm rfl

/-- What is exported of trees is what is rendered of their topics. -/
theorem nodesToXml_eq (depth order : Nat) (side : Option Side) (topicCounter : Nat) :
    ∀ trees : List MindMapTreeNode,
    nodesToXml depth order side topicCounter trees =
      ((topicsMarkup (placeAll depth order side topicCounter trees).1).map fun child =>
          indentation depth ++ child.render,
        (placeAll depth order side topicCounter trees).2)
  | [] => rfl
  | child :: children => by
      rw [nodesToXml, nodeToXml_eq depth order false (child.label.side.or side) topicCounter child,
        placeAll]
      simp only [nodesToXml_eq depth (order + 1) side _ children]
      rfl

end

/-- The file is the text of the document. -/
theorem render_wisemappingDocument (title : Option Chars) (root : MindMapTreeNode) :
    (wisemappingDocument title (topics root)).render = treeToWisemapping root title := by
  have name : ((Xml.present (mapFields title)).map fun field =>
      (field.1, escapeXml field.2)).flatMap renderAttribute =
        nameAttr title ++ " version=\"tango\" layout=\"mindmap\"".toList := by
    have tango : escapeXml ['t', 'a', 'n', 'g', 'o'] = ['t', 'a', 'n', 'g', 'o'] :=
      escapeXml_of_isPlain rfl
    have mindmap : escapeXml ['m', 'i', 'n', 'd', 'm', 'a', 'p'] =
        ['m', 'i', 'n', 'd', 'm', 'a', 'p'] := escapeXml_of_isPlain rfl
    cases title with
    | none => simp [mapFields, Xml.present, nameAttr, renderAttribute, tango, mindmap]
    | some title =>
        by_cases blank : trimChars title = []
        · simp [mapFields, Xml.present, nameAttr, renderAttribute, tango, mindmap, blank]
        · simp [mapFields, Xml.present, nameAttr, renderAttribute, tango, mindmap, blank]
  unfold treeToWisemapping
  rw [nodeToXml_eq]
  simp [wisemappingDocument, Document.render, Markup.render, renderAll_spaced, elementText,
    name, lineStart, topics, indentation]

end Render

/-! ### Grammar -/

section Grammar

theorem grammar_bodyItems (node : NodeFields) :
    ∀ item ∈ bodyItems node, item.Grammar ∧ item.isText = false := by
  have link : ∀ first ∈ node.urls.head?, (Markup.element "link"
      [("url", escapeXml first.url), ("urlType", "url".toList)] []).Grammar := by
    intro first _
    have names : ∀ name ∈ ["url", "urlType"], Markup.IsName name := by decide
    have urlType : escapeXml "url".toList = "url".toList := escapeXml_of_isPlain rfl
    have written : ((Xml.present [("url", some first.url), ("urlType", some "url".toList)]).map
        fun field => (field.1, escapeXml field.2)) =
          [("url", escapeXml first.url), ("urlType", "url".toList)] :=
      congrArg (fun text => [("url", escapeXml first.url), ("urlType", text)]) urlType
    have grammar : ∀ field ∈ [("url", escapeXml first.url), ("urlType", "url".toList)],
        Markup.AttributeGrammar field := by
      rw [← written]
      exact grammar_escaped names
    exact ⟨⟨by decide, rfl⟩, (by decide : ["url", "urlType"].Nodup), grammar, trivial⟩
  rw [bodyItems, List.forall_mem_append, List.forall_mem_append]
  refine ⟨⟨?_, ?_⟩, ?_⟩
  · split_ifs
    · rw [List.forall_mem_singleton]
      exact ⟨grammar_partMarkup ⟨by decide, rfl⟩ _, rfl⟩
    · exact List.forall_mem_nil _
  · split_ifs
    · rw [List.forall_mem_singleton]
      exact ⟨grammar_partMarkup ⟨by decide, rfl⟩ _, rfl⟩
    · exact List.forall_mem_nil _
  · cases found : node.urls.head? with
    | none => exact List.forall_mem_nil _
    | some first =>
        rw [Option.map_some, Option.toList_some, List.forall_mem_singleton]
        exact ⟨link first found, rfl⟩

mutual

theorem grammar_topicMarkup : ∀ tree : RoseTree Topic, (topicMarkup tree).Grammar
  | .node topic children => by
      have items : ∀ item ∈ bodyItems topic.node ++ topicsMarkup children,
          item.Grammar ∧ item.isText = false := by
        rw [List.forall_mem_append]
        exact ⟨grammar_bodyItems topic.node, grammar_topicsMarkup children⟩
      exact ⟨⟨by decide, rfl⟩, (names_attributes topic).nodup (by decide),
        grammar_attributes topic, grammarAll_spaced items _⟩

theorem grammar_topicsMarkup : ∀ trees : List (RoseTree Topic),
    ∀ child ∈ topicsMarkup trees, child.Grammar ∧ child.isText = false
  | [] => List.forall_mem_nil _
  | .node topic children :: trees =>
      List.forall_mem_cons.mpr
        ⟨⟨grammar_topicMarkup (.node topic children), rfl⟩, grammar_topicsMarkup trees⟩

end

/-- An exported file is an XML document. -/
theorem grammar_wisemappingDocument (title : Option Chars) (root : RoseTree Topic) :
    (wisemappingDocument title root).Grammar := by
  have names : ∀ name ∈ (mapFields title).map Prod.fst, Markup.IsName name :=
    (by decide : ∀ name ∈ ["name", "version", "layout"], Markup.IsName name)
  have distinct : (((Xml.present (mapFields title)).map fun field =>
      (field.1, escapeXml field.2)).map Prod.fst).Nodup := by
    rw [List.map_map]
    exact (names_present (mapFields title)).nodup (by decide : ["name", "version", "layout"].Nodup)
  have map : ∀ item ∈ [topicMarkup root], item.Grammar ∧ item.isText = false := by
    rw [List.forall_mem_singleton]
    refine ⟨grammar_topicMarkup root, ?_⟩
    cases root with
    | node topic children => rfl
  exact ⟨⟨_, _, _, rfl⟩,
    ⟨⟨by decide, rfl⟩, distinct, grammar_escaped names, grammarAll_spaced map 0⟩, rfl, rfl⟩

end Grammar

/-! ### Nodes -/

/-- What is read of the elements in a topic before its children. -/
def bodyNodes (node : NodeFields) : List Node :=
  (if '\n' ∈ rmXmlInv node.text then [partNode "text" (rmXmlInv node.text)] else []) ++
    (if trimChars node.notes ≠ [] then
      [partNode "note" (rmXmlInv (trimChars node.notes))]
    else []) ++
    (node.urls.head?.map fun first =>
      .element "link" [("url", inlined first.url), ("urlType", "url".toList)] []).toList

/-- What is read of the element of a topic. -/
def fieldNode (topic : Topic) (children : List Node) : Node :=
  .element "topic" (readAttributes topic)
    (spacedNodes topic.depth (bodyNodes topic.node ++ children))

mutual

def topicNode : RoseTree Topic → Node
  | .node topic children => fieldNode topic (topicNodes children)

def topicNodes : List (RoseTree Topic) → List Node
  | [] => []
  | child :: children => topicNode child :: topicNodes children

end

/-- What is read of an exported file. -/
def mapNode (title : Option Chars) (root : RoseTree Topic) : Node :=
  .element "map" ((Xml.present (mapFields title)).map fun field => (field.1, inlined field.2))
    (spacedNodes 0 [topicNode root])

section Nodes

/-- Texts and notes are read in any case, and the link if XML can carry it. -/
theorem nodes_bodyItems (node : NodeFields) :
    nodes (bodyItems node) =
      if (node.urls.head?.all fun first => first.url.all isChar) = true then
        some (bodyNodes node)
      else none := by
  have part (name : String) (text : Chars) {condition : Prop} [Decidable condition] :
      nodes (if condition then [partMarkup name (rmXmlInv text)] else []) =
        some (if condition then [partNode name (rmXmlInv text)] else []) := by
    split_ifs
    · rw [nodes, node_partMarkup name (all_isChar_rmXmlInv text)]
      rfl
    · rfl
  have urlType : attributeValue "url".toList = some "url".toList := by decide
  have link (first : UrlEntry) :
      nodes [.element "link" [("url", escapeXml first.url), ("urlType", "url".toList)] []] =
        if first.url.all isChar = true then
          some [.element "link" [("url", inlined first.url), ("urlType", "url".toList)] []]
        else none := by
    simp only [nodes, Markup.node, Xml.Markup.attributeValues, attributeValue_escapeXml, urlType]
    split_ifs
    · rfl
    · rfl
  rw [bodyItems, bodyNodes, nodes_append, nodes_append, part, part]
  cases node.urls.head? with
  | none => rfl
  | some first =>
      rw [Option.map_some, Option.map_some, Option.toList_some, Option.toList_some, link,
        Option.all_some]
      by_cases valid : first.url.all isChar = true
      · rw [if_pos valid, if_pos valid]
        rfl
      · rw [if_neg valid, if_neg valid]
        rfl

/-- An element is read back exactly if XML can carry its fields. -/
theorem node_fieldMarkup (topic : Topic) (children : List Markup) :
    (fieldMarkup topic children).node =
      if isWritable topic.node = true then (nodes children).map (fieldNode topic) else none := by
  rw [fieldMarkup, Markup.node, attributeValues_attributes, nodes_spaced, nodes_append,
    nodes_bodyItems, isWritable]
  cases topic.node.color.all (·.all isChar) with
  | false => rfl
  | true =>
      rw [if_pos rfl, Bool.true_and]
      split_ifs
      · cases nodes children with
        | none => rfl
        | some others => rfl
      · rfl

mutual

/-- The file is read if XML can carry all colours and links. -/
theorem node_topicMarkup : ∀ tree : RoseTree Topic,
    (topicMarkup tree).node =
      if (tree.labels.all fun topic => isWritable topic.node) = true then some (topicNode tree)
      else none
  | .node topic children => by
      rw [topicMarkup, node_fieldMarkup, nodes_topicsMarkup children, RoseTree.labels,
        List.all_cons]
      cases isWritable topic.node with
      | false => rfl
      | true =>
          rw [if_pos rfl, Bool.true_and]
          split_ifs
          · rfl
          · rfl

/-- The elements are read if XML can carry every attribute. -/
theorem nodes_topicsMarkup : ∀ trees : List (RoseTree Topic),
    nodes (topicsMarkup trees) =
      if ((RoseTree.labelsAll trees).all fun topic => isWritable topic.node) = true then
        some (topicNodes trees)
      else none
  | [] => rfl
  | tree :: trees => by
      rw [topicsMarkup, nodes, node_topicMarkup tree, nodes_topicsMarkup trees,
        RoseTree.labelsAll, List.all_append]
      cases tree.labels.all fun topic => isWritable topic.node with
      | false => rfl
      | true =>
          rw [if_pos rfl, Bool.true_and]
          split_ifs
          · rfl
          · rfl

end

/-- A file is read back exactly if XML can carry all of its fields. -/
theorem node_wisemappingDocument (title : Option Chars) (root : RoseTree Topic) :
    (wisemappingDocument title root).root.node =
      if (root.labels.all fun topic => isWritable topic.node) = true then some (mapNode title root)
      else none := by
  have named :
      ((Xml.present (mapFields title)).all fun field => field.2.all isChar) = true := by
    have name : ((title.filter fun title => trimChars title ≠ []).map fun title =>
        rmXmlInv (trimChars title)).all (·.all isChar) = true := by
      rw [Option.all_map]
      exact (Option.all_eq_true _ _).mpr fun text _ => all_isChar_rmXmlInv _
    rw [all_present (List.all · isChar), mapFields]
    simp only [List.all_cons, List.all_nil, name, Bool.true_and]
    rfl
  have values := attributeValues_map attributeValue_escapeXml (Xml.present (mapFields title))
  rw [if_pos named] at values
  simp only [wisemappingDocument, Markup.node, values, nodes_spaced, nodes, node_topicMarkup root]
  by_cases writable : (root.labels.all fun topic => isWritable topic.node) = true
  · rw [if_pos writable, if_pos writable]
    rfl
  · rw [if_neg writable, if_neg writable]
    rfl

end Nodes

end Wisemapping
end Formats
end MindMapVault
