import MindMapVault.Formats.NotesMarkup

/-!
# FreeMind files as markup

An exported file is a document, and what a parser reads of it is known from the tree: every
character of a text comes back from its escape, so the attributes have the values they were
written for. A colour or a link with a character that XML cannot carry makes the file one that
no parser accepts.
-/

namespace MindMapVault
namespace Formats
namespace Freemind

open Ecma Xml
open RoseTree hiding node
open Xml.Markup (GrammarAll)

/-! ### Escapes -/

/-- The characters that are read as something else in markup. -/
def marks : Chars := ['<', '>', '"', '\r']

/-- The character is none of them. -/
def isSafe (char : Char) : Bool := !(marks.contains char)

theorem isSafe_of_plain {char : Char} (low : 32 ≤ char.toNat)
    (noLess : char ≠ '<') (noGreater : char ≠ '>') (noQuote : char ≠ '"') :
    isSafe char = true := by
  have noReturn : char ≠ '\r' := by
    rintro rfl
    exact absurd low (by decide)
  simp [isSafe, marks, noLess, noGreater, noQuote, noReturn]

/-- Escaping leaves nothing that is read as something else. -/
theorem isSafe_of_mem_escaped (ch : Char) : (escaped ch).all isSafe = true := by
  unfold escaped
  simp only
  split_ifs with isLess isGreater isAmp isQuote isApos outside
  · rfl
  · rfl
  · rfl
  · rfl
  · rfl
  · rw [List.all_append, List.all_append, Bool.and_eq_true, Bool.and_eq_true]
    refine ⟨⟨rfl, List.all_eq_true.mpr ?_⟩, rfl⟩
    exact forall_toDigits (by decide) (by decide) ch.toNat
  · rw [List.all_cons, List.all_nil, Bool.and_true]
    exact isSafe_of_plain (by omega) isLess isGreater isQuote

theorem escaped_ne_nil (ch : Char) : escaped ch ≠ [] := by
  unfold escaped
  simp only
  split_ifs
  all_goals simp

/-- No mark that XML reads is left in an escaped text. -/
theorem all_isSafe_escapeXml (text : Chars) : (escapeXml text).all isSafe = true := by
  rw [escapeXml, List.all_flatMap, List.all_eq_true]
  exact fun ch _ => isSafe_of_mem_escaped ch

theorem escapeXml_eq_nil {text : Chars} : escapeXml text = [] ↔ text = [] := by
  rw [escapeXml, List.flatMap_eq_nil_iff]
  constructor
  · exact fun none => List.eq_nil_iff_forall_not_mem.mpr fun ch listed =>
      escaped_ne_nil ch (none ch listed)
  · rintro rfl
    exact List.forall_mem_nil _

/-- An escape is read as the character it was written for. -/
theorem reads_escaped {space : Char → Char}
    (printable : ∀ char : Char, 32 ≤ char.toNat → space char = char) :
    Xml.Reads space escaped id := by
  intro ch rest
  by_cases isLess : ch = '<'
  · subst isLess
    exact expandFrom_named ['l', 't'] (by decide) rfl rfl rest
  by_cases isGreater : ch = '>'
  · subst isGreater
    exact expandFrom_named ['g', 't'] (by decide) rfl rfl rest
  by_cases isAmp : ch = '&'
  · subst isAmp
    exact expandFrom_named ['a', 'm', 'p'] (by decide) rfl rfl rest
  by_cases isQuote : ch = '"'
  · subst isQuote
    exact expandFrom_named ['q', 'u', 'o', 't'] (by decide) rfl rfl rest
  by_cases isApos : ch = '\''
  · subst isApos
    exact expandFrom_named ['a', 'p', 'o', 's'] (by decide) rfl rfl rest
  simp only [escaped, if_neg isLess, if_neg isGreater, if_neg isAmp, if_neg isQuote, if_neg isApos]
  by_cases outside : ch.toNat < 32 ∨ 126 < ch.toNat
  · have whole : "&#x".toList ++ Nat.toDigits 16 ch.toNat ++ ";".toList ++ rest =
        '&' :: ('#' :: 'x' :: Nat.toDigits 16 ch.toNat ++ ';' :: rest) := by
      simp
    rw [if_pos outside, whole]
    exact expandFrom_hex ch rest
  · rw [if_neg outside, List.singleton_append, expandFrom_cons isAmp,
      printable ch (by omega)]
    rfl

/-- The value of an attribute is the text that was escaped, if a document can hold it. -/
theorem attributeValue_escapeXml (text : Chars) :
    attributeValue (escapeXml text) = if text.all Xml.isChar = true then some text else none := by
  have noReturn : '\r' ∉ escapeXml text := fun listed =>
    absurd (List.all_eq_true.mp (all_isSafe_escapeXml text) _ listed) (by decide)
  have reads : Xml.Reads blank escaped id := reads_escaped fun char low => by
    unfold blank
    rw [if_neg]
    rintro (rfl | rfl | rfl)
    all_goals exact absurd low (by decide)
  rw [attributeValue, normalizeBreaks_of_not_mem noReturn, escapeXml,
    expandFrom_flatMap reads, List.map_id]

/-- A text between tags is read as it was escaped, if XML can hold it. -/
theorem characterData_escapeXml (text : Chars) :
    characterData (escapeXml text) = if text.all Xml.isChar = true then some text else none := by
  have noReturn : '\r' ∉ escapeXml text := fun listed =>
    absurd (List.all_eq_true.mp (all_isSafe_escapeXml text) _ listed) (by decide)
  have reads : Xml.Reads id escaped id := reads_escaped fun _ _ => rfl
  rw [characterData, normalizeBreaks_of_not_mem noReturn, escapeXml,
    expandFrom_flatMap reads, List.map_id]

/-! ### Attributes -/

/-- The attributes of a node in the order of their names. -/
def sortedAttributes (node : NodeFields) (parentIsRoot : Bool) : List (String × Chars) :=
  (attributes node parentIsRoot).insertionSort fun first second => first.1 ≤ second.1

/-- The attributes as they are written. -/
def writtenAttributes (node : NodeFields) (parentIsRoot : Bool) : List (String × Chars) :=
  (sortedAttributes node parentIsRoot).map fun field => (field.1, escapeXml field.2)

section Attributes

variable (node : NodeFields) (parentIsRoot : Bool)

theorem perm_sortedAttributes :
    (sortedAttributes node parentIsRoot).Perm (attributes node parentIsRoot) :=
  List.perm_insertionSort _ _

/-- Whatever is set, the names are some of these. -/
theorem names_sublist :
    ((attributes node parentIsRoot).map Prod.fst).Sublist
      ["TEXT", "COLOR", "FOLDED", "POSITION", "LINK"] := by
  have optional (key : String) (value : Option Chars) :
      ((value.map fun value => (key, value)).toList.map Prod.fst).Sublist [key] := by
    cases value with
    | none => exact List.nil_sublist _
    | some value => exact List.Sublist.refl _
  simp only [attributes, List.map_append]
  have parts (a b c d e : String) : [a, b, c, d, e] = [a] ++ [b] ++ [c] ++ [d] ++ [e] := rfl
  rw [parts]
  refine (((List.Sublist.refl _).append (optional _ _)).append ?_).append ?_ |>.append ?_
  · cases node.collapsed with
    | true => exact List.Sublist.refl _
    | false => exact List.nil_sublist _
  · cases parentIsRoot with
    | true =>
        cases node.side with
        | none => exact List.nil_sublist _
        | some side => exact List.Sublist.refl _
    | false => exact List.nil_sublist _
  · cases node.urls.head? with
    | none => exact List.nil_sublist _
    | some first => exact List.Sublist.refl _

theorem nodup_names : ((sortedAttributes node parentIsRoot).map Prod.fst).Nodup :=
  ((perm_sortedAttributes node parentIsRoot).map _).nodup_iff.mpr
    ((names_sublist node parentIsRoot).nodup (by decide))

/-- The attributes are as XML has them. -/
theorem grammar_writtenAttributes :
    ∀ field ∈ writtenAttributes node parentIsRoot, Markup.AttributeGrammar field := by
  rw [writtenAttributes, List.forall_mem_map]
  intro field listed
  have named : field.1 ∈ ["TEXT", "COLOR", "FOLDED", "POSITION", "LINK"] :=
    (names_sublist node parentIsRoot).subset
      (List.mem_map_of_mem ((perm_sortedAttributes node parentIsRoot).mem_iff.mp listed))
  have names : ∀ name ∈ ["TEXT", "COLOR", "FOLDED", "POSITION", "LINK"], Markup.IsName name := by
    decide
  have safe := List.all_eq_true.mp (all_isSafe_escapeXml field.2)
  exact ⟨names _ named, fun inside => absurd (safe _ inside) (by decide),
    fun inside => absurd (safe _ inside) (by decide)⟩

/-- An attribute as the sorted ones have it. -/
theorem lookup_sortedAttributes (name : String) :
    (sortedAttributes node parentIsRoot).lookup name = (attributes node parentIsRoot).lookup name :=
  lookup_of_perm (nodup_names node parentIsRoot) (perm_sortedAttributes node parentIsRoot) name

/-- What stands in a side's attribute. -/
def sideText : Side → Chars
  | .left => "left".toList
  | .right => "right".toList

/-- Every attribute is there or not. -/
theorem attributes_eq :
    attributes node parentIsRoot =
      [("TEXT", node.text.map fun ch => if ch = '\x00' then ' ' else ch)] ++
        ((node.color.filter (· ≠ [])).map fun value => ("COLOR", value)).toList ++
        ((if node.collapsed then some "true".toList else none).map
          fun value => ("FOLDED", value)).toList ++
        ((if parentIsRoot then node.side.map sideText else none).map
          fun value => ("POSITION", value)).toList ++
        ((node.urls.head?.map UrlEntry.url).map fun value => ("LINK", value)).toList := by
  have sided : (node.side.map fun side => ("POSITION", sideText side)).toList =
      ((node.side.map sideText).map fun value => ("POSITION", value)).toList := by
    rw [Option.map_map]
    rfl
  rw [attributes, Option.map_map]
  cases node.collapsed with
  | false =>
      cases parentIsRoot with
      | false => rfl
      | true => exact congrArg (fun side => _ ++ side ++ _) sided
  | true =>
      cases parentIsRoot with
      | false => rfl
      | true => exact congrArg (fun side => _ ++ side ++ _) sided

/-- The values of the attributes. -/
theorem lookup_attributes (name : String) :
    (attributes node parentIsRoot).lookup name =
      if name = "TEXT" then some (node.text.map fun ch => if ch = '\x00' then ' ' else ch)
      else if name = "COLOR" then node.color.filter (· ≠ [])
      else if name = "FOLDED" then if node.collapsed then some "true".toList else none
      else if name = "POSITION" then if parentIsRoot then node.side.map sideText else none
      else if name = "LINK" then node.urls.head?.map UrlEntry.url
      else none := by
  rw [attributes_eq, List.lookup_append, List.lookup_append, List.lookup_append,
    List.lookup_append, lookup_optional, lookup_optional, lookup_optional,
    lookup_optional, List.lookup_cons, List.lookup_nil]
  by_cases isText : name = "TEXT"
  · simp [isText]
  by_cases isColor : name = "COLOR"
  · simp [isColor]
  by_cases isFolded : name = "FOLDED"
  · simp [isFolded]
  by_cases isPosition : name = "POSITION"
  · simp [isPosition]
  by_cases isLink : name = "LINK"
  · simp [isLink]
  · have noText : (name == "TEXT") = false := beq_eq_false_iff_ne.mpr isText
    simp [noText, isText, isColor, isFolded, isPosition, isLink]

variable {node}

/-- A text that XML can carry has no NUL in it. -/
theorem map_nul (valid : node.text.all Xml.isChar = true) :
    (node.text.map fun ch => if ch = '\x00' then ' ' else ch) = node.text := by
  refine (List.map_congr_left fun ch listed => ?_).trans (List.map_id _)
  refine if_neg fun isNul => ?_
  have isChar := List.all_eq_true.mp valid ch listed
  rw [isNul] at isChar
  exact absurd isChar (by decide)

/-- XML can carry the colour and the first link. -/
def isWritable (node : NodeFields) : Bool :=
  node.color.all (·.all Xml.isChar) && node.urls.head?.all fun first => first.url.all Xml.isChar

/-- XML can carry the attributes exactly if the fields are writable. -/
theorem all_isChar_sortedAttributes (valid : node.text.all Xml.isChar = true) :
    ((sortedAttributes node parentIsRoot).all fun field => field.2.all Xml.isChar) =
      isWritable node := by
  have optional (key : String) (value : Option Chars) :
      ((value.map fun value => (key, value)).toList.all fun field => field.2.all Xml.isChar) =
        value.all (·.all Xml.isChar) := by
    cases value with
    | none => rfl
    | some value => exact Bool.and_true _
  have color : (node.color.filter (· ≠ [])).all (·.all Xml.isChar) =
      node.color.all (·.all Xml.isChar) := by
    cases node.color with
    | none => rfl
    | some color =>
        cases color with
        | nil => rfl
        | cons first rest => rfl
  have folded : (if node.collapsed then some "true".toList else none).all (·.all Xml.isChar) =
      true := by
    cases node.collapsed with
    | false => rfl
    | true => rfl
  have position : (if parentIsRoot then node.side.map sideText else none).all
      (·.all Xml.isChar) = true := by
    cases parentIsRoot with
    | false => rfl
    | true =>
        cases node.side with
        | none => rfl
        | some side =>
            cases side with
            | left => rfl
            | right => rfl
  rw [(perm_sortedAttributes node parentIsRoot).all_eq, attributes_eq, map_nul valid]
  simp only [List.all_append, optional, color, folded, position, List.all_cons, List.all_nil,
    valid, Bool.and_true, Bool.true_and, Option.all_map]
  rfl

/-- What a parser reads in the tag of a node. -/
theorem attributeValues_written (valid : node.text.all Xml.isChar = true) :
    Markup.attributeValues (writtenAttributes node parentIsRoot) =
      if isWritable node = true then some (sortedAttributes node parentIsRoot) else none := by
  have same : (sortedAttributes node parentIsRoot).map (fun field => (field.1, field.2)) =
      sortedAttributes node parentIsRoot := List.map_id _
  rw [writtenAttributes, attributeValues_map attributeValue_escapeXml, same,
    all_isChar_sortedAttributes parentIsRoot valid]

/-- The tag of a node as it is written. -/
theorem nodeAttributes_eq (node : NodeFields) :
    ' ' :: nodeAttributes node parentIsRoot =
      (writtenAttributes node parentIsRoot).flatMap renderAttribute := by
  have some : writtenAttributes node parentIsRoot ≠ [] := by
    intro none
    have lengths := congrArg List.length none
    rw [writtenAttributes, List.length_map,
      (perm_sortedAttributes node parentIsRoot).length_eq] at lengths
    exact absurd lengths (Nat.succ_ne_zero _)
  rw [flatMap_renderAttribute some, writtenAttributes, List.map_map]
  rfl

end Attributes

/-! ### Trees -/

/-- The rich text of notes, if there are any. -/
def noteItems (notes : Chars) : List Markup :=
  if trimChars notes = [] then []
  else
    [.element "richcontent" [("TYPE", "NOTE".toList)]
        [htmlMarkup ((paragraphLines (trimChars notes)).map (·.map escapeXml))],
      .text ['\n']]

/-- What stands in an element: nothing, or a line for each part. -/
def lined (items : List Markup) : List Markup := if items.isEmpty then [] else .text ['\n'] :: items

/-- The element of a node. -/
def fieldMarkup (node : NodeFields) (parentIsRoot : Bool) (children : List Markup) : Markup :=
  .element "node" (writtenAttributes node parentIsRoot) (lined (noteItems node.notes ++ children))

mutual

/-- The element of a tree. -/
def nodeMarkup (parentIsRoot : Bool) : MindMapTreeNode → Markup
  | .node node children => fieldMarkup node parentIsRoot (nodesMarkup false children)

def nodesMarkup (parentIsRoot : Bool) : List MindMapTreeNode → List Markup
  | [] => []
  | child :: children =>
      nodeMarkup parentIsRoot child :: .text ['\n'] :: nodesMarkup parentIsRoot children

end

/-- The element of the root. -/
def rootMarkup : MindMapTreeNode → Markup
  | .node root children => fieldMarkup root false (nodesMarkup true children)

/-- An exported file. -/
def freemindDocument (root : MindMapTreeNode) : Document where
  declared := false
  before := []
  root := .element "map" [("version", "1.1.0".toList)]
    [.text ['\n'], .comment freemindComment, .text ['\n'], rootMarkup root, .text ['\n']]
  after := ['\n']

section Render

variable {node : NodeFields} {parentIsRoot : Bool}

theorem renderAll_noteItems (notes : Chars) :
    Xml.Markup.renderAll (noteItems notes) =
      if trimChars notes ≠ [] then
        "<richcontent TYPE=\"NOTE\">".toList ++ notesToHtml escapeXml notes ++
          "</richcontent>\n".toList
      else [] := by
  by_cases none : trimChars notes = []
  · rw [noteItems, if_pos none, if_neg (not_not.mpr none)]
    rfl
  · have html := render_htmlMarkup_paragraphLines none fun _ => escapeXml_eq_nil.mp
    have some : notesToHtml escapeXml notes ≠ [] := by
      unfold notesToHtml
      rw [List.append_assoc]
      exact List.append_ne_nil_of_left_ne_nil (by decide) _
    rw [noteItems, if_neg none, if_pos none]
    simp only [Xml.Markup.renderAll, Markup.render, html, elementText, List.append_nil]
    rw [if_neg (by simpa using some)]
    simp [renderAttribute]

theorem isEmpty_noteItems (notes : Chars) :
    (noteItems notes).isEmpty = decide (trimChars notes = []) := by
  unfold noteItems
  split_ifs with none
  · exact (decide_eq_true none).symm
  · exact (decide_eq_false none).symm

theorem render_lined (items : List Markup) :
    Xml.Markup.renderAll (lined items) =
      if items.isEmpty then [] else '\n' :: Xml.Markup.renderAll items := by
  unfold lined
  split_ifs with none
  · rfl
  · rfl

/-- What is rendered of a node is what is exported. -/
theorem render_fieldMarkup (children : List Markup) :
    (fieldMarkup node parentIsRoot children).render ++ ['\n'] =
      elementXml node parentIsRoot (!children.isEmpty) (Xml.Markup.renderAll children) := by
  have opening : "<node ".toList ++ nodeAttributes node parentIsRoot =
      '<' :: ("node".toList ++ (writtenAttributes node parentIsRoot).flatMap renderAttribute) := by
    rw [← nodeAttributes_eq]
    rfl
  have empty : (noteItems node.notes ++ children).isEmpty =
      (decide (trimChars node.notes = []) && children.isEmpty) := by
    rw [← isEmpty_noteItems]
    cases noteItems node.notes with
    | nil => rfl
    | cons item items => rfl
  rw [fieldMarkup, Markup.render, render_lined, empty, renderAll_append, renderAll_noteItems]
  unfold elementXml elementText
  simp only [opening]
  by_cases none : trimChars node.notes = []
  · cases children with
    | nil => simp [none]
    | cons child children => simp [none]
  · simp [none]

mutual

/-- A tree is written as its markup. -/
theorem render_nodeMarkup : ∀ (parentIsRoot : Bool) (tree : MindMapTreeNode),
    (nodeMarkup parentIsRoot tree).render ++ ['\n'] = nodeToXml parentIsRoot tree
  | parentIsRoot, .node node children => by
      have some : (!(nodesMarkup false children).isEmpty) = decide (children.length > 0) := by
        cases children with
        | nil => rfl
        | cons child children => rfl
      rw [nodeMarkup, render_fieldMarkup, renderAll_nodesMarkup, some, nodeToXml]

/-- The elements of the children are rendered as they are exported. -/
theorem renderAll_nodesMarkup : ∀ (parentIsRoot : Bool) (trees : List MindMapTreeNode),
    Xml.Markup.renderAll (nodesMarkup parentIsRoot trees) = nodesToXml parentIsRoot trees
  | _, [] => rfl
  | parentIsRoot, child :: children => by
      rw [nodesMarkup, Xml.Markup.renderAll, Xml.Markup.renderAll,
        renderAll_nodesMarkup parentIsRoot children, nodesToXml,
        ← render_nodeMarkup parentIsRoot child, List.append_assoc]
      rfl

end

/-- The file is the text of the document. -/
theorem render_freemindDocument (root : MindMapTreeNode) :
    (freemindDocument root).render = treeToFreemind root := by
  obtain ⟨node, children⟩ := root
  have some : (!(nodesMarkup true children).isEmpty) = decide (children.length > 0) := by
    cases children with
    | nil => rfl
    | cons child children => rfl
  have element : (fieldMarkup node false (nodesMarkup true children)).render ++ ['\n'] =
      serializeRoot (.node node children) := by
    rw [render_fieldMarkup, some, renderAll_nodesMarkup, serializeRoot]
  unfold treeToFreemind
  rw [← element]
  simp [freemindDocument, Document.render, Markup.render, Xml.Markup.renderAll, rootMarkup,
    elementText, renderAttribute, commentText, commentStart, commentEnd]

end Render

/-! ### Grammar -/

section Grammar

variable {node : NodeFields} {parentIsRoot : Bool}

theorem escapeXml_clean (paragraphs : List (List Chars)) :
    ∀ lines ∈ paragraphs.map (·.map escapeXml), ∀ line ∈ lines, ∀ char ∈ line,
      char ≠ '<' ∧ char ≠ '>' := by
  rw [List.forall_mem_map]
  intro lines _
  rw [List.forall_mem_map]
  intro line _ char listed
  have safe := List.all_eq_true.mp (all_isSafe_escapeXml line) char listed
  constructor
  · rintro rfl
    exact absurd safe (by decide)
  · rintro rfl
    exact absurd safe (by decide)

theorem grammar_lineBreak : (Markup.text ['\n']).Grammar := by
  refine ⟨by decide, by decide, fun ends => ?_⟩
  exact absurd (ends.subset (List.mem_cons_self : ']' ∈ sectionEnd)) (by decide)

theorem head?_nodesMarkup (trees : List MindMapTreeNode) :
    (nodesMarkup parentIsRoot trees).head?.any Markup.isText = false := by
  cases trees with
  | nil => rfl
  | cons tree trees =>
      cases tree with
      | node node children => rfl

/-- Items that begin with no text, after a line break. -/
theorem grammarAll_lined {items : List Markup} (noText : items.head?.any Markup.isText = false)
    (grammar : GrammarAll items) : GrammarAll (lined items) := by
  unfold lined
  split_ifs
  · exact trivial
  · exact ⟨grammar_lineBreak, fun _ => noText, grammar⟩

/-- Notes before items leave them as XML has them. -/
theorem grammarAll_noteItems (notes : Chars) {items : List Markup}
    (noText : items.head?.any Markup.isText = false) (grammar : GrammarAll items) :
    GrammarAll (noteItems notes ++ items) ∧
      (noteItems notes ++ items).head?.any Markup.isText = false := by
  unfold noteItems
  split_ifs with none
  · exact ⟨grammar, noText⟩
  · have type : ∀ field ∈ [("TYPE", "NOTE".toList)], Markup.AttributeGrammar field := by
      decide
    refine ⟨⟨⟨⟨by decide, rfl⟩, List.nodup_singleton _, type, ?_⟩,
      fun isText => Bool.noConfusion isText, grammar_lineBreak, fun _ => noText, grammar⟩, rfl⟩
    exact ⟨grammar_htmlMarkup (escapeXml_clean _), fun isText => Bool.noConfusion isText, trivial⟩

/-- The element of a node is as XML has it if what is inside is. -/
theorem grammar_fieldMarkup {children : List Markup}
    (noText : children.head?.any Markup.isText = false) (grammar : GrammarAll children) :
    (fieldMarkup node parentIsRoot children).Grammar := by
  obtain ⟨inside, first⟩ := grammarAll_noteItems node.notes noText grammar
  refine ⟨⟨by decide, rfl⟩, ?_, grammar_writtenAttributes node parentIsRoot,
    grammarAll_lined first inside⟩
  rw [writtenAttributes, List.map_map]
  exact nodup_names node parentIsRoot

mutual

theorem grammar_nodeMarkup : ∀ (parentIsRoot : Bool) (tree : MindMapTreeNode),
    (nodeMarkup parentIsRoot tree).Grammar
  | _, .node _ children =>
      grammar_fieldMarkup (head?_nodesMarkup children) (grammarAll_nodesMarkup false children)

theorem grammarAll_nodesMarkup : ∀ (parentIsRoot : Bool) (trees : List MindMapTreeNode),
    GrammarAll (nodesMarkup parentIsRoot trees)
  | _, [] => trivial
  | parentIsRoot, .node node children :: trees =>
      ⟨grammar_nodeMarkup parentIsRoot (.node node children), fun isText => Bool.noConfusion isText,
        grammar_lineBreak, fun _ => head?_nodesMarkup trees,
        grammarAll_nodesMarkup parentIsRoot trees⟩

end

/-- An exported file is an XML document. -/
theorem grammar_freemindDocument (root : MindMapTreeNode) : (freemindDocument root).Grammar := by
  obtain ⟨node, children⟩ := root
  have version : ∀ field ∈ [("version", "1.1.0".toList)], Markup.AttributeGrammar field := by
    decide
  refine ⟨⟨_, _, _, rfl⟩, ⟨⟨by decide, rfl⟩, List.nodup_singleton _, version, ?_⟩, rfl, rfl⟩
  refine ⟨grammar_lineBreak, fun _ => rfl, ?_, fun isText => Bool.noConfusion isText,
    grammar_lineBreak, fun _ => rfl, ?_, fun isText => Bool.noConfusion isText,
    grammar_lineBreak, fun _ => rfl, trivial⟩
  · exact (by decide : '-' ∉ freemindComment)
  · exact grammar_fieldMarkup (head?_nodesMarkup children) (grammarAll_nodesMarkup true children)

end Grammar

/-! ### Nodes -/

/-- What is read of the rich text of notes. -/
def noteNodes (notes : Chars) : List Node :=
  if trimChars notes = [] then []
  else
    [.element "richcontent" [("TYPE", "NOTE".toList)]
      [htmlNode (paragraphLines (trimChars notes))],
      .text ['\n']]

/-- Nodes with a line break after each. -/
def linedNodes (items : List Node) : List Node :=
  if items.isEmpty then [] else .text ['\n'] :: items

/-- What is read of the element of a node. -/
def fieldNode (node : NodeFields) (parentIsRoot : Bool) (children : List Node) : Node :=
  .element "node" (sortedAttributes node parentIsRoot)
    (linedNodes (noteNodes node.notes ++ children))

mutual

/-- What is read of the elements of a tree. -/
def treeNode (parentIsRoot : Bool) : MindMapTreeNode → Node
  | .node node children => fieldNode node parentIsRoot (treeNodes false children)

def treeNodes (parentIsRoot : Bool) : List MindMapTreeNode → List Node
  | [] => []
  | child :: children =>
      treeNode parentIsRoot child :: .text ['\n'] :: treeNodes parentIsRoot children

end

/-- What is read of the element of the root. -/
def rootNode : MindMapTreeNode → Node
  | .node root children => fieldNode root false (treeNodes true children)

/-- What is read of an exported file. -/
def mapNode (root : MindMapTreeNode) : Node :=
  .element "map" [("version", "1.1.0".toList)]
    [.text ['\n'], .comment freemindComment, .text ['\n'], rootNode root, .text ['\n']]

section Nodes

variable {node : NodeFields} {parentIsRoot : Bool}

/-- Texts and notes that XML can carry. -/
structure IsXmlText (node : NodeFields) : Prop where
  text : node.text.all Xml.isChar = true
  notes : node.notes.all Xml.isChar = true

theorem readsLine_escapeXml {line : Chars} (valid : line.all Xml.isChar = true) :
    ReadsLine escapeXml id line where
  data := by rw [characterData_escapeXml, if_pos valid]; rfl
  empty := escapeXml_eq_nil

/-- The notes of a node are read as they are rendered. -/
theorem nodes_noteItems {notes : Chars} (valid : notes.all Xml.isChar = true) :
    Xml.Markup.nodes (noteItems notes) = some (noteNodes notes) := by
  unfold noteItems noteNodes
  split_ifs with none
  · rfl
  · have inside : ∀ char ∈ trimChars notes, Xml.isChar char = true :=
      fun char listed =>
        List.all_eq_true.mp valid char ((infix_trimChars notes).subset listed)
    have html := node_htmlMarkup fun lines inNotes line inLines =>
      readsLine_escapeXml (List.all_eq_true.mpr
        (forall_mem_paragraphLines (by decide) inside lines inNotes line inLines))
    have same : (paragraphLines (trimChars notes)).map (·.map id) =
        paragraphLines (trimChars notes) := by
      simp
    have type : attributeValue "NOTE".toList = some "NOTE".toList := by decide
    have lineBreak : characterData ['\n'] = some ['\n'] := by decide
    rw [same] at html
    simp only [Xml.Markup.nodes, Markup.node, Xml.Markup.attributeValues, html, type, lineBreak]
    rfl

theorem nodes_lined (items : List Markup) :
    Xml.Markup.nodes (lined items) = (Xml.Markup.nodes items).map linedNodes := by
  have lineBreak : characterData ['\n'] = some ['\n'] := by decide
  cases items with
  | nil => rfl
  | cons item items =>
      rw [lined, if_neg (by simp), Xml.Markup.nodes, Xml.Markup.nodes, Markup.node, lineBreak]
      cases item.node with
      | none => rfl
      | some node =>
          cases Xml.Markup.nodes items with
          | none => rfl
          | some others => rfl

/-- An element is read back exactly if XML can carry its fields. -/
theorem node_fieldMarkup (valid : IsXmlText node) (children : List Markup) :
    (fieldMarkup node parentIsRoot children).node =
      if isWritable node = true then
        (Xml.Markup.nodes children).map (fieldNode node parentIsRoot)
      else none := by
  rw [fieldMarkup, Markup.node, attributeValues_written parentIsRoot valid.text, nodes_lined,
    nodes_append, nodes_noteItems valid.notes]
  split_ifs
  · cases Xml.Markup.nodes children with
    | none => rfl
    | some others => rfl
  · rfl

mutual

/-- The file is read if XML can carry all colours and links. -/
theorem node_nodeMarkup : ∀ (parentIsRoot : Bool) (tree : MindMapTreeNode),
    (∀ node ∈ tree.labels, IsXmlText node) →
    (nodeMarkup parentIsRoot tree).node =
      if tree.labels.all isWritable = true then some (treeNode parentIsRoot tree) else none
  | parentIsRoot, .node node children, valid => by
      rw [RoseTree.labels, List.forall_mem_cons] at valid
      rw [nodeMarkup, node_fieldMarkup valid.1, nodes_nodesMarkup false children valid.2,
        RoseTree.labels, List.all_cons]
      cases isWritable node with
      | false => rfl
      | true =>
          rw [if_pos rfl, Bool.true_and]
          split_ifs
          · rfl
          · rfl

/-- The elements of the children are read if XML can carry every attribute. -/
theorem nodes_nodesMarkup : ∀ (parentIsRoot : Bool) (trees : List MindMapTreeNode),
    (∀ node ∈ labelsAll trees, IsXmlText node) →
    Xml.Markup.nodes (nodesMarkup parentIsRoot trees) =
      if (labelsAll trees).all isWritable = true then some (treeNodes parentIsRoot trees)
      else none
  | _, [], _ => rfl
  | parentIsRoot, tree :: trees, valid => by
      have lineBreak : characterData ['\n'] = some ['\n'] := by decide
      rw [labelsAll, List.forall_mem_append] at valid
      rw [nodesMarkup, Xml.Markup.nodes, Xml.Markup.nodes,
        node_nodeMarkup parentIsRoot tree valid.1, Markup.node, lineBreak,
        nodes_nodesMarkup parentIsRoot trees valid.2, labelsAll, List.all_append]
      cases tree.labels.all isWritable with
      | false => rfl
      | true =>
          rw [if_pos rfl, Bool.true_and]
          split_ifs
          · rfl
          · rfl

end

/-- A file is read back exactly if XML can carry all of its fields. -/
theorem node_freemindDocument {root : MindMapTreeNode}
    (valid : ∀ node ∈ root.labels, IsXmlText node) :
    (freemindDocument root).root.node =
      if root.labels.all isWritable = true then some (mapNode root) else none := by
  obtain ⟨node, children⟩ := root
  rw [RoseTree.labels, List.forall_mem_cons] at valid
  have lineBreak : characterData ['\n'] = some ['\n'] := by decide
  have comment : sectionData freemindComment = some freemindComment := by decide
  have version : attributeValue "1.1.0".toList = some "1.1.0".toList := by decide
  have element : (rootMarkup (.node node children)).node =
      if (node :: labelsAll children).all isWritable = true then
        some (rootNode (.node node children))
      else none := by
    rw [rootMarkup, node_fieldMarkup valid.1, nodes_nodesMarkup true children valid.2,
      List.all_cons]
    cases isWritable node with
    | false => rfl
    | true =>
        rw [if_pos rfl, Bool.true_and]
        split_ifs
        · rfl
        · rfl
  rw [RoseTree.labels]
  simp only [freemindDocument, Markup.node, Xml.Markup.nodes, Xml.Markup.attributeValues, version,
    lineBreak, comment, element]
  by_cases writable : (node :: labelsAll children).all isWritable = true
  · rw [if_pos writable, if_pos writable]
    rfl
  · rw [if_neg writable, if_neg writable]
    rfl

end Nodes

end Freemind
end Formats
end MindMapVault
