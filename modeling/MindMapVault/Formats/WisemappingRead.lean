import MindMapVault.Formats.FreemindRoundTrip
import MindMapVault.Formats.WisemappingMarkup

/-!
# Reading WiseMapping files

What an import makes of an exported file, topic by topic. The topics come in the order of their
numbers, and the side of a top-level branch is read from the sign of its position.
-/

namespace MindMapVault
namespace Formats
namespace Wisemapping

open Ecma Xml
open RoseTree hiding node
open Freemind (isWritable)

/-! ### Fields -/

/-- The text of a node as it is read. -/
def readText (node : NodeFields) : Chars :=
  let text := rmXmlInv node.text
  trimOr "Untitled" (if '\n' ∈ text then normalizeBreaks text else inlined text)

/-- The notes of a node as they are read. -/
def readNotes (node : NodeFields) : Chars :=
  trimChars (normalizeBreaks (rmXmlInv (trimChars node.notes)))

/-- What is read of a topic but for its side. -/
def readFields (id : String) (topic : Topic) : NodeFields :=
  { makeNode id (readText topic.node) with
    color := (topic.node.color.filter (· ≠ [])).map inlined
    collapsed := topic.node.collapsed && !topic.isRoot && topic.hasChildren
    notes := readNotes topic.node
    urls := ((((topic.node.urls.head?.map UrlEntry.url).filter (· ≠ [])).map inlined).map
      fun url => ⟨url, []⟩).toList }

section Fields

variable (topic : Topic) (children : List Node)

theorem getAttribute_fieldNode (name : String) :
    (fieldNode topic children).getAttribute name =
      ((fields topic).lookup name).join.map inlined := by
  rw [← lookup_present (nodup_fields topic), ← lookup_map]
  rfl

/-- A child of a topic that is found by its name. -/
theorem childNamed_fieldNode (name : String) :
    childNamed (fieldNode topic children) name =
      (bodyNodes topic.node ++ children).find? (·.tagName? == some name) := by
  rw [childNamed, Node.children, fieldNode, Node.childNodes, elements_spacedNodes,
    List.find?_filter]
  congr 1
  funext child
  cases found : child.tagName? with
  | none => rfl
  | some tagName =>
      by_cases same : tagName = name
      · simp [same]
      · simp [same]

/-- The elements in a topic, by their names. -/
theorem find?_bodyNodes {children : List Node}
    (isTopic : ∀ child ∈ children, child.tagName? = some "topic") :
    (bodyNodes topic.node ++ children).find? (·.tagName? == some "text") =
        (if '\n' ∈ rmXmlInv topic.node.text then some (partNode "text" (rmXmlInv topic.node.text))
          else none) ∧
      (bodyNodes topic.node ++ children).find? (·.tagName? == some "note") =
        (if trimChars topic.node.notes ≠ [] then
          some (partNode "note" (rmXmlInv (trimChars topic.node.notes)))
        else none) ∧
      (bodyNodes topic.node ++ children).find? (·.tagName? == some "link") =
        topic.node.urls.head?.map fun first =>
          .element "link" [("url", inlined first.url), ("urlType", "url".toList)] [] := by
  have noTopic {name : String} (other : name ≠ "topic") :
      children.find? (·.tagName? == some name) = none := by
    refine List.find?_eq_none.mpr fun child listed => ?_
    rw [isTopic child listed]
    simpa using Ne.symm other
  have part (name : String) (text : Chars)
      {condition : Prop} [Decidable condition] (wanted : String) :
      (if condition then [partNode name text] else []).find? (·.tagName? == some wanted) =
        if condition ∧ name = wanted then some (partNode name text) else none := by
    have named : (partNode name text).tagName? = some name := rfl
    by_cases holds : condition
    · by_cases same : name = wanted
      · cases same
        simp [holds, named]
      · simp [holds, same, named]
    · simp [holds]
  have link (wanted : String) (found : Option UrlEntry) :
      (found.map fun first => Node.element "link"
        [("url", inlined first.url), ("urlType", "url".toList)] []).toList.find?
          (·.tagName? == some wanted) =
        if "link" = wanted then found.map fun first => Node.element "link"
          [("url", inlined first.url), ("urlType", "url".toList)] []
        else none := by
    cases found with
    | none => simp
    | some first =>
        by_cases same : "link" = wanted
        · simp [same, Node.tagName?]
        · simp [same, Node.tagName?]
  simp only [bodyNodes, List.find?_append, part, link, noTopic (by decide : "text" ≠ "topic"),
    noTopic (by decide : "note" ≠ "topic"), noTopic (by decide : "link" ≠ "topic")]
  simp

theorem trimOr_ne_nil (text : Chars) : trimOr "Untitled" text ≠ [] := by
  rw [trimOr]
  split_ifs with blank
  · decide
  · exact blank

theorem trimOr_trimOr (text : Chars) :
    trimOr "Untitled" (trimOr "Untitled" text) = trimOr "Untitled" text := by
  by_cases empty : trimChars text = []
  · rw [trimOr, trimOr, if_pos empty]
    decide
  · rw [trimOr, trimOr, if_neg empty, trimChars_trimChars, if_neg empty]

/-- A text is read from its attribute, or from the sections in the topic. -/
theorem text_fieldNode {children : List Node}
    (isTopic : ∀ child ∈ children, child.tagName? = some "topic") :
    trimOr "Untitled" (((fieldNode topic children).getAttribute "text").getD
        (((childNamed (fieldNode topic children) "text").map fun textChild =>
          trimOr "Untitled" textChild.textContent).getD "Untitled".toList)) =
      readText topic.node := by
  have line : (fieldNode topic children).getAttribute "text" =
      (lineText topic.node).map inlined := getAttribute_fieldNode topic children "text"
  have untitled : trimOr "Untitled" "Untitled".toList = trimOr "Untitled" [] := by decide
  rw [line, childNamed_fieldNode, (find?_bodyNodes topic isTopic).1, readText, lineText]
  by_cases multiline : '\n' ∈ rmXmlInv topic.node.text
  · simp only [multiline, not_true_eq_false, false_and, if_false, if_true, Option.map_none,
      Option.getD_none, Option.map_some, Option.getD_some, textContent_partNode, trimOr_trimOr]
  · by_cases empty : rmXmlInv topic.node.text = []
    · simp only [empty, List.not_mem_nil, not_false_eq_true, ne_eq, not_true_eq_false, and_false,
        if_false, Option.map_none, Option.getD_none, untitled]
      rfl
    · simp only [multiline, empty, not_false_eq_true, ne_eq, and_self, if_true, if_false,
        Option.map_some, Option.getD_some]

/-- The fields of a topic are read from its element. -/
theorem parseFields_fieldNode {children : List Node}
    (isTopic : ∀ child ∈ children, child.tagName? = some "topic") (id : String) :
    parseFields id (fieldNode topic children) = readFields id topic := by
  have value (name : String) : (fieldNode topic children).getAttribute name = _ :=
    getAttribute_fieldNode topic children name
  have colorValue : (fieldNode topic children).getAttribute "bgColor" =
      (topic.node.color.filter (· ≠ [])).map inlined := value "bgColor"
  have shrinkValue : (fieldNode topic children).getAttribute "shrink" =
      (if topic.node.collapsed ∧ topic.isRoot = false ∧ topic.hasChildren then
        some "true".toList else none).map inlined := value "shrink"
  have color : ((topic.node.color.filter (· ≠ [])).map inlined).filter (· ≠ []) =
      (topic.node.color.filter (· ≠ [])).map inlined := by
    rw [filter_map_inlined, Option.filter_filter]
    simp
  have shrink : ((if topic.node.collapsed ∧ topic.isRoot = false ∧ topic.hasChildren then
      some "true".toList else none).map inlined == some "true".toList) =
        (topic.node.collapsed && !topic.isRoot && topic.hasChildren) := by
    cases topic.node.collapsed <;> cases topic.isRoot <;> cases topic.hasChildren <;> rfl
  obtain ⟨-, note, link⟩ := find?_bodyNodes topic isTopic
  have notes : ((childNamed (fieldNode topic children) "note").map fun noteEl =>
      trimChars noteEl.textContent).getD [] = readNotes topic.node := by
    rw [childNamed_fieldNode, note, readNotes]
    by_cases blank : trimChars topic.node.notes = []
    · simp only [blank, ne_eq, not_true_eq_false, if_false]
      rfl
    · simp only [blank, ne_eq, not_false_eq_true, if_true, Option.map_some, Option.getD_some,
        textContent_partNode]
  have url : ((childNamed (fieldNode topic children) "link").bind fun linkEl =>
      linkEl.getAttribute "url").filter (· ≠ []) =
        ((topic.node.urls.head?.map UrlEntry.url).filter (· ≠ [])).map inlined := by
    rw [childNamed_fieldNode, link, ← filter_map_inlined]
    cases topic.node.urls.head? with
    | none => rfl
    | some first => rfl
  have text := text_fieldNode topic isTopic
  have made (text : Chars) : makeNode id text = makeNode id (trimOr "Untitled" text) := by
    rw [makeNode, makeNode, trimOr_trimOr]
  unfold parseFields readFields
  simp only [colorValue, shrinkValue, color, shrink, notes, url]
  rw [made, text]

/-- A text that was read is not trimmed again. -/
theorem text_readFields (id : String) : (readFields id topic).text = readText topic.node :=
  calc
    (readFields id topic).text = (makeNode id (readText topic.node)).text := rfl
    _ = trimOr "Untitled" (readText topic.node) := by rw [makeNode]
    _ = readText topic.node := by rw [readText, trimOr_trimOr]

theorem readText_ne_nil (node : NodeFields) : readText node ≠ [] := by
  rw [readText]
  exact trimOr_ne_nil _

end Fields

/-! ### Places -/

section Places

theorem inlined_of_isPlain {text : Chars} (plain : text.all isPlain = true) :
    inlined text = text := by
  refine inlined_of_oneLine fun ch listed => ?_
  have isPlain := List.all_eq_true.mp plain ch listed
  refine ⟨?_, ?_, ?_⟩
  all_goals
    rintro rfl
    exact absurd isPlain (by decide)

/-- A topic comes back with its number. -/
theorem orderOf_fieldNode (topic : Topic) (children : List Node) :
    orderOf (fieldNode topic children) =
      some (if topic.isRoot then 0 else (topic.order : Int)) := by
  have value : (fieldNode topic children).getAttribute "order" =
      (if topic.isRoot then none else some (Nat.toDigits 10 topic.order)).map inlined :=
    getAttribute_fieldNode topic children "order"
  rw [orderOf, value]
  cases topic.isRoot with
  | true => rfl
  | false =>
      rw [if_neg Bool.false_ne_true, if_neg Bool.false_ne_true, Option.map_some, Option.getD_some,
        inlined_of_isPlain (isPlain_toDigits _), parseInt_toDigits]

/-- A topic below the root has its position. -/
theorem position_fieldNode {topic : Topic} (children : List Node) (below : topic.isRoot = false) :
    (fieldNode topic children).getAttribute "position" =
      some (synthesizePosition topic.side topic.order topic.depth) := by
  have value : (fieldNode topic children).getAttribute "position" =
      (if topic.isRoot then none
        else some (synthesizePosition topic.side topic.order topic.depth)).map inlined :=
    getAttribute_fieldNode topic children "position"
  rw [value, below, if_neg Bool.false_ne_true, Option.map_some,
    inlined_of_isPlain (isPlain_synthesizePosition _ _ _)]

/-- A side is read from the sign of the first coordinate. -/
theorem sideOfPosition_of_number {first : Char} {rest : Chars} {x : Numeral}
    (noName : first ≠ 'l' ∧ first ≠ 'r') (plain : (first :: rest).all (· ≠ ',') = true)
    (value : parseFloat (first :: rest) = some x) (isFinite : x.isFinite = true) (y : Chars) :
    sideOfPosition (some (first :: rest ++ ",".toList ++ y)) =
      some (if x.isNegative then .left else .right) := by
  have noLeft : first :: rest ++ ",".toList ++ y ≠ "left".toList := fun same =>
    noName.1 (List.cons.inj same).1
  have noRight : first :: rest ++ ",".toList ++ y ≠ "right".toList := fun same =>
    noName.2 (List.cons.inj same).1
  have before : (first :: rest ++ ",".toList ++ y).takeWhile (· ≠ ',') = first :: rest := by
    rw [List.append_assoc, List.takeWhile_append_of_pos (List.all_eq_true.mp plain)]
    exact List.append_nil _
  have some : first :: rest ++ ",".toList ++ y ≠ [] := List.cons_ne_nil _ _
  rw [sideOfPosition, if_neg noLeft, if_neg noRight, if_neg some, before, value]
  exact if_pos isFinite

/-- A top-level branch comes back on the left if it was there, and else on the right. -/
theorem sideOfPosition_synthesizePosition (side : Option Side) (order : Nat) :
    sideOfPosition (some (synthesizePosition side order 2)) =
      some (if side = some .left then .left else .right) := by
  have left : intText (-1 * (150 + ((2 : Nat) : Int) * 40)) = ['-', '2', '3', '0'] := by decide
  have right : intText (1 * (150 + ((2 : Nat) : Int) * 40)) = ['2', '3', '0'] := by decide
  have isFinite (negative : Bool) : (Numeral.decimal negative 230 0).isFinite = true := by
    decide +kernel +revert
  have isNegative (negative : Bool) :
      (Numeral.decimal negative 230 0).isNegative = negative := by
    decide +kernel +revert
  rw [synthesizePosition]
  by_cases isLeft : side = some .left
  · have read : parseFloat ['-', '2', '3', '0'] = some (.decimal true 230 0) := by decide
    rw [if_pos isLeft, if_pos isLeft, left,
      sideOfPosition_of_number (by decide) rfl read (isFinite true), isNegative]
    rfl
  · have read : parseFloat ['2', '3', '0'] = some (.decimal false 230 0) := by decide
    rw [if_neg isLeft, if_neg isLeft, right,
      sideOfPosition_of_number (by decide) rfl read (isFinite false), isNegative]
    rfl

end Places

/-! ### Topics -/

/-- What is read of one topic of a walk. -/
def readTopic (ids : Nat → String) (drawn : Nat) (topic : Topic) : Nat × NodeFields :=
  (drawn + 1, readFields (ids drawn) topic)

section Topics

/-- What is no element is no topic. -/
theorem topicTrees_filter (items : List Node) :
    topicTrees (items.filter (·.tagName?.isSome)) = topicTrees items := by
  induction items with
  | nil => rfl
  | cons item items ih =>
      cases named : item.tagName? with
      | none =>
          have noTopic : lowerName item ≠ some "topic" := by
            rw [lowerName, named]
            exact nofun
          rw [List.filter_cons_of_neg (by simp [named]), topicTrees, if_neg noTopic, ih]
      | some tagName =>
          rw [List.filter_cons_of_pos (by simp [named]), topicTrees, topicTrees, ih]

theorem topicTrees_append_of_others {first : List Node}
    (others : ∀ item ∈ first, lowerName item ≠ some "topic") (second : List Node) :
    topicTrees (first ++ second) = topicTrees second := by
  induction first with
  | nil => rfl
  | cons item items ih =>
      obtain ⟨here, later⟩ := List.forall_mem_cons.mp others
      rw [List.cons_append, topicTrees, if_neg here, ih later]

/-- Texts, notes and links are no topics. -/
theorem lowerName_bodyNodes (node : NodeFields) :
    ∀ item ∈ bodyNodes node, lowerName item ≠ some "topic" := by
  have part {name : String} (text : Chars) {condition : Prop} [Decidable condition]
      (other : lowerName (.element name [] []) ≠ some "topic") :
      ∀ item ∈ if condition then [partNode name text] else [], lowerName item ≠ some "topic" := by
    split_ifs
    · exact List.forall_mem_singleton.mpr other
    · exact List.forall_mem_nil _
  rw [bodyNodes, List.forall_mem_append, List.forall_mem_append]
  refine ⟨⟨part _ (by decide), part _ (by decide)⟩, ?_⟩
  cases node.urls.head? with
  | none => exact List.forall_mem_nil _
  | some first =>
      rw [Option.map_some, Option.toList_some, List.forall_mem_singleton]
      exact (by decide : some "link" ≠ some "topic")

/-- Only the topics inside are read as topics. -/
theorem topicTrees_fieldNode (topic : Topic) (children : List Node) :
    topicTrees (fieldNode topic children).childNodes = topicTrees children := by
  rw [fieldNode, Node.childNodes, ← topicTrees_filter, elements_spacedNodes, topicTrees_filter,
    topicTrees_append_of_others (lowerName_bodyNodes topic.node)]

theorem topicTrees_topicNodes (trees : List (RoseTree Topic)) :
    topicTrees (topicNodes trees) = trees.map fun tree => topicTree (topicNode tree) := by
  induction trees with
  | nil => rfl
  | cons tree trees ih =>
      have named : lowerName (topicNode tree) = some "topic" := by
        cases tree with
        | node topic children => exact (by decide : some "topic" = some "topic")
      rw [topicNodes, topicTrees, if_pos named, ih, List.map_cons]

theorem label_topicTree (tree : RoseTree Topic) :
    (topicTree (topicNode tree)).label = topicNode tree := by
  cases tree with
  | node topic children => rfl

/-- The children of a node are numbered. -/
theorem placeAll_ordered (depth order : Nat) (side : Option Side) (topicCounter : Nat) :
    ∀ trees : List MindMapTreeNode,
      ∀ tree ∈ (placeAll depth order side topicCounter trees).1,
        tree.label.isRoot = false ∧ order ≤ tree.label.order
  | [] => List.forall_mem_nil _
  | .node node children :: trees => by
      rw [placeAll]
      refine List.forall_mem_cons.mpr ⟨⟨rfl, Nat.le_refl order⟩, fun tree listed => ?_⟩
      obtain ⟨below, later⟩ := placeAll_ordered depth (order + 1) side _ trees tree listed
      exact ⟨below, Nat.le_of_succ_le later⟩

/-- A topic below the root has its order. -/
theorem orderOf_topicNode {tree : RoseTree Topic} (below : tree.label.isRoot = false) :
    orderOf (topicNode tree) = some (tree.label.order : Int) := by
  cases tree with
  | node topic children =>
      rw [label_node] at below ⊢
      rw [topicNode, orderOf_fieldNode, below, if_neg Bool.false_ne_true]

/-- The topics of an exported file are in order, so sorting them changes nothing. -/
theorem sorted_placeAll (depth order : Nat) (side : Option Side) (topicCounter : Nat) :
    ∀ trees : List MindMapTreeNode,
      ((placeAll depth order side topicCounter trees).1.map fun tree =>
        topicTree (topicNode tree)).Pairwise fun first second => ordered first.label second.label
  | [] => List.Pairwise.nil
  | .node node children :: trees => by
      rw [placeAll, List.map_cons, List.pairwise_cons, List.forall_mem_map]
      refine ⟨fun tree listed => ?_, sorted_placeAll depth (order + 1) side _ trees⟩
      obtain ⟨below, later⟩ := placeAll_ordered depth (order + 1) side _ trees tree listed
      have here : orderOf (topicNode (place depth order false (node.side.or side) topicCounter
          (.node node children)).1) = some (order : Int) := orderOf_topicNode rfl
      rw [label_topicTree, label_topicTree, ordered]
      simp only [label_node, here, orderOf_topicNode below]
      exact Int.ofNat_le.mpr (Nat.le_of_succ_le later)

/-- The topics of an exported file, as an import goes through them. -/
theorem topicTree_place (depth order : Nat) (isRoot : Bool) (side : Option Side)
    (topicCounter : Nat) (node : NodeFields) (children : List MindMapTreeNode) :
    topicTree (topicNode (place depth order isRoot side topicCounter (.node node children)).1) =
      .node (topicNode (place depth order isRoot side topicCounter (.node node children)).1)
        ((placeAll (depth + 1) 0 side (topicCounter + 1) children).1.map fun tree =>
          topicTree (topicNode tree)) := by
  have sorted := (sorted_placeAll (depth + 1) 0 side (topicCounter + 1) children).insertionSort_eq
  rw [place]
  simp only [topicNode]
  rw [fieldNode, topicTree, ← fieldNode]
  congr 1
  rw [← sorted, ← topicTrees_topicNodes]
  exact congrArg (List.insertionSort _) (topicTrees_fieldNode _ _)

theorem tagName?_topicNodes (trees : List (RoseTree Topic)) :
    ∀ child ∈ topicNodes trees, child.tagName? = some "topic" := by
  induction trees with
  | nil => exact List.forall_mem_nil _
  | cons tree trees ih =>
      refine List.forall_mem_cons.mpr ⟨?_, ih⟩
      cases tree with
      | node topic children => rfl

variable (ids : Nat → String)

mutual

/-- An import reads of an exported map what is read of its topics. -/
theorem walk_place (depth order : Nat) (isRoot : Bool) (side : Option Side)
    (topicCounter drawn : Nat) : ∀ tree : MindMapTreeNode,
    RoseTree.walk (parsed ids) drawn
        (topicTree (topicNode (place depth order isRoot side topicCounter tree).1)) =
      RoseTree.walk (readTopic ids) drawn (place depth order isRoot side topicCounter tree).1
  | .node node children => by
      rw [topicTree_place, RoseTree.walk, parsed,
        walkAll_placeAll (depth + 1) 0 side (topicCounter + 1) (drawn + 1) children, place]
      simp only [topicNode, RoseTree.walk, readTopic]
      rw [parseFields_fieldNode _ (tagName?_topicNodes _)]

/-- Topics are read in the order in which they were placed. -/
theorem walkAll_placeAll (depth order : Nat) (side : Option Side) (topicCounter drawn : Nat) :
    ∀ trees : List MindMapTreeNode,
    walkAll (parsed ids) drawn
        ((placeAll depth order side topicCounter trees).1.map fun tree =>
          topicTree (topicNode tree)) =
      walkAll (readTopic ids) drawn (placeAll depth order side topicCounter trees).1
  | [] => rfl
  | child :: children => by
      rw [placeAll]
      simp only [List.map_cons, walkAll]
      rw [walk_place depth order false (child.label.side.or side) topicCounter drawn child,
        walkAll_placeAll depth (order + 1) side _ _ children]

end

end Topics

end Wisemapping
end Formats
end MindMapVault
