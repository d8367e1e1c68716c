import MindMapVault.Foundations.Numerals
import MindMapVault.Foundations.Replacing
import MindMapVault.Formats.ElementLines
import MindMapVault.Formats.FreemindImport
import Mathlib.Data.List.Sort

/-!
# The WiseMapping format

A text on one line is an attribute of its topic, one on several lines a section in it, and so
are the notes. Characters that XML cannot carry are dropped from texts and notes. A topic has a
position, of which an import reads the side, and its number among its siblings.
-/

namespace MindMapVault
namespace Formats
namespace Wisemapping

open Ecma
open Regex (literal)

/-! ### Export -/

/-- A character that `rmXmlInv` keeps: one unit that XML can carry, or a pair. -/
def isKept (ch : Char) : Bool :=
  let code := ch.toNat
  code == 0x9 || code == 0xA || code == 0xD || (0x20 ≤ code && code ≤ 0xD7FF) ||
    (0xE000 ≤ code && code ≤ 0xFFFD) || 0x10000 ≤ code

/-- `rmXmlInv`. -/
def rmXmlInv (text : Chars) : Chars := text.filter isKept

/-- `cdata`. -/
def cdata (text : Chars) : Chars :=
  "<![CDATA[".toList ++
    Regex.replaceAll (literal "]]>") (fun _ => "]]]]><![CDATA[>".toList) text ++ "]]>".toList

/-- `synthesizePosition`. -/
def synthesizePosition (side : Option Side) (order depth : Nat) : Chars :=
  let x : Int := (if side = some .left then -1 else 1) * (150 + depth * 40)
  let y : Int := order * 80 - 40
  intText x ++ ",".toList ++ intText y

/-- The attributes of a topic in the order in which they are written. -/
def attributes (node : NodeFields) (depth order : Nat) (isRoot : Bool)
    (effectiveSide : Option Side) (id : Nat) (hasChildren : Bool) : List (String × Chars) :=
  let text := rmXmlInv node.text
  (if isRoot then [("central", "true".toList)]
    else [("position", synthesizePosition effectiveSide order depth),
      ("order", Nat.toDigits 10 order)]) ++
    (if '\n' ∉ text ∧ text ≠ [] then [("text", escapeXml text)] else []) ++
    [("id", Nat.toDigits 10 id)] ++
    ((node.color.filter (· ≠ [])).map fun color => ("bgColor", escapeXml color)).toList ++
    (if node.collapsed ∧ isRoot = false ∧ hasChildren then [("shrink", "true".toList)] else [])

/-- What stands in a topic before its children. -/
def bodyXml (node : NodeFields) (depth : Nat) : List Chars :=
  let indent := indentation depth
  let text := rmXmlInv node.text
  (if '\n' ∈ text then [indent ++ "  <text>".toList ++ cdata text ++ "</text>".toList] else []) ++
    (if trimChars node.notes ≠ [] then
      [indent ++ "  <note>".toList ++ cdata (rmXmlInv (trimChars node.notes)) ++ "</note>".toList]
    else []) ++
    (node.urls.head?.map fun first =>
      indent ++ "  <link url=\"".toList ++ escapeXml first.url ++
        "\" urlType=\"url\"/>".toList).toList

/-- The lines of a topic, with what is written of its children. -/
def topicXml (node : NodeFields) (depth order : Nat) (isRoot : Bool)
    (effectiveSide : Option Side) (id : Nat) (children : List Chars) : Chars :=
  let indent := indentation depth
  let attrs := attributes node depth order isRoot effectiveSide id (!children.isEmpty)
  let opening := indent ++ "<topic ".toList ++
    " ".toList.intercalate
      (attrs.map fun field => field.1.toList ++ "=\"".toList ++ field.2 ++ "\"".toList)
  let body := bodyXml node depth ++ children
  if body = [] then opening ++ "/>".toList
  else
    opening ++ ">\n".toList ++ "\n".toList.intercalate body ++ "\n".toList ++ indent ++
      "</topic>".toList

mutual

/-- `nodeToXml`, with the number of topics before and after. -/
def nodeToXml (depth order : Nat) (isRoot : Bool) (effectiveSide : Option Side)
    (topicCounter : Nat) : MindMapTreeNode → Chars × Nat
  | .node node children =>
      let (written, counted) := nodesToXml (depth + 1) 0 effectiveSide (topicCounter + 1) children
      (topicXml node depth order isRoot effectiveSide (topicCounter + 1) written, counted)

/-- The same for the children of a node, from one of them on. -/
def nodesToXml (depth order : Nat) (effectiveSide : Option Side) (topicCounter : Nat) :
    List MindMapTreeNode → List Chars × Nat
  | [] => ([], topicCounter)
  | child :: children =>
      let (first, counted) :=
        nodeToXml depth order false (child.label.side.or effectiveSide) topicCounter child
      let (rest, counted) := nodesToXml depth (order + 1) effectiveSide counted children
      (first :: rest, counted)

end

/-- The name of a map, if it has one. -/
def nameAttr (title : Option Chars) : Chars :=
  match title with
  | none => []
  | some title =>
      if trimChars title = [] then []
      else " name=\"".toList ++ escapeXml (rmXmlInv (trimChars title)) ++ "\"".toList

/-- `treeToWisemapping`. -/
def treeToWisemapping (root : MindMapTreeNode) (title : Option Chars) : Chars :=
  "\n".toList.intercalate
    ["<map".toList ++ nameAttr title ++ " version=\"tango\" layout=\"mindmap\">".toList,
      (nodeToXml 1 0 true none 0 root).1,
      "</map>".toList]

/-! ### Import -/

/-- The number of a topic among its siblings; `none` is `NaN`. -/
def orderOf (element : Xml.Node) : Option Int :=
  parseInt ((element.getAttribute "order").getD "0".toList)

/-- `oa - ob` is not positive. Without a number, no order is preferred. -/
def ordered (first second : Xml.Node) : Prop :=
  match orderOf first, orderOf second with
  | some oa, some ob => oa ≤ ob
  | _, _ => True

instance : DecidableRel ordered := fun first second => by
  unfold ordered
  split <;> infer_instance

mutual

/-- A topic and the topics below it, as `orderedTopicChildren` sorts them at every level. -/
def topicTree : Xml.Node → RoseTree Xml.Node
  | .element tagName attributes childNodes =>
      .node (.element tagName attributes childNodes)
        ((topicTrees childNodes).insertionSort fun first second =>
          ordered first.label second.label)
  | node => .node node []

/-- The topics among the children of an element. -/
def topicTrees : List Xml.Node → List (RoseTree Xml.Node)
  | [] => []
  | child :: others =>
      if lowerName child = some "topic" then topicTree child :: topicTrees others
      else topicTrees others

end

/-- The side that a position names, or that its x coordinate is on. -/
def sideOfPosition (position : Option Chars) : Option Side :=
  match position with
  | none => none
  | some position =>
      if position = "left".toList then some .left
      else if position = "right".toList then some .right
      else if position = [] then none
      else
        match parseFloat (position.takeWhile (· ≠ ',')) with
        | none => none
        | some x => if x.isFinite then some (if x.isNegative then .left else .right) else none

/-- What `parseTopicEl` reads of an element but for its children and its side. -/
def parseFields (id : String) (element : Xml.Node) : NodeFields :=
  let textChild := childNamed element "text"
  let text := (element.getAttribute "text").getD
    ((textChild.map fun textChild => trimOr "Untitled" textChild.textContent).getD
      "Untitled".toList)
  { makeNode id text with
    color := (element.getAttribute "bgColor").filter (· ≠ [])
    collapsed := element.getAttribute "shrink" == some "true".toList
    notes := ((childNamed element "note").map fun noteEl =>
      trimChars noteEl.textContent).getD []
    urls := ((((childNamed element "link").bind fun linkEl => linkEl.getAttribute "url").filter
      (· ≠ [])).map fun url => ⟨url, []⟩).toList }

/-- A node with the side of a top-level branch. -/
def withSide (position : Option Chars) : MindMapTreeNode → MindMapTreeNode
  | .node node children =>
      .node { node with side := (sideOfPosition position).or node.side } children

section Parse

variable (ids : Nat → String)

/-- One topic of a walk through the topics. -/
def parsed (drawn : Nat) (element : Xml.Node) : Nat × NodeFields :=
  (drawn + 1, parseFields (ids drawn) element)

/-- `parseTopicEl`, of a topic with the topics below it. -/
def parseTopicEl (isTopLevel : Bool) (drawn : Nat) (topic : RoseTree Xml.Node) :
    Nat × MindMapTreeNode :=
  let (drawn, node) := RoseTree.walk (parsed ids) drawn topic
  (drawn, if isTopLevel then withSide (topic.label.getAttribute "position") node else node)

/-- The top-level topics, one after the other. -/
def parseTopLevel (drawn : Nat) : List (RoseTree Xml.Node) → List MindMapTreeNode
  | [] => []
  | topic :: topics =>
      (parseTopicEl ids true drawn topic).2 ::
        parseTopLevel (parseTopicEl ids true drawn topic).1 topics

/-- Whether an element is the central topic. -/
def isCentral (element : Xml.Node) : Bool :=
  element.tagName? == some "topic" && element.getAttribute "central" == some "true".toList

/-- How the root topic is found among the children of the map. -/
def isRootTopic (mapEl : Xml.Node) : Xml.Node → Bool :=
  if mapEl.children.any isCentral then isCentral else (·.tagName? == some "topic")

/-- The topics beside the root topic, sorted. -/
def topLevelTopics (mapEl : Xml.Node) : List (RoseTree Xml.Node) :=
  (topicTrees (mapEl.children.eraseP (isRootTopic mapEl))).insertionSort fun first second =>
    ordered first.label second.label

/-- The map of a root topic and the topics beside it. -/
def mapOfTopics (title : Chars) (rootTopic : RoseTree Xml.Node)
    (topLevel : List (RoseTree Xml.Node)) : MindMapTreeNode :=
  let (drawn, root) := parseTopicEl ids false 0 rootTopic
  let positions := rootTopic.children.map fun topic => topic.label.getAttribute "position"
  let children := List.zipWith withSide positions root.children
  retitled title (.node root.label (children ++ parseTopLevel ids drawn topLevel))

/-- `wisemappingToTree`. -/
def wisemappingToTree (parseFromString : Chars → Xml.Node) (xmlString title : Chars) :
    Except ImportError MindMapTreeNode :=
  let doc := parseFromString xmlString
  match Xml.querySelector doc "parsererror" with
  | some parseError =>
      .error (.message ("Invalid WiseMapping file: " ++ String.ofList parseError.textContent))
  | none =>
      match Xml.querySelector doc "map" with
      | none => .error (.message "No <map> element found in WiseMapping file")
      | some mapEl =>
          match mapEl.children.find? (isRootTopic mapEl) with
          | none => .error (.message "No root topic found in WiseMapping file")
          | some rootTopicEl =>
              .ok (mapOfTopics ids title (topicTree rootTopicEl) (topLevelTopics mapEl))

end Parse

end Wisemapping
end Formats
end MindMapVault
