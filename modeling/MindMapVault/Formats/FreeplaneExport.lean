import MindMapVault.Formats.ElementLines
import MindMapVault.Formats.FreemindExport

/-!
# The FreePlane format

An export writes one element for each node, on lines that are indented, with an id that is
drawn for it. Marks are escaped and nothing else is, so white space stands as it is in texts and
in attributes.
-/

namespace MindMapVault
namespace Formats
namespace Freeplane

/-- `nextId`, of the time and the number of the id. -/
def nextId (now : Nat → Nat) (nodeCounter : Nat) : Chars :=
  "ID_".toList ++ Nat.toDigits 10 (now nodeCounter) ++ Nat.toDigits 10 nodeCounter

/-- What stands for a side. -/
def positionText : Side → Chars
  | .left => "left".toList
  | .right => "right".toList

/-- The attributes of a node in the order in which they are written. -/
def attributes (node : NodeFields) (id : Chars) : List (String × Chars) :=
  [("TEXT", escapeXml node.text), ("ID", id)] ++
    ((node.color.filter (· ≠ [])).map fun color => ("COLOR", escapeXml color)).toList ++
    (node.side.map fun side => ("POSITION", positionText side)).toList ++
    (if node.collapsed then [("FOLDED", "true".toList)] else []) ++
    (node.urls.head?.map fun first => ("LINK", escapeXml first.url)).toList

/-- The attributes as they stand in the tag. -/
def attributesText (node : NodeFields) (id : Chars) : Chars :=
  " ".toList.intercalate
    ((attributes node id).map fun field =>
      field.1.toList ++ "=\"".toList ++ field.2 ++ "\"".toList)

/-- The lines of a node, with what is written of its children. -/
def elementXml (node : NodeFields) (id : Chars) (depth : Nat) (children : List Chars) : Chars :=
  let indent := indentation depth
  let opening := indent ++ "<node ".toList ++ attributesText node id
  let hasNotes := Ecma.trimChars node.notes ≠ []
  let hasChildren := children.length > 0
  if ¬hasNotes ∧ ¬hasChildren then opening ++ "/>".toList
  else
    "\n".toList.intercalate
      ([opening ++ ">".toList] ++
        (if hasNotes then
          [indent ++ "  <richcontent TYPE=\"NOTE\">".toList,
            indent ++ "    ".toList ++ notesToHtml escapeXml node.notes,
            indent ++ "  </richcontent>".toList]
        else []) ++
        children ++ [indent ++ "</node>".toList])

section Export

variable (now : Nat → Nat)

mutual

/-- `nodeToXml`, with the number of ids drawn before and after. -/
def nodeToXml (depth nodeCounter : Nat) : MindMapTreeNode → Chars × Nat
  | .node node children =>
      let id := nextId now (nodeCounter + 1)
      let (written, drawn) := nodesToXml (depth + 1) (nodeCounter + 1) children
      (elementXml node id depth written, drawn)

/-- The same for several nodes. -/
def nodesToXml (depth nodeCounter : Nat) : List MindMapTreeNode → List Chars × Nat
  | [] => ([], nodeCounter)
  | child :: children =>
      let (first, drawn) := nodeToXml depth nodeCounter child
      let (rest, drawn) := nodesToXml depth drawn children
      (first :: rest, drawn)

end

/-- `treeToFreeplane`. -/
def treeToFreeplane (root : MindMapTreeNode) : Chars :=
  "\n".toList.intercalate
    ["<?xml version=\"1.0\" encoding=\"UTF-8\"?>".toList,
      "<map version=\"freeplane 1.9.0\">".toList,
      (nodeToXml now 1 0 root).1,
      "</map>".toList]

end Export

end Freeplane
end Formats
end MindMapVault
