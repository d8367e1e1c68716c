import Mathlib.Data.List.Sort
import MindMapVault.Foundations.Regex
import MindMapVault.Formats.TreeNode

/-!
# The FreeMind format

An export writes one element for each node, with its attributes in the order of their names.
Characters that are not printable are written as references by number, in texts as in
attributes. Notes are rich text: paragraphs between blank lines, with a break at each other
line break.
-/

namespace MindMapVault
namespace Formats

/-- The blank lines between paragraphs. -/
def blankLines : Regex := .run (· == '\n') 2 none true

/-- A paragraph of rich text. -/
def paragraph (escape : Chars → Chars) (block : Chars) : Chars :=
  "<p>".toList ++ "<br/>".toList.intercalate ((block.splitOn '\n').map escape) ++ "</p>".toList

/-- `notesToHtml`, with the escapes of the format. -/
def notesToHtml (escape : Chars → Chars) (notes : Chars) : Chars :=
  "<html><head/><body>".toList ++
    (Regex.split blankLines (Ecma.trimChars notes)).flatMap (paragraph escape) ++
    "</body></html>".toList

namespace Freemind

/-- A character as `escapeXml` writes it. -/
def escaped (ch : Char) : Chars :=
  let code := ch.toNat
  if ch = '<' then "&lt;".toList
  else if ch = '>' then "&gt;".toList
  else if ch = '&' then "&amp;".toList
  else if ch = '"' then "&quot;".toList
  else if ch = '\'' then "&apos;".toList
  else if code < 32 ∨ 126 < code then "&#x".toList ++ Nat.toDigits 16 code ++ ";".toList
  else [ch]

/-- `escapeXml`. -/
def escapeXml (text : Chars) : Chars := text.flatMap escaped

/-- The attributes of a node in the order in which they are set. -/
def attributes (node : NodeFields) (parentIsRoot : Bool) : List (String × Chars) :=
  [("TEXT", node.text.map fun ch => if ch = '\x00' then ' ' else ch)] ++
    ((node.color.filter (· ≠ [])).map fun color => ("COLOR", color)).toList ++
    (if node.collapsed then [("FOLDED", "true".toList)] else []) ++
    (if parentIsRoot then
      (node.side.map fun side =>
        ("POSITION", match side with | .left => "left".toList | .right => "right".toList)).toList
    else []) ++
    (node.urls.head?.map fun first => ("LINK", first.url)).toList

/-- `nodeAttributes`. -/
def nodeAttributes (node : NodeFields) (parentIsRoot : Bool) : Chars :=
  " ".toList.intercalate
    (((attributes node parentIsRoot).insertionSort fun first second => first.1 ≤ second.1).map
      fun field => field.1.toList ++ "=\"".toList ++ escapeXml field.2 ++ "\"".toList)

/-- The element of a node, with what is written of its children. -/
def elementXml (node : NodeFields) (parentIsRoot hasChildren : Bool) (children : Chars) : Chars :=
  let opening := "<node ".toList ++ nodeAttributes node parentIsRoot
  let hasNotes := Ecma.trimChars node.notes ≠ []
  if ¬hasNotes ∧ ¬hasChildren then opening ++ "/>\n".toList
  else
    opening ++ ">\n".toList ++
      (if hasNotes then
        "<richcontent TYPE=\"NOTE\">".toList ++ notesToHtml escapeXml node.notes ++
          "</richcontent>\n".toList
      else []) ++
      children ++ "</node>\n".toList

mutual

/-- `nodeToXml`. -/
def nodeToXml (parentIsRoot : Bool) : MindMapTreeNode → Chars
  | .node node children =>
      elementXml node parentIsRoot (children.length > 0) (nodesToXml false children)

/-- The same for several nodes. -/
def nodesToXml (parentIsRoot : Bool) : List MindMapTreeNode → Chars
  | [] => []
  | child :: children => nodeToXml parentIsRoot child ++ nodesToXml parentIsRoot children

end

/-- `serializeRoot`. -/
def serializeRoot : MindMapTreeNode → Chars
  | .node root children =>
      elementXml root false (children.length > 0) (nodesToXml true children)

/-- The comment that FreeMind writes. -/
def freemindComment : Chars :=
  (" To view this file, download free mind mapping software FreeMind from " ++
    "http://freemind.sourceforge.net ").toList

/-- `treeToFreemind`. -/
def treeToFreemind (root : MindMapTreeNode) : Chars :=
  "<map version=\"1.1.0\">\n".toList ++
    ("<!--".toList ++ freemindComment ++ "-->\n".toList) ++
    serializeRoot root ++ "</map>\n".toList

end Freemind

end Formats
end MindMapVault
