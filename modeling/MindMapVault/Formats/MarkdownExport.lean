import MindMapVault.Formats.TreeNode
import MindMapVault.Foundations.Regex

/-!
# Maps written as Markdown

The root is a heading, or an item below a heading with the title. The other nodes are items,
each with its notes and whatever else it carries on lines of their own.
-/

namespace MindMapVault
namespace Formats

/-- The characters that are written with a backslash before them, beside the backslash. -/
def isMarkup (char : Char) : Bool :=
  char == '\x60' || char == '*' || char == '_' || char == '[' || char == ']'

/-- `escapeMarkdown`. -/
def escapeMarkdown (text : Chars) : Chars :=
  Regex.replaceAll (.capture 1 (.one isMarkup)) (fun groups => '\\' :: Regex.group 1 groups)
    (Regex.replaceAll (.char '\\') (fun _ => ['\\', '\\']) text)

/-- The texts of `items`, with something between them. -/
def join (between : String) (items : List Chars) : Chars := between.toList.intercalate items

/-- `(sizeBytes / 1024).toFixed(1)`. -/
def sizeKb (sizeBytes : Nat) : Chars :=
  let tenths := (20 * sizeBytes + 1024) / 2048
  (toString (tenths / 10)).toList ++ '.' :: (toString (tenths % 10)).toList

section Export

-- How a date is shown where the export is made.
variable (fmtDate : Chars → Chars)

/-- The checkbox before a text. -/
def boxText : Option Bool → Chars
  | none => []
  | some true => "[x] ".toList
  | some false => "[ ] ".toList

/-- The progress before a text. -/
def percentText : Option Chars → Chars
  | none => []
  | some progress => '[' :: progress ++ "%] ".toList

/-- The icons before a text. -/
def iconsText (icons : List Chars) : Chars :=
  if icons = [] then []
  else join " " (icons.map fun icon => ':' :: icon ++ [':']) ++ [' ']

/-- All that stands before a text. -/
def inlinePrefix (node : NodeFields) : Chars :=
  boxText node.checked ++ (percentText node.progress ++ iconsText node.icons)

/-- Two blanks, so many times. -/
def blanks (times : Nat) : Chars := (List.replicate times [' ', ' ']).flatten

/-- How far a node is indented. -/
def indent (depth : Nat) : Chars := blanks (depth - 1)

/-- How far what belongs to a node is indented. -/
def bodyIndent (depth : Nat) : Chars := if depth = 0 then blanks 1 else blanks (depth + 1)

/-- The line of a node. -/
def headLine (node : NodeFields) (depth : Nat) : Chars :=
  if depth = 0 then '#' :: ' ' :: (inlinePrefix node ++ escapeMarkdown node.text)
  else indent depth ++ '-' :: ' ' :: (inlinePrefix node ++ escapeMarkdown node.text)

/-- The lines of the notes of a node. -/
def noteLines (node : NodeFields) (depth : Nat) : List Chars :=
  if Ecma.trimChars node.notes = [] then []
  else ((Ecma.trimChars node.notes).splitOn '\n').map fun noteLine =>
    bodyIndent depth ++ '>' :: ' ' :: noteLine

/-- A text that is there and not empty. -/
def present (text : Option Chars) : Option Chars := text.filter (· ≠ [])

/-- The tags, the dates, the files and the links of a node, each as it is written. -/
def metadata (node : NodeFields) : List Chars :=
  (if node.tags = [] then [] else ["Tags: ".toList ++ join " " (node.tags.map ('#' :: ·))]) ++
  (match present node.startDate, present node.endDate with
    | none, none => []
    | startDate, endDate =>
        ["📅 ".toList ++ join " · "
          ((startDate.map fun date => "Start: ".toList ++ fmtDate date).toList ++
            (endDate.map fun date => "End: ".toList ++ fmtDate date).toList)]) ++
  (node.attachments.map fun attachment =>
    "📎 ".toList ++ attachment.name ++ " (".toList ++
      (attachment.sizeBytes.map sizeKb).getD "NaN".toList ++ " KB)".toList) ++
  node.urls.map fun entry =>
    "🔗 ".toList ++ (if entry.label = [] then [] else escapeMarkdown entry.label ++ [' ']) ++
      '<' :: entry.url ++ ['>']

/-- The lines of a node, without its children. -/
def nodeLines (node : NodeFields) (depth : Nat) : List Chars :=
  headLine node depth :: noteLines node depth ++ (metadata fmtDate node).map (bodyIndent depth ++ ·)

mutual

/-- `nodeToMarkdown`. -/
def nodeToMarkdown : MindMapTreeNode → Nat → Chars
  | .node node children, depth =>
      join "\n" (nodeLines fmtDate node depth ++ nodesToMarkdown children (depth + 1))

/-- `nodeToMarkdown` of each of the children. -/
def nodesToMarkdown : List MindMapTreeNode → Nat → List Chars
  | [], _ => []
  | child :: children, depth =>
      nodeToMarkdown child depth :: nodesToMarkdown children depth

end

/-- `treeToMarkdown`. -/
def treeToMarkdown (root : MindMapTreeNode) (vaultTitle : Option Chars) : Chars :=
  let heading :=
    if Ecma.trimChars (vaultTitle.getD []) = [] then []
    else ['#' :: ' ' :: escapeMarkdown (Ecma.trimChars (vaultTitle.getD [])), []]
  let depth := if vaultTitle.getD [] = [] then 0 else 1
  join "\n" (heading ++ [nodeToMarkdown fmtDate root depth])

end Export

end Formats
end MindMapVault
