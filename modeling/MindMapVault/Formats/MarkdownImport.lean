import Mathlib.Algebra.GroupWithZero.Nat
import MindMapVault.Formats.TreeNode
import MindMapVault.Foundations.Regex

/-!
# Maps read from Markdown

A line is a heading, an item of a list, something that belongs to the node before it, or a
node of its own. The open nodes are a stack, and each of them is the last child of the one
below it, so a node is known with its children when it is taken off.
-/

namespace MindMapVault
namespace Formats

open Ecma Regex

/-- Frontmatter between two lines of dashes or plus signs. -/
def frontmatter : Regex :=
  .all [start, capture 1 (either (literal "---") (literal "+++")), char '\n',
    capture 2 (.run (fun _ => true) 0 none false), char '\n', .again 1,
    many Ecma.isWhitespace, optional (char '\n')]

/-- `stripFrontmatter`. -/
def stripFrontmatter (md : Chars) : Chars :=
  let trimmed := trimStart md
  match match? frontmatter trimmed with
  | some step => trimmed.drop step.taken.length
  | none => trimmed

/-- `listDepth`. -/
def listDepth (line : Chars) : Nat :=
  ((line.takeWhile fun character => character == ' ' || character == '\t').map
    fun character => if character = ' ' then 1 else 4).sum / 2

/-- `HEADING_MAX_LEVEL`. -/
def headingMaxLevel : Nat := 6

/-- The digits of a number. -/
def parseDigits (digits : Chars) : Nat :=
  digits.foldl (fun value digit => 10 * value + (digit.toNat - '0'.toNat)) 0

/-- What is in a checkbox. -/
def isBox (character : Char) : Bool := character == 'x' || character == 'X' || character == ' '

/-- A letter or a digit. -/
def isAlphanumeric (character : Char) : Bool := Ecma.isLetter character || Ecma.isDigit character

/-- The box is ticked. -/
def isTicked (box : Chars) : Bool := box == ['x'] || box == ['X']

/-- A checkbox before a text. -/
def checkboxPrefix : Regex :=
  .all [start, char '[', capture 1 (one isBox), char ']', many1 Ecma.isWhitespace]

/-- A percentage before a text. -/
def progressPrefix : Regex :=
  .all [start, char '[', capture 1 (.run Ecma.isDigit 1 (some 3) true), literal "%]",
    many1 Ecma.isWhitespace]

/-- An icon before a text. -/
def iconPrefix : Regex :=
  .all [start, char ':', capture 1 (many1 isAlphanumeric), char ':', many1 Ecma.isWhitespace]

/-- What is found before a text, and the text. -/
structure InlinePrefix where
  text : Chars
  checked : Option Bool
  progress : Option Chars
  icons : List Chars
  deriving DecidableEq

/-- The icons before a text, at most so many. -/
def takeIcons : Nat → Chars → List Chars × Chars
  | 0, text => ([], text)
  | fuel + 1, text =>
      match match? iconPrefix text with
      | none => ([], text)
      | some step =>
          let more := takeIcons fuel step.rest
          (Regex.group 1 step.groups :: more.1, more.2)

/-- `parseInlinePrefix`. -/
def parseInlinePrefix (raw : Chars) : InlinePrefix :=
  let box := match? checkboxPrefix raw
  let unboxed := (box.map Regex.Step.rest).getD raw
  let percent := match? progressPrefix unboxed
  let bare := (percent.map Regex.Step.rest).getD unboxed
  let icons := takeIcons bare.length bare
  { text := icons.2
    checked := box.map fun step => isTicked (Regex.group 1 step.groups)
    progress := percent.map fun step =>
      (toString (min 100 (parseDigits (Regex.group 1 step.groups)))).toList
    icons := icons.1 }

/-- What a line says about the node before it. -/
inductive Metadata
  | tags (tags : List Chars)
  | dates (startDate endDate : Option Chars)
  | attachment (name sizeKb : Chars)
  | url (label url : Chars)
  deriving DecidableEq

/-- The line of the tags. -/
def tagsLine : Regex :=
  .all [start, literal "Tags:", many1 Ecma.isWhitespace, capture 1 (many Ecma.isDot), stop]

/-- The line of the dates. -/
def datesLine : Regex :=
  .all [start, char '📅', many1 Ecma.isWhitespace, capture 1 (many Ecma.isDot), stop]

/-- What stands between two dates. -/
def datesBetween : Regex := .all [many1 Ecma.isWhitespace, char '·', many1 Ecma.isWhitespace]

/-- A date with its name. -/
def datePart (name : String) : Regex :=
  .all [start, literal name, many1 Ecma.isWhitespace, capture 1 (many Ecma.isDot), stop]

/-- The line of an attachment. -/
def attachmentLine : Regex :=
  .all [start, char '📎', many1 Ecma.isWhitespace, capture 1 (many Ecma.isDot),
    many1 Ecma.isWhitespace, char '(',
    capture 2 (many1 fun character => Ecma.isDigit character || character == '.'),
    many Ecma.isWhitespace, literal "KB)", stop]

/-- The line of a link. -/
def urlLine : Regex :=
  .all [start, char '🔗', many Ecma.isWhitespace, capture 1 (.run Ecma.isDot 0 none false),
    many Ecma.isWhitespace, char '<', capture 2 (many1 (· != '>')), char '>', stop]

/-- The last of the parts with a name. -/
def lastDate (name : String) (parts : List Chars) : Option Chars :=
  (parts.filterMap fun part =>
    (match? (datePart name) part).map fun step =>
      trimChars (Regex.group 1 step.groups)).getLast?

/-- `matchMetadata`. -/
def matchMetadata (trimmed : Chars) : Option Metadata :=
  match match? tagsLine trimmed with
  | some step =>
      some (.tags ((Regex.split (many1 Ecma.isWhitespace) (Regex.group 1 step.groups)).map
        (replaceFirst (.all [start, char '#']) Regex.erase) |>.filter (· ≠ [])))
  | none =>
  match match? datesLine trimmed with
  | some step =>
      let parts := Regex.split datesBetween (Regex.group 1 step.groups)
      some (.dates (lastDate "Start:" parts) (lastDate "End:" parts))
  | none =>
  match match? attachmentLine trimmed with
  | some step => some (.attachment (Regex.group 1 step.groups) (Regex.group 2 step.groups))
  | none =>
  (match? urlLine trimmed).map fun step =>
    .url (Regex.group 1 step.groups) (Regex.group 2 step.groups)

/-- A heading of one to six marks. -/
def headingLine : Regex :=
  .all [start, capture 1 (.run (· == '#') 1 (some 6) true), many1 Ecma.isWhitespace,
    capture 2 (many Ecma.isDot)]

/-- `matchHeading`. -/
def matchHeading (line : Chars) : Option (Nat × Chars) :=
  (match? headingLine line).map fun step =>
    ((Regex.group 1 step.groups).length, trimChars (Regex.group 2 step.groups))

/-- A checkbox before the text of an item. -/
def taskText : Regex :=
  .all [start, char '[', capture 1 (one isBox), char ']', many1 Ecma.isWhitespace,
    capture 2 (many Ecma.isDot)]

/-- The depth, the text and the checkbox of an item. -/
def taskItem (depth : Nat) (rawText : Chars) : Nat × Chars × Option Bool :=
  match match? taskText rawText with
  | some task => (depth, trimChars (Regex.group 2 task.groups),
      some (isTicked (Regex.group 1 task.groups)))
  | none => (depth, trimChars rawText, none)

/-- An item with a mark of some kind. -/
def itemLine (mark : Regex) : Regex :=
  .all [start, capture 1 (many Ecma.isWhitespace), mark, many1 Ecma.isWhitespace,
    capture 2 (many Ecma.isDot)]

/-- An item is found with its depth, its text and its checkbox. -/
def matchItem (mark : Regex) (line : Chars) : Option (Nat × Chars × Option Bool) :=
  (match? (itemLine mark) line).map fun step =>
    taskItem (listDepth (Regex.group 1 step.groups)) (Regex.group 2 step.groups)

/-- The mark of an item without a number. -/
def isBullet (character : Char) : Bool := character == '-' || character == '*' || character == '+'

/-- The mark of an item with a number. -/
def orderedMark : Regex :=
  .seq (many1 Ecma.isDigit) (one fun character => character == '.' || character == ')')

/-- `matchListItem`. -/
def matchListItem (line : Chars) : Option (Nat × Chars × Option Bool) :=
  matchItem (one isBullet) line

/-- `matchOrderedListItem`. -/
def matchOrderedListItem (line : Chars) : Option (Nat × Chars × Option Bool) :=
  matchItem orderedMark line

/-- A wiki link, with another text or without. -/
def wikiLink : Regex :=
  .all [literal "[[", capture 1 (many1 fun character => character != ']' && character != '|'),
    optional (.all [char '|', capture 2 (many1 (· != ']'))]), literal "]]"]

/-- `unwikiLink`. -/
def unwikiLink (text : Chars) : Chars :=
  replaceAll wikiLink (fun groups => (groups.lookup 2).getD (Regex.group 1 groups)) text

/-- What stands between two texts that are not written, without another character. -/
def between (mark : String) (other : Char) : Regex :=
  .all [literal mark, capture 1 (many1 (· != other)), literal mark]

/-- The target of a link, which is not written. -/
def target : Regex := .all [literal "](", many1 (· != ')'), char ')']

/-- An image, of which the text stays. -/
def imageSyntax : Regex := .seq (literal "![") (.seq (capture 1 (many (· != ']'))) target)
def boldSyntax : Regex := between "**" '*'
def italicSyntax : Regex := between "*" '*'
def strikeSyntax : Regex := between "~~" '~'
def highlightSyntax : Regex := between "==" '='
def codeSyntax : Regex := between "`" '\x60'

/-- A link, of which the text stays. -/
def linkSyntax : Regex := .seq (char '[') (.seq (capture 1 (many1 (· != ']'))) target)

/-- A tag, with what stands before it. -/
def tagSyntax : Regex :=
  .all [capture 1 (either start (one Ecma.isWhitespace)), char '#', one Ecma.isLetter, many isWord]

/-- A comment of HTML. -/
def commentSyntax : Regex := .all [literal "<!--", .run (fun _ => true) 0 none false, literal "-->"]
def hashesSyntax : Regex := .all [start, many1 (· == '#'), many Ecma.isWhitespace]
def gapSyntax : Regex := .run (· == ' ') 2 none true

/-- `cleanText`. -/
def cleanText (text : Chars) : Chars :=
  trimChars <|
  replaceAll gapSyntax (fun _ => [' ']) <|
  replaceFirst hashesSyntax Regex.erase <|
  replaceAll commentSyntax Regex.erase <|
  replaceAll tagSyntax (Regex.group 1) <|
  replaceAll linkSyntax (Regex.group 1) <|
  replaceAll codeSyntax (Regex.group 1) <|
  replaceAll highlightSyntax (Regex.group 1) <|
  replaceAll strikeSyntax (Regex.group 1) <|
  replaceAll italicSyntax (Regex.group 1) <|
  replaceAll boldSyntax (Regex.group 1) <|
  replaceAll imageSyntax (Regex.group 1) <|
  unwikiLink text

/-- `Math.round(parseFloat(sizeKb) * 1024)`, if it is a number. -/
def parseSize (sizeKb : Chars) : Option Nat :=
  let whole := sizeKb.takeWhile Ecma.isDigit
  let decimals := ((sizeKb.dropWhile Ecma.isDigit).drop 1).takeWhile Ecma.isDigit
  if whole = [] ∧ decimals = [] then none
  else
    let unit := 10 ^ decimals.length
    some ((2 * 1024 * parseDigits (whole ++ decimals) + unit) / (2 * unit))

/-- An open node with its children so far. -/
structure Frame where
  node : NodeFields
  level : Nat
  children : List MindMapTreeNode

/-- A frame that is closed. -/
def Frame.toTree (frame : Frame) : MindMapTreeNode := .node frame.node frame.children

/-- A frame takes a last child. -/
def Frame.push (frame : Frame) (child : MindMapTreeNode) : Frame :=
  { frame with children := frame.children ++ [child] }

/-- What is read so far: the number of ids drawn, the stack, and whether `lastNode` is the last
child of the top of the stack or the top itself. -/
structure Reading where
  drawn : Nat
  top : Frame
  below : List Frame
  lastIsChild : Bool

/-- The stack without the nodes that do not lie above a level. -/
def popTo (level : Nat) : Frame → List Frame → Frame × List Frame
  | top, [] => (top, [])
  | top, parent :: below =>
      if level ≤ top.level then popTo level (parent.push top.toTree) below
      else (top, parent :: below)

/-- The level of the heading that is open. -/
def headingBase (reading : Reading) : Nat :=
  (((reading.top :: reading.below).find? fun frame => frame.level ≤ headingMaxLevel).map
    Frame.level).getD 0

/-- A node is opened below the first one of a lower level. -/
def Reading.openNode (reading : Reading) (node : NodeFields) (level : Nat) : Reading :=
  let parents := popTo level reading.top reading.below
  { drawn := reading.drawn + 1
    top := ⟨node, level, []⟩
    below := parents.1 :: parents.2
    lastIsChild := false }

/-- The label at the root of a tree is changed. -/
def relabel (change : NodeFields → NodeFields) : MindMapTreeNode → MindMapTreeNode
  | .node node children => .node (change node) children

/-- `lastNode` is changed. -/
def Reading.changeLast (reading : Reading) (change : NodeFields → NodeFields) : Reading :=
  if reading.lastIsChild then
    { reading with
      top := { reading.top with children := reading.top.children.modifyLast (relabel change) } }
  else { reading with top := { reading.top with node := change reading.top.node } }

/-- A horizontal rule. -/
def ruleLine : Regex :=
  .all [start, capture 1 (either (literal "---")
    (either (.run (fun character => character == '*' || character == '_') 3 none true)
      (.run (· == '+') 3 none true))), stop]

/-- A line that opens a comment. -/
def commentLine : Regex := .all [start, many Ecma.isWhitespace, literal "<!--"]

/-- A line of a quotation. -/
def quoteLine : Regex :=
  .all [start, char '>', .run Ecma.isWhitespace 0 (some 1) true, capture 1 (many Ecma.isDot)]

/-- The mark of a callout. -/
def calloutMark : Regex :=
  .all [start, literal "[!", many1 (· != ']'), char ']', many Ecma.isWhitespace]

/-- The node of a heading, or of an item with or without a checkbox of its own. -/
def nodeOf (id : String) (checked : Option Bool) (itemText : Chars) : NodeFields :=
  let before := parseInlinePrefix itemText
  { makeNode id (cleanText before.text) with
    checked := checked.or before.checked
    progress := before.progress
    icons := before.icons }

/-- A line of metadata on the node before it. `toIsoDate` reads a date as it was shown. -/
def applyMetadata (toIsoDate : Chars → Chars) (found : Metadata) (node : NodeFields) :
    NodeFields :=
  match found with
  | .tags tags => { node with tags := node.tags ++ tags }
  | .dates startDate endDate =>
      { node with
        startDate := ((startDate.filter (· ≠ [])).map toIsoDate).or node.startDate
        endDate := ((endDate.filter (· ≠ [])).map toIsoDate).or node.endDate }
  | .attachment name sizeKb =>
      { node with attachments := node.attachments ++ [⟨name, parseSize sizeKb⟩] }
  | .url label url => { node with urls := node.urls ++ [⟨url, label⟩] }

/-- A line of a note, if it says anything, on the node before it. -/
def applyNote (noteText : Chars) (node : NodeFields) : NodeFields :=
  if trimChars noteText = [] then node
  else
    { node with
      notes := if node.notes = [] then noteText else node.notes ++ '\n' :: noteText }

/-- What a line of a note says. -/
def noteText (step : Regex.Step) : Chars :=
  replaceFirst calloutMark Regex.erase (Regex.group 1 step.groups)

section Import

-- The ids as they are drawn, and how a date that was shown is read.
variable (ids : Nat → String) (toIsoDate : Chars → Chars)

/-- The body of the loop over the lines. -/
def readLine (reading : Reading) (rawLine : Chars) : Reading :=
  let line := Ecma.trimEnd rawLine
  let id := ids reading.drawn
  if trimChars line = [] ∨ Regex.test ruleLine (trimChars line) then reading
  else if Regex.test commentLine line then reading
  else match matchHeading line with
  | some (level, headingText) => reading.openNode (nodeOf id none headingText) level
  | none =>
  match (matchListItem line).or (matchOrderedListItem line) with
  | some (depth, itemText, checked) =>
      reading.openNode (nodeOf id checked itemText)
        (headingBase reading + headingMaxLevel + 1 + depth)
  | none =>
  match matchMetadata (trimChars line) with
  | some found => reading.changeLast (applyMetadata toIsoDate found)
  | none =>
  match match? quoteLine (trimChars line) with
  | some step => reading.changeLast (applyNote (noteText step))
  | none =>
      { reading with
        drawn := reading.drawn + 1
        top := reading.top.push (.node (makeNode id (cleanText line)) [])
        lastIsChild := true }

/-- The whole tree, with every node closed. -/
def Reading.close (reading : Reading) : MindMapTreeNode :=
  (popTo 0 reading.top reading.below).1.toTree

/-- A placeholder for what is missing. -/
def orPlaceholder (id : String) : MindMapTreeNode → MindMapTreeNode
  | .node node [] => .node node [.node (makeNode id "Imported content".toList) []]
  | root => root

/-- The last node of a chain of only children that have the same text. -/
def echo (text : Chars) : MindMapTreeNode → MindMapTreeNode
  | .node node [only] => if only.label.text = text then echo text only else .node node [only]
  | current => current

/-- The only child of a node, or the node. -/
def promote : MindMapTreeNode → MindMapTreeNode
  | .node _ [only] => only
  | current => current

/-- The root without the wrappers that an export writes. The ids that the loop gives to the
nodes on its way are given once, at its end. -/
def unwrap : MindMapTreeNode → MindMapTreeNode
  | .node node [only] =>
      if only.label.text = node.text then
        relabel (fun current => { current with id := node.id, text := node.text })
          (promote (echo node.text only))
      else .node node [only]
  | root => root

/-- `obsidianMarkdownToTree`. -/
def obsidianMarkdownToTree (md title : Chars) : MindMapTreeNode :=
  let root : Reading := ⟨1, ⟨makeNode (ids 0) title, 0, []⟩, [], false⟩
  let reading := ((stripFrontmatter md).splitOn '\n').foldl (readLine ids toIsoDate) root
  unwrap (orPlaceholder (ids reading.drawn) reading.close)

end Import

end Formats
end MindMapVault
