import MindMapVault.Foundations.Replacing
import MindMapVault.Foundations.Xml
import MindMapVault.Formats.TreeNode

/-!
# Maps read from FreeMind and FreePlane

A file is XML, and its nodes are read with their attributes and with the rich text in them,
which is HTML that is stripped to its text by one replacement after the other.
-/

namespace MindMapVault
namespace Formats

open Regex

/-- A letter in either case. -/
def anyCase (letter : Char) : Regex :=
  one fun character => character == letter || character == letter.toUpper

/-- `<br>`. -/
def breakTag : Regex :=
  .all [char '<', anyCase 'b', anyCase 'r', many Ecma.isWhitespace, optional (char '/'), char '>']

/-- `</p>`. -/
def paragraphEnd : Regex := .all [char '<', char '/', anyCase 'p', char '>']

/-- `</div>`. -/
def divisionEnd : Regex :=
  .all [char '<', char '/', anyCase 'd', anyCase 'i', anyCase 'v', char '>']

/-- Any other tag. -/
def anyTag : Regex := .all [char '<', many1 (· != '>'), char '>']

/-- The text of HTML without its tags. -/
def untagged (html : Chars) : Chars :=
  let lineBreak : Regex.Groups → Chars := fun _ => ['\n']
  replaceAll anyTag Regex.erase
    (replaceAll divisionEnd lineBreak
      (replaceAll paragraphEnd lineBreak (replaceAll breakTag lineBreak html)))

/-- The entities with names, in the order in which they are replaced. -/
def namedEntities : List (String × Char) :=
  [("&amp;", '&'), ("&lt;", '<'), ("&gt;", '>'), ("&quot;", '"'), ("&#39;", '\''), ("&nbsp;", ' ')]

/-- Entities with names are decoded. -/
def decodeNamed (text : Chars) : Chars :=
  namedEntities.foldl
    (fun text entity => replaceAll (literal entity.1) (fun _ => [entity.2]) text) text

/-- A digit of a hexadecimal number. -/
def isHexDigit (character : Char) : Bool :=
  Ecma.isDigit character || ('a' ≤ character && character ≤ 'f') ||
    ('A' ≤ character && character ≤ 'F')

/-- A code in hexadecimal digits. -/
def hexReference : Regex := Replacing.reference "&#x" isHexDigit

/-- A code in decimal digits. -/
def decimalReference : Regex := Replacing.reference "&#" Ecma.isDigit

/-- `String.fromCodePoint` of a code that is in range. Half of a pair is no character. -/
def fromCodePoint (code : Nat) : Char :=
  if 0xD800 ≤ code ∧ code ≤ 0xDFFF then '\uFFFD' else Char.ofNat code

/-- The code that a reference has. -/
def referenceCode (base : Nat) (groups : Regex.Groups) : Nat :=
  (Xml.numeral base (Regex.group 1 groups)).getD 0

/-- References by number, of which one that is out of range makes the script throw. -/
def decodeNumeric (regex : Regex) (base : Nat) (text : Chars) : Except ImportError Chars :=
  if (matchAll regex text).any fun groups => 0x10FFFF < referenceCode base groups then
    .error .rangeError
  else
    .ok (replaceAll regex (fun groups => [fromCodePoint (referenceCode base groups)]) text)

/-- Three line breaks and more. -/
def manyBreaks : Regex := .run (· == '\n') 3 none true

/-- `stripHtml`. -/
def stripHtml (html : Chars) : Except ImportError Chars := do
  let decoded ← decodeNumeric hexReference 16 (decodeNamed (untagged html))
  let text ← decodeNumeric decimalReference 10 decoded
  return Ecma.trimChars (replaceAll manyBreaks (fun _ => ['\n', '\n']) text)

/-- `tagName.toLowerCase()`, of a name that is compared with letters. -/
def lowerName (node : Xml.Node) : Option String :=
  node.tagName?.map fun name => String.ofList (name.toList.map Char.toLower)

/-- `richcontent` of a type. -/
def isRichcontent (type : String) (child : Xml.Node) : Bool :=
  lowerName child == some "richcontent" && child.getAttribute "TYPE" == some type.toList

/-- The text of rich text: of its body, if it has one. -/
def richText (child : Xml.Node) : Except ImportError Chars :=
  stripHtml (((child.querySelector "body").getD child).innerHTML)

/-- `extractRichcontentNodeText`. -/
def extractRichcontentNodeText (children : List Xml.Node) : Except ImportError Chars :=
  match children.find? (isRichcontent "NODE") with
  | some child => richText child
  | none => .ok []

/-- A text that is an HTML document. -/
def htmlStart : Regex :=
  .all [start, many Ecma.isWhitespace, char '<', anyCase 'h', anyCase 't', anyCase 'm',
    anyCase 'l', one fun character => Ecma.isWhitespace character || character == '>']

/-- The text of a node: its attribute, or rich text. -/
def nodeText (element : Xml.Node) : Except ImportError Chars :=
  let rawText := (element.getAttribute "TEXT").getD []
  let looksLikeHtml := htmlStart.test rawText
  if rawText = [] ∨ looksLikeHtml = true then do
    let rc ← extractRichcontentNodeText element.children
    if rc ≠ [] then return rc
    else if looksLikeHtml then stripHtml rawText
    else return rawText
  else .ok rawText

/-- The notes of a node. -/
def nodeNotes (element : Xml.Node) : Except ImportError Chars :=
  match element.children.find? (isRichcontent "NOTE") with
  | some child => richText child
  | none => .ok []

/-- The node that stands for an encrypted branch. -/
def encryptedMarker : Chars :=
  "🔒 Encrypted branch (password-protected in the source app — not imported)".toList

/-- The side that a position names. -/
def sideOf (position : Option Chars) : Option Side :=
  if position = some "left".toList then some .left
  else if position = some "right".toList then some .right
  else none

/-- What `parseNode` reads of an element but for its children. -/
def parseFields (id : String) (element : Xml.Node) : Except ImportError NodeFields := do
  let text ← nodeText element
  let notes ← nodeNotes element
  let node := makeNode id text
  return { node with
    color := ((element.getAttribute "COLOR").filter (· ≠ [])).or
      ((element.getAttribute "BACKGROUND_COLOR").filter (· ≠ []))
    collapsed := element.getAttribute "FOLDED" == some "true".toList
    side := sideOf (element.getAttribute "POSITION")
    urls := (((element.getAttribute "LINK").filter (· ≠ [])).map fun link => ⟨link, []⟩).toList
    notes :=
      if (element.getAttribute "ENCRYPTED_CONTENT").isSome then
        if notes = [] then encryptedMarker else notes ++ ['\n', '\n'] ++ encryptedMarker
      else notes }

section Parse

variable (ids : Nat → String)

mutual

/-- `parseNode`, with the number of ids drawn before and after. -/
def parseNode (drawn : Nat) : Xml.Node → Except ImportError (MindMapTreeNode × Nat)
  | .element tagName attributes childNodes => do
      let fields ← parseFields (ids drawn) (.element tagName attributes childNodes)
      let (children, drawn) ← parseNodes (drawn + 1) childNodes
      return (.node fields children, drawn)
  | _ => .ok (.node (makeNode (ids drawn) []) [], drawn + 1)

/-- The nodes among the children of an element. -/
def parseNodes (drawn : Nat) : List Xml.Node → Except ImportError (List MindMapTreeNode × Nat)
  | [] => .ok ([], drawn)
  | child :: others =>
      if lowerName child = some "node" then do
        let (first, drawn) ← parseNode drawn child
        let (rest, drawn) ← parseNodes drawn others
        return (first :: rest, drawn)
      else parseNodes drawn others

end

/-- The root of an import: `root.id = 'root'; root.text = title || root.text`. -/
def retitled (title : Chars) : MindMapTreeNode → MindMapTreeNode
  | .node node children =>
      .node { node with id := "root", text := if title = [] then node.text else title } children

/-- The first child with a name. -/
def childNamed (element : Xml.Node) (name : String) : Option Xml.Node :=
  element.children.find? (·.tagName? == some name)

/-- `freemindToTree`. -/
def freemindToTree (parseFromString : Chars → Xml.Node) (xmlString title : Chars) :
    Except ImportError MindMapTreeNode :=
  let doc := parseFromString xmlString
  match Xml.querySelector doc "parsererror" with
  | some parseError =>
      .error (.message ("Invalid .mm file: " ++ String.ofList parseError.textContent))
  | none =>
      match Xml.querySelector doc "map" with
      | none => .error (.message "No <map> element found in file")
      | some mapEl =>
          let version := (mapEl.getAttribute "version").getD []
          let isFreeplane := "freeplane".toList.isPrefixOf (version.map Char.toLower)
          match childNamed mapEl "node" with
          | none =>
              .error (.message ("No root node found in " ++
                (if isFreeplane then "FreePlane" else "FreeMind") ++ " file"))
          | some rootEl => (parseNode ids 0 rootEl).map fun parsed => retitled title parsed.1

end Parse

end Formats
end MindMapVault
