import MindMapVault.Foundations.Ecma
import MindMapVault.Foundations.RoseEdits

/-!
# Nodes that are written to files and read from them

What the exporters read of a node and the importers give it. Texts are lists of characters,
and an absent text, list or flag is an empty one or `false`. A progress is kept as it is
printed.
-/

namespace MindMapVault
namespace Formats

abbrev Chars := List Char

/-- A link from a node. -/
structure UrlEntry where
  url : Chars
  label : Chars
  deriving DecidableEq

/-- A file at a node. The size is missing where it is not a number. -/
structure NodeAttachmentRef where
  name : Chars
  sizeBytes : Option Nat
  deriving DecidableEq

/-- `side` of a node. -/
inductive Side
  | left
  | right
  deriving DecidableEq

/-- A node without its children. -/
structure NodeFields where
  id : String
  text : Chars
  notes : Chars
  collapsed : Bool
  color : Option Chars
  icons : List Chars
  checked : Option Bool
  progress : Option Chars
  startDate : Option Chars
  endDate : Option Chars
  urls : List UrlEntry
  attachments : List NodeAttachmentRef
  side : Option Side
  tags : List Chars
  deriving DecidableEq

/-- A map. -/
abbrev MindMapTreeNode := RoseTree NodeFields

/-- `text.trim() || other`. -/
def trimOr (other : String) (text : Chars) : Chars :=
  if Ecma.trimChars text = [] then other.toList else Ecma.trimChars text

/-- `makeNode`: a node without children, with the id that was drawn for it. -/
def makeNode (id : String) (text : Chars) : NodeFields where
  id := id
  text := trimOr "Untitled" text
  notes := []
  collapsed := false
  color := none
  icons := []
  checked := none
  progress := none
  startDate := none
  endDate := none
  urls := []
  attachments := []
  side := none
  tags := []

/-- What an import can throw. -/
inductive ImportError
  | message (text : String)
  | typeError
  | rangeError
  deriving DecidableEq

end Formats
end MindMapVault
