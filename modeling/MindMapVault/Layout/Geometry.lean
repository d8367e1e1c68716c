import MindMapVault.Foundations.Ecma
import MindMapVault.Foundations.RoseTree
import Mathlib.Data.Rat.Floor
import Mathlib.Tactic.Linarith
import Mathlib.Tactic.Positivity

/-!
# How big a node is

What a node is made of, how much room each part needs, and how big the node has to be.
Numbers are rational. The width of a text on the screen is a parameter.
-/

namespace MindMapVault
namespace Layout

/-- The size presets of a picture. -/
inductive ImageSize
  | S
  | M
  | L
  deriving DecidableEq

/-- The long side of each preset. -/
structure ImageSizes where
  S : Rat
  M : Rat
  L : Rat
  deriving DecidableEq

def ImageSizes.get (sizes : ImageSizes) : ImageSize → Rat
  | .S => sizes.S
  | .M => sizes.M
  | .L => sizes.L

/-- A picture has a width and a height. -/
structure LayoutImage where
  thumb : String
  w : Rat
  h : Rat
  size : Option ImageSize
  wide : 0 ≤ w
  high : 0 ≤ h
  deriving DecidableEq

/-- A link from a node to another vault. -/
structure NodeLink where
  id : String
  label : Option String
  deriving DecidableEq

inductive Side
  | left
  | right
  deriving DecidableEq

/-- What the layout reads of a node, beside its children. -/
structure LayoutNode where
  id : String
  text : String
  notes : Option String
  collapsed : Bool
  link : Option NodeLink
  icons : List String
  checked : Option Bool
  progress : Option Rat
  startDate : Option String
  endDate : Option String
  urls : Nat
  attachments : Nat
  side : Option Side
  customX : Option Rat
  customY : Option Rat
  tags : List String
  image : Option LayoutImage
  deriving DecidableEq

/-- `NODE_LINE_H` and the other numbers the canvas is built from. -/
def nodeLineH : Rat := 20
def nodeMinH : Rat := 36
def nodePadX : Rat := 18
def nodePadY : Rat := 8
def hGap : Rat := 40
def vGap : Rat := 8
def minW : Rat := 80
def linkStripH : Rat := 18
def tagStripH : Rat := 18
def topMetaStripH : Rat := 18
def dateBadgeOffsetH : Rat := 34
def iconSize : Rat := 16
def checkboxSize : Rat := 16
def progressPieSize : Rat := 32
def nodeImagePad : Rat := 6
def defaultImageSizes : ImageSizes := ⟨64, 128, 256⟩
def minImageSize : Rat := 32
def maxImageSize : Rat := 512

/-- `Math.round`. -/
def round (x : Rat) : Rat := (x + 1 / 2).floor

theorem round_nonneg {x : Rat} (nonneg : 0 ≤ x) : 0 ≤ round x := by
  have floor : 0 ≤ (x + 1 / 2).floor := by
    rw [Rat.le_floor_iff]
    push_cast
    linarith
  unfold round
  exact_mod_cast floor

/-- `clampImageSize`. -/
def clampImageSize (px : Rat) : Rat := round (min maxImageSize (max minImageSize px))

/-- `imageDisplaySize`: the width and the height a picture is drawn at. -/
def imageDisplaySize (image : LayoutImage) (sizes : Option ImageSizes) : Rat × Rat :=
  if sizes.isNone ∧ image.size.isNone then (image.w, image.h)
  else
    let box := clampImageSize ((sizes.getD defaultImageSizes).get (image.size.getD .S))
    let scale := box / max (max image.w image.h) 1
    (round (image.w * scale), round (image.h * scale))

/-- The line is a link to an attachment, with a name and an id. -/
def isAttachmentMarkdownLine (line : String) : Bool :=
  let trimmed := (Ecma.trim line).toList
  let opening := "[Attachment:".toList
  let middle := "](attachment://".toList
  opening.isPrefixOf trimmed &&
    let body := trimmed.drop opening.length
    (List.range body.length).any fun i =>
      let name := (body.take i).dropWhile Ecma.isWhitespace
      let rest := (body.drop i).drop middle.length
      middle.isPrefixOf (body.drop i) && (body.take i) != [] &&
        name.all (fun c => !Ecma.isLineTerminator c) &&
        (name != [] || (body.take i).getLast?.any fun c => !Ecma.isLineTerminator c) &&
        rest.getLast? == some ')' && rest.dropLast != [] &&
        rest.dropLast.all (· != ')')

/-- `getVisibleNodeTextLines`. -/
def getVisibleNodeTextLines (text : String) : List String :=
  ((text.toList.splitOn '\n').map String.ofList).filter fun line =>
    !isAttachmentMarkdownLine line

/-- What the caller knows more than the node does. -/
structure DescribeOptions where
  attachmentCount : Option Nat
  imageSizes : Option ImageSizes

/-- The parts of a node that count for its size. -/
structure NodeParts where
  lines : List String
  urlCount : Nat
  /-- The text that the strip of a link is drawn with. -/
  link : Option String
  image : Option (Rat × Rat)
  leftPad : Rat
  topMetaH : Rat
  topTagH : Rat
  imageBandH : Rat
  footerH : Rat
  visualTopExtra : Rat

/-- A text that is there and not empty. -/
def truthy (text : Option String) : Bool := text.any (· != "")

/-- `describeNode`. -/
def describeNode (node : LayoutNode) (options : DescribeOptions) : NodeParts :=
  let link := (node.link.filter (·.id != "")).map fun link =>
    if truthy link.label then link.label.getD "" else link.id
  let image := (node.image.filter (·.thumb != "")).map fun image =>
    imageDisplaySize image options.imageSizes
  let hasNote := truthy (node.notes.map Ecma.trim)
  let attachmentCount := options.attachmentCount.getD node.attachments
  let hasDate := truthy node.startDate || truthy node.endDate
  { lines := getVisibleNodeTextLines node.text
    urlCount := node.urls
    link := link
    image := image
    leftPad :=
      (if node.checked.isSome then checkboxSize + 6 else 0) +
        (if 0 < node.icons.length then (iconSize + 4) * node.icons.length + 2 else 0) +
        (if node.progress.isSome then progressPieSize + 6 else 0)
    topMetaH := if hasNote || decide (0 < attachmentCount) then topMetaStripH else 0
    topTagH := if 0 < node.tags.length then tagStripH else 0
    imageBandH := match image with
      | none => 0
      | some (_, h) => h + nodeImagePad
    footerH := ((if link.isSome then 1 else 0) + node.urls) * linkStripH
    visualTopExtra := if hasDate then dateBadgeOffsetH else 0 }

/-- `measureNodeSize`: the width and the height. The text is measured at a font size. -/
def measureNodeSize (measureText : String → Nat → Rat) (parts : NodeParts) : Rat × Rat :=
  let urlW : Rat := if 0 < parts.urlCount then 120 else 0
  let linkW := match parts.link with
    | none => 0
    | some label => measureText label 10 + 24
  let maxW := (parts.lines.map fun line =>
    measureText (if line = "" then " " else line) 14).foldr max (max linkW urlW)
  let textW := max minW (maxW + nodePadX * 2 + parts.leftPad)
  let imageW := match parts.image with
    | none => 0
    | some (w, _) => w + nodePadX * 2
  let bodyH := max nodeMinH (parts.lines.length * nodeLineH + nodePadY * 2)
  (max textW imageW, bodyH + parts.topMetaH + parts.topTagH + parts.imageBandH + parts.footerH)

end Layout
end MindMapVault
