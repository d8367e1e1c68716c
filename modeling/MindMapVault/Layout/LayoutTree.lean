import MindMapVault.Foundations.RoseEdits
import MindMapVault.Layout.Geometry
import Mathlib.Logic.Function.Basic

/-!
# Where the boxes go

The layout of a tree in two passes over a record of positions by id: the heights of the
subtrees from below, then the places from above. The second pass reads what the first one
wrote. The record is a plain object, in which one id names no property.
-/

namespace MindMapVault
namespace Layout

/-- A tree that is laid out. -/
abbrev LayoutTree := RoseTree LayoutNode

/-- Where a node is placed. -/
structure Place where
  x : Rat
  y : Rat
  direction : Side
  deriving DecidableEq

/-- What is known of a node: what the first pass finds out, and its place after the
second. -/
structure LayoutEntry where
  w : Rat
  h : Rat
  visualTopExtra : Rat
  subtreeH : Rat
  node : LayoutNode
  place : Option Place
  deriving DecidableEq

/-- The record of positions, a plain object: its own properties, none of which is called
`'__proto__'`, and its prototype once an entry was made the prototype. -/
structure Positions where
  own : String → Option LayoutEntry
  prototype : Option LayoutEntry
  own_proto : own "__proto__" = none

namespace Positions

/-- `{}`. -/
def empty : Positions := ⟨fun _ => none, none, rfl⟩

/-- `pos[id]` of an id that was written: `'__proto__'` reads the prototype. -/
def get (pos : Positions) (id : String) : Option LayoutEntry :=
  if id = "__proto__" then pos.prototype else pos.own id

/-- `pos[id] = written`: `'__proto__'` sets the prototype and adds no property. -/
def set (pos : Positions) (id : String) (written : LayoutEntry) : Positions :=
  if named : id = "__proto__" then { pos with prototype := some written }
  else
    { pos with
      own := Function.update pos.own id (some written)
      own_proto := by rw [Function.update_of_ne (Ne.symm named), pos.own_proto] }

@[simp] theorem get_set_self (pos : Positions) (id : String) (written : LayoutEntry) :
    (pos.set id written).get id = some written := by
  unfold get set
  split_ifs
  · rfl
  · exact Function.update_self _ _ _

theorem get_set_of_ne (pos : Positions) {id other : String} (differs : other ≠ id)
    (written : LayoutEntry) : (pos.set id written).get other = pos.get other := by
  unfold get set
  split_ifs with names named
  · exact absurd (names.trans named.symm) differs
  · rfl
  · rfl
  · exact Function.update_of_ne differs _ _

theorem own_of_ne (pos : Positions) {id : String} (proper : id ≠ "__proto__") :
    pos.own id = pos.get id := by
  rw [get, if_neg proper]

end Positions

/-- The size of a node with what stands above it. -/
structure Measured where
  w : Rat
  h : Rat
  visualTopExtra : Rat

/-- What the layout asks of a node. -/
abbrev Measure := LayoutNode → Measured

/-- How `layoutTree` measures a node. -/
def measureWith (measureText : String → Nat → Rat) (options : LayoutNode → DescribeOptions) :
    Measure :=
  fun node =>
    let parts := describeNode node (options node)
    let size := measureNodeSize measureText parts
    ⟨size.1, size.2, parts.visualTopExtra⟩

/-- Nothing below the node is shown. -/
def folded (label : LayoutNode) (children : List LayoutTree) : Bool :=
  children.isEmpty || label.collapsed

section Passes

variable (measure : Measure)

/-- The height of a node with what stands above it. -/
def visualH (label : LayoutNode) : Rat := (measure label).h + (measure label).visualTopExtra

/-- The entry that the first pass makes. -/
def entry (label : LayoutNode) (subtreeH : Rat) : LayoutEntry where
  w := (measure label).w
  h := (measure label).h
  visualTopExtra := (measure label).visualTopExtra
  subtreeH := subtreeH
  node := label
  place := none

mutual

/-- `computeHeight`: the heights from below. -/
def computeHeight : Positions → LayoutTree → Positions × Rat
  | pos, .node label children =>
      if folded label children then
        (pos.set label.id (entry measure label (visualH measure label)), visualH measure label)
      else
        let below := computeHeights pos 0 true children
        let subtreeH := max (visualH measure label) below.2
        (below.1.set label.id (entry measure label subtreeH), subtreeH)

/-- The heights of children one after the other, with a gap before all but the first. -/
def computeHeights : Positions → Rat → Bool → List LayoutTree → Positions × Rat
  | pos, childrenH, _, [] => (pos, childrenH)
  | pos, childrenH, first, child :: children =>
      let next := computeHeight pos child
      computeHeights next.1 (childrenH + next.2 + if first then 0 else vGap) false children

end

end Passes

/-- The height of a subtree as it is in the record. -/
def subtreeHAt (pos : Positions) (id : String) : Rat :=
  ((pos.get id).map LayoutEntry.subtreeH).getD 0

/-- The width of a node as it is in the record. -/
def wAt (pos : Positions) (id : String) : Rat := ((pos.get id).map LayoutEntry.w).getD 0

/-- `totalH`: the height of some of the children, with a gap before all but the first. -/
def groupHeight (pos : Positions) (member : LayoutNode → Bool) :
    Rat → Bool → List LayoutTree → Rat
  | totalH, _, [] => totalH
  | totalH, first, child :: children =>
      if member child.label then
        groupHeight pos member
          (totalH + subtreeHAt pos child.label.id + if first then 0 else vGap) false children
      else groupHeight pos member totalH first children

/-- The place of a node that is centred, or where it was dragged to. -/
def placeOf (found : LayoutEntry) (label : LayoutNode) (x yCenter : Rat) (direction : Side) :
    Place :=
  match label.customX, label.customY with
  | some customX, some customY => ⟨customX, customY, direction⟩
  | _, _ =>
      ⟨x, yCenter - (found.h + found.visualTopExtra) / 2 + found.visualTopExtra, direction⟩

/-- Where a child starts beside its parent. -/
def childX (direction : Side) (x parentW childW : Rat) : Rat :=
  match direction with
  | .right => x + parentW + hGap
  | .left => x - childW - hGap

mutual

/-- `assignPos`: the places from above. -/
def assignPos : Positions → LayoutTree → Rat → Rat → Side → Positions
  | pos, .node label children, x, yCenter, direction =>
      match pos.get label.id with
      | none => pos
      | some found =>
          let placed := pos.set label.id
            { found with place := some (placeOf found label x yCenter direction) }
          if folded label children then placed
          else if label.id = "root" then
            let right := fun child : LayoutNode => child.side != some .left
            let left := fun child : LayoutNode => child.side == some .left
            let rightPlaced := layoutGroup placed children right x found.w .right
              (yCenter - groupHeight placed right 0 true children / 2)
            layoutGroup rightPlaced children left x found.w .left
              (yCenter - groupHeight rightPlaced left 0 true children / 2)
          else
            layoutGroup placed children (fun _ => true) x found.w direction
              (yCenter - groupHeight placed (fun _ => true) 0 true children / 2)

/-- `layoutGroup` from the height at which it starts: some of the children, one below the
other. -/
def layoutGroup :
    Positions → List LayoutTree → (LayoutNode → Bool) → Rat → Rat → Side → Rat → Positions
  | pos, [], _, _, _, _, _ => pos
  | pos, child :: children, member, x, parentW, direction, cy =>
      if member child.label then
        let subtreeH := subtreeHAt pos child.label.id
        layoutGroup
          (assignPos pos child
            (childX direction x parentW (wAt pos child.label.id)) (cy + subtreeH / 2) direction)
          children member x parentW direction (cy + subtreeH + vGap)
      else layoutGroup pos children member x parentW direction cy

end

/-- `layoutTree`. -/
def layoutTree (measure : Measure) (root : LayoutTree) (startX startY : Rat) : Positions :=
  assignPos (computeHeight measure .empty root).1 root startX startY .right

end Layout
end MindMapVault
