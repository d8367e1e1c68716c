import MindMapVault.Foundations.RoseEdits
import MindMapVault.Maps.Editor

/-!
# The operations on the tree of a map

The operations that the editor's callbacks are made of, beside those that copying and
deleting use: each answers with a new root, or with nothing where it does not apply. The
first node in preorder with an id is the one an operation is about. What a node is made
of when it is new is a parameter, and so is the field that an edit changes.
-/

namespace MindMapVault
namespace Maps

variable {Rest : Type}

/-- The side of the root that one of its children is on. -/
inductive Side
  | left
  | right
  deriving DecidableEq

/-- `createNode`: everything empty, and what no function reads as it is given. -/
def createNode (id : String) (rest : Rest) : MindMapTreeNode Rest :=
  .node
    { id := id
      text := ""
      rest := rest
      collapsed := false
      customX := none
      customY := none
      imageAttachmentId := none
      attachments := [] } []

/-- A node with one more child, unfolded. -/
def withChild (child : MindMapTreeNode Rest) : MindMapTreeNode Rest → MindMapTreeNode Rest
  | .node content children =>
      .node { content with collapsed := false } (children ++ [child])

/-- `addChild`. A side is given to children of the root only. -/
def addChild (blank : Option Side → Rest) (id : String) (root : MindMapTreeNode Rest)
    (parentId : String) (side : Option Side) : Option (MindMapTreeNode Rest) :=
  let child := createNode id (blank (if parentId = "root" then side else none))
  if root.label.id = parentId then some (withChild child root)
  else root.splice (hasId parentId) fun found => [withChild child found]

/-- `addSibling`. -/
def addSibling (blank : Option Side → Rest) (id : String) (root : MindMapTreeNode Rest)
    (nodeId : String) : Option (MindMapTreeNode Rest) :=
  if nodeId = "root" then none
  else insertAfter root nodeId (createNode id (blank none))

/-- The direction a node moves among its siblings. -/
inductive Direction
  | up
  | down
  deriving DecidableEq

/-- A node and the sibling above or below it change places. -/
def swapSibling (direction : Direction) (passed : List (MindMapTreeNode Rest))
    (node : MindMapTreeNode Rest) (rest : List (MindMapTreeNode Rest)) :
    Option (List (MindMapTreeNode Rest)) :=
  match direction, passed.reverse, rest with
  | .up, above :: before, _ => some (before.reverse ++ node :: above :: rest)
  | .down, _, below :: behind => some (passed ++ below :: node :: behind)
  | .up, [], _ | .down, _, [] => none

/-- `moveSibling`. -/
def moveSibling (root : MindMapTreeNode Rest) (nodeId : String) (direction : Direction) :
    Option (MindMapTreeNode Rest) :=
  if nodeId = "root" ∨ root.label.id = nodeId then none
  else (root.rearrange (hasId nodeId) (swapSibling direction)).join

/-- `isDescendant`. -/
def isDescendant (root : MindMapTreeNode Rest) (ancestorId nodeId : String) : Bool :=
  match root.find? (hasId ancestorId) with
  | none => false
  | some ancestor => (ancestor.find? (hasId nodeId)).isSome

/-- `reparentNode`. The target is not below the node, so it is found behind the removal as
well. -/
def reparentNode (root : MindMapTreeNode Rest) (nodeId newParentId : String) :
    Option (MindMapTreeNode Rest) :=
  if nodeId = "root" ∨ nodeId = newParentId then none
  else if isDescendant root nodeId newParentId then none
  else if root.label.id = nodeId then none
  else
    match root.find? (hasId nodeId) with
    | none => none
    | some node =>
        (removeNode root nodeId).bind fun removed =>
          appendChildren removed newParentId [node]

/-- A change of the fields of a node that leaves its id, or nothing to do. -/
structure FieldEdit (Rest : Type) where
  edit : NodeContent Rest → Option (NodeContent Rest)
  keepsId : ∀ before after, edit before = some after → after.id = before.id

/-- `editNode`. -/
def editNode (root : MindMapTreeNode Rest) (nodeId : String) (change : FieldEdit Rest) :
    Option (MindMapTreeNode Rest) :=
  (root.find? (hasId nodeId)).bind fun found =>
    (change.edit found.label).bind fun content =>
      if root.label.id = nodeId then some (.node content root.children)
      else root.splice (hasId nodeId) fun node => [.node content node.children]

/-- A node without a position of its own. -/
def clearPosition (content : NodeContent Rest) : NodeContent Rest :=
  { content with customX := none, customY := none }

/-- `clearBranchCustomPositions`. -/
def clearBranchCustomPositions : MindMapTreeNode Rest → MindMapTreeNode Rest :=
  RoseTree.map clearPosition

/-- `resetPositions`. -/
def resetPositions (root : MindMapTreeNode Rest) (nodeId : Option String) :
    Option (MindMapTreeNode Rest) :=
  match nodeId with
  | none => some (clearBranchCustomPositions root)
  | some id =>
      if id = "root" ∨ root.label.id = id then some (clearBranchCustomPositions root)
      else root.splice (hasId id) fun found => [clearBranchCustomPositions found]

/-- One operation on the tree, with the ids that it draws or the branches that it is
given. -/
inductive TreeEdit (Rest : Type)
  | addChild (parentId : String) (side : Option Side) (id : String)
  | addSibling (nodeId id : String)
  | insertAfter (nodeId : String) (node : MindMapTreeNode Rest)
  | appendChildren (parentId : String) (nodes : List (MindMapTreeNode Rest))
  | removeNode (nodeId : String)
  | removeNodes (nodeIds : List String)
  | moveSibling (nodeId : String) (direction : Direction)
  | reparentNode (nodeId newParentId : String)
  | editNode (nodeId : String) (change : FieldEdit Rest)
  | resetPositions (nodeId : Option String)

namespace TreeEdit

/-- What the operation answers with. -/
def result (blank : Option Side → Rest) (root : MindMapTreeNode Rest) :
    TreeEdit Rest → Option (MindMapTreeNode Rest)
  | .addChild parentId side id => Maps.addChild blank id root parentId side
  | .addSibling nodeId id => Maps.addSibling blank id root nodeId
  | .insertAfter nodeId node => Maps.insertAfter root nodeId node
  | .appendChildren parentId nodes => Maps.appendChildren root parentId nodes
  | .removeNode nodeId => Maps.removeNode root nodeId
  | .removeNodes nodeIds => Maps.removeNodes root nodeIds
  | .moveSibling nodeId direction => Maps.moveSibling root nodeId direction
  | .reparentNode nodeId newParentId => Maps.reparentNode root nodeId newParentId
  | .editNode nodeId change => Maps.editNode root nodeId change
  | .resetPositions nodeId => Maps.resetPositions root nodeId

end TreeEdit

end Maps
end MindMapVault
