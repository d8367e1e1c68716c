import Mathlib.Data.List.Basic

/-!
# The scene of a board

The cards of a board in their order, and the connections between them. A card is told from
another by its id. Positions are integers.
-/

namespace MindMapVault
namespace Board

/-- `BoardCardColor`. -/
inductive BoardCardColor
  | default
  | red
  | yellow
  | blue
  | green
  | purple
  deriving DecidableEq

/-- What a card is made of beside its id and its place. -/
inductive CardFields
  | card (title body : String) (color : BoardCardColor)
  | image (src label : String) (width imgH : Int)
  | pdf (src thumbnailSrc label : String) (width displayH pageCount : Int)
  deriving DecidableEq

/-- `BoardNodeObj`. -/
structure BoardNodeObj where
  id : String
  x : Int
  y : Int
  selected : Bool
  fields : CardFields
  deriving DecidableEq

/-- The same in a file. A picture of the first page is left out if there is none. -/
inductive BoardFields
  | card (title body : String) (color : BoardCardColor)
  | image (src label : String) (width height : Int)
  | pdf (src : String) (thumbnailSrc : Option String) (label : String)
      (width height pageCount : Int)
  deriving DecidableEq

/-- `BoardNode`. -/
structure BoardNode where
  id : String
  x : Int
  y : Int
  fields : BoardFields
  deriving DecidableEq

/-- A connection, on the board and in a file. -/
structure BoardConnection where
  id : String
  sourceId : String
  targetId : String
  color : String
  label : String
  deriving DecidableEq

namespace BoardNodeObj

def width (node : BoardNodeObj) : Int :=
  match node.fields with
  | .card .. => 240
  | .image _ _ width _ | .pdf _ _ _ width _ _ => width

def height (node : BoardNodeObj) : Int :=
  match node.fields with
  | .card .. => 160
  | .image _ _ _ imgH => imgH + 32
  | .pdf _ _ _ _ displayH _ => displayH + 32

/-- `hitTest`. -/
def hitTest (node : BoardNodeObj) (wx wy : Int) : Bool :=
  decide (node.x ≤ wx) && decide (wx ≤ node.x + node.width) &&
    decide (node.y ≤ wy) && decide (wy ≤ node.y + node.height)

/-- `toJSON`. -/
def toJSON (node : BoardNodeObj) : BoardNode where
  id := node.id
  x := node.x
  y := node.y
  fields :=
    match node.fields with
    | .card title body color => .card title body color
    | .image src label width imgH => .image src label width imgH
    | .pdf src thumbnailSrc label width displayH pageCount =>
        .pdf src (if thumbnailSrc = "" then none else some thumbnailSrc) label width displayH
          pageCount

/-- `fromJSON`. -/
def fromJSON (node : BoardNode) : BoardNodeObj where
  id := node.id
  x := node.x
  y := node.y
  selected := false
  fields :=
    match node.fields with
    | .card title body color => .card title body color
    | .image src label width height => .image src label width height
    | .pdf src thumbnailSrc label width height pageCount =>
        .pdf src (thumbnailSrc.getD "") label width height pageCount

/-- The card as it is when it is not selected. -/
def unselected (node : BoardNodeObj) : BoardNodeObj := { node with selected := false }

/-- What is read from a file is the card that was written. -/
theorem fromJSON_toJSON (node : BoardNodeObj) : fromJSON node.toJSON = node.unselected := by
  obtain ⟨id, x, y, selected, fields⟩ := node
  cases fields with
  | card | image => rfl
  | pdf src thumbnailSrc label width displayH pageCount =>
      by_cases empty : thumbnailSrc = ""
      · simp [fromJSON, toJSON, unselected, empty]
      · simp [fromJSON, toJSON, unselected, empty]

end BoardNodeObj

/-- `CONN_COLOR_KEYS`. -/
def connColorKeys : List String := ["red", "blue", "green", "yellow", "purple", "white"]

/-- `Scene`. -/
structure Scene where
  nodes : List BoardNodeObj
  connections : List BoardConnection
  colorIdx : Nat
  deriving DecidableEq

/-- The connection is between these two, in either direction. -/
def BoardConnection.joins (connection : BoardConnection) (srcId tgtId : String) : Bool :=
  (connection.sourceId == srcId && connection.targetId == tgtId) ||
    (connection.sourceId == tgtId && connection.targetId == srcId)

namespace Scene

/-- The ids of the cards. -/
def ids (scene : Scene) : List String := scene.nodes.map BoardNodeObj.id

/-- `add`. -/
def add (scene : Scene) (node : BoardNodeObj) : Scene :=
  { scene with nodes := scene.nodes ++ [node] }

/-- `remove`: the card goes, and its connections with it. -/
def remove (scene : Scene) (nodeId : String) : Scene :=
  { scene with
    nodes := scene.nodes.filter fun node => node.id != nodeId
    connections := scene.connections.filter fun connection =>
      connection.sourceId != nodeId && connection.targetId != nodeId }

/-- `duplicate`: the copy has a new id and lies a bit lower. -/
def duplicate (scene : Scene) (node : BoardNodeObj) (newId : String) : Scene :=
  scene.add
    { node with
      id := newId
      x := node.x + 24
      y := node.y + 24
      selected := false }

/-- `bringToFront`. -/
def bringToFront (scene : Scene) (node : BoardNodeObj) : Scene :=
  { scene with nodes := (scene.nodes.filter fun other => other.id != node.id) ++ [node] }

/-- `connect`, unless the two are connected. Without a colour the next one is taken. -/
def connect (scene : Scene) (srcId tgtId : String) (color : Option String)
    (label connId : String) : Scene :=
  if scene.connections.any (·.joins srcId tgtId) then scene
  else
    match color with
    | some color =>
        { scene with
          connections := scene.connections ++ [⟨connId, srcId, tgtId, color, label⟩] }
    | none =>
        { scene with
          connections := scene.connections ++ [⟨connId, srcId, tgtId,
            connColorKeys.getD (scene.colorIdx % connColorKeys.length) "", label⟩]
          colorIdx := scene.colorIdx + 1 }

/-- `removeConnection`, at its place in the list. -/
def removeConnection (scene : Scene) (index : Nat) : Scene :=
  { scene with connections := scene.connections.eraseIdx index }

/-- `hitTestNode`: the uppermost card there. -/
def hitTestNode (scene : Scene) (wx wy : Int) : Option BoardNodeObj :=
  scene.nodes.reverse.find? (·.hitTest wx wy)

/-- `clearSelection`. -/
def clearSelection (scene : Scene) : Scene :=
  { scene with nodes := scene.nodes.map BoardNodeObj.unselected }

/-- `getSelected`. -/
def getSelected (scene : Scene) : List BoardNodeObj := scene.nodes.filter (·.selected)

/-- The card is in a rectangle with its centre. -/
def centredIn (x1 y1 x2 y2 : Int) (node : BoardNodeObj) : Bool :=
  decide (2 * min x1 x2 ≤ 2 * node.x + node.width) &&
    decide (2 * node.x + node.width ≤ 2 * max x1 x2) &&
    decide (2 * min y1 y2 ≤ 2 * node.y + node.height) &&
    decide (2 * node.y + node.height ≤ 2 * max y1 y2)

/-- `selectInRect`. -/
def selectInRect (scene : Scene) (x1 y1 x2 y2 : Int) : Scene :=
  { scene with
    nodes := scene.nodes.map fun node =>
      if centredIn x1 y1 x2 y2 node then { node with selected := true } else node }

/-- `deleteSelected`. -/
def deleteSelected (scene : Scene) : Scene :=
  scene.getSelected.foldl (fun scene node => scene.remove node.id) scene

/-- The card with an id is changed. -/
def modify (scene : Scene) (nodeId : String) (change : BoardNodeObj → BoardNodeObj) : Scene :=
  { scene with
    nodes := scene.nodes.map fun node => if node.id = nodeId then change node else node }

/-- `toData`. -/
def toData (scene : Scene) : List BoardNode × List BoardConnection :=
  (scene.nodes.map BoardNodeObj.toJSON, scene.connections)

/-- `loadData`. -/
def loadData (scene : Scene) (data : List BoardNode × List BoardConnection) : Scene :=
  { scene with
    nodes := data.1.map BoardNodeObj.fromJSON
    connections := data.2 }

/-- What is loaded from the data of a scene is that scene, with nothing selected. -/
theorem loadData_toData (scene other : Scene) :
    (other.loadData scene.toData).nodes = scene.nodes.map BoardNodeObj.unselected ∧
      (other.loadData scene.toData).connections = scene.connections := by
  refine ⟨?_, rfl⟩
  rw [loadData, toData, List.map_map]
  exact List.map_congr_left fun node _ => node.fromJSON_toJSON

end Scene

end Board
end MindMapVault
