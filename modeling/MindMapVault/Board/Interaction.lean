import MindMapVault.Board.Scene
import MindMapVault.Foundations.Transition

/-!
# Mouse and keys on a board

The interaction is a state machine beside the scene. It remembers the card that a
connection starts at, and the cards that are dragged, from one event to the next. The
camera is part of a mouse event, and so is the id that a connection would get.
-/

namespace MindMapVault
namespace Board

/-- `BoardTool`. -/
inductive BoardTool
  | select
  | pan
  | card
  | image
  | pdf
  | connect
  deriving DecidableEq

/-- What the mouse is doing. -/
inductive Gesture
  | idle
  | panning
  | dragging
  | boxSelect
  | connecting
  deriving DecidableEq

structure Point where
  x : Int
  y : Int
  deriving DecidableEq

/-- A card that is dragged, and where it is held. -/
structure DragItem where
  nodeId : String
  ox : Int
  oy : Int
  deriving DecidableEq

/-- `Interaction`, and the scene it works on. -/
structure Interaction where
  scene : Scene
  tool : BoardTool
  connColor : String
  state : Gesture
  dragItems : List DragItem
  boxStart : Option Point
  boxEnd : Option Point
  connSrc : Option String
  connPreview : Option Point
  spaceDown : Bool
  deriving DecidableEq

structure MouseEvent where
  button : Nat
  shiftKey : Bool
  pos : Point
  screenToWorld : Point → Point
  newId : String

structure KeyEvent where
  code : String
  ctrlKey : Bool
  metaKey : Bool
  /-- The key goes to a field that is written in. -/
  inField : Bool
  deriving DecidableEq

/-- What happens to a board: mouse and keys, and what its page does with the scene. -/
inductive BoardEvent
  | down (event : MouseEvent)
  | move (event : MouseEvent)
  | up (event : MouseEvent)
  | keyDown (event : KeyEvent)
  | keyUp (code : String)
  | setTool (tool : BoardTool)
  | setConnColor (color : String)
  | add (node : BoardNodeObj)
  /-- The menu of the page keeps its card, even one that has been deleted. -/
  | duplicate (node : BoardNodeObj) (newId : String)
  | connect (srcId tgtId : String) (color : Option String) (label connId : String)
  | remove (nodeId : String)
  | deleteSelected
  | removeConnection (index : Nat)
  | bringToFront (nodeId : String)
  | clearSelection

namespace Interaction

/-- A board that was just opened. -/
def start (scene : Scene) : Interaction where
  scene := scene
  tool := .select
  connColor := "red"
  state := .idle
  dragItems := []
  boxStart := none
  boxEnd := none
  connSrc := none
  connPreview := none
  spaceDown := false

/-- `_finishConnect`. -/
def finishConnect (board : Interaction) : Interaction :=
  { board with connSrc := none, connPreview := none, state := .idle }

/-- `setTool`. -/
def setTool (board : Interaction) (tool : BoardTool) : Interaction :=
  let changed := { board with tool := tool }
  if tool = .connect then changed else changed.finishConnect

/-- The button moves the board and not what is on it. -/
def pans (board : Interaction) (event : MouseEvent) : Bool :=
  event.button == 1 || (event.button == 0 && board.spaceDown) ||
    (event.button == 0 && board.tool == .pan)

/-- The card under the mouse. -/
def hit (board : Interaction) (event : MouseEvent) : Option BoardNodeObj :=
  let wp := event.screenToWorld event.pos
  board.scene.hitTestNode wp.x wp.y

/-- `_down` with the tool that connects. -/
def downConnect (board : Interaction) (event : MouseEvent) : Interaction :=
  match board.hit event with
  | none => board.finishConnect
  | some hit =>
      match board.connSrc with
      | none =>
          { board with
            connSrc := some hit.id
            connPreview := some (event.screenToWorld event.pos)
            state := .connecting }
      | some src =>
          if hit.id ≠ src then
            finishConnect
              { board with
                scene := board.scene.connect src hit.id (some board.connColor) "" event.newId }
          else board

/-- `_down` on a card: it comes to the front, is selected and dragged with the others. -/
def downOnCard (board : Interaction) (event : MouseEvent) (hit : BoardNodeObj) : Interaction :=
  let wp := event.screenToWorld event.pos
  let front := board.scene.bringToFront hit
  let cleared := if !event.shiftKey && !hit.selected then front.clearSelection else front
  let scene := cleared.modify hit.id fun node => { node with selected := true }
  { board with
    scene := scene
    dragItems := scene.getSelected.map fun node => ⟨node.id, wp.x - node.x, wp.y - node.y⟩
    state := .dragging }

/-- `_down`. A tool that adds a card is done with; the card comes from the page. -/
def down (board : Interaction) (event : MouseEvent) : Interaction :=
  if board.pans event then { board with state := .panning }
  else if event.button ≠ 0 then board
  else if board.tool = .connect then board.downConnect event
  else
    match board.hit event with
    | some hit => board.downOnCard event hit
    | none =>
        if board.tool = .card ∨ board.tool = .image ∨ board.tool = .pdf then
          board.setTool .select
        else
          { board with
            scene := board.scene.clearSelection
            boxStart := some event.pos
            boxEnd := some event.pos
            state := .boxSelect }

/-- `_move`. -/
def move (board : Interaction) (event : MouseEvent) : Interaction :=
  let wp := event.screenToWorld event.pos
  match board.state with
  | .panning | .idle => board
  | .dragging =>
      { board with
        scene := board.dragItems.foldl
          (fun scene item =>
            scene.modify item.nodeId fun node =>
              { node with x := wp.x - item.ox, y := wp.y - item.oy })
          board.scene }
  | .boxSelect => { board with boxEnd := some event.pos }
  | .connecting => { board with connPreview := some wp }

/-- The scene after `_up`: what is in the box is selected. -/
def sceneUp (board : Interaction) (event : MouseEvent) : Scene :=
  match board.state, board.boxStart, board.boxEnd with
  | .boxSelect, some boxStart, some boxEnd =>
      let w1 := event.screenToWorld ⟨min boxStart.x boxEnd.x, min boxStart.y boxEnd.y⟩
      let w2 := event.screenToWorld ⟨max boxStart.x boxEnd.x, max boxStart.y boxEnd.y⟩
      board.scene.selectInRect w1.x w1.y w2.x w2.y
  | _, _, _ => board.scene

/-- `_up`. -/
def up (board : Interaction) (event : MouseEvent) : Interaction :=
  { board with
    scene := board.sceneUp event
    state := if board.state = .connecting then .connecting else .idle
    dragItems := []
    boxStart := none
    boxEnd := none }

/-- The tool that a key stands for. -/
def toolOfKey (event : KeyEvent) : Option BoardTool :=
  let plain := !event.ctrlKey && !event.metaKey
  match event.code with
  | "KeyV" => some .select
  | "KeyH" => if plain then some .pan else none
  | "KeyC" => if plain then some .card else none
  | "KeyI" => if plain then some .image else none
  | "KeyP" => if plain then some .pdf else none
  | "KeyE" => if plain then some .connect else none
  | _ => none

/-- `_kdown`. -/
def keyDown (board : Interaction) (event : KeyEvent) : Interaction :=
  if event.inField then board
  else if event.code = "Space" then { board with spaceDown := true }
  else if event.code = "Delete" ∨ event.code = "Backspace" then
    { board with scene := board.scene.deleteSelected }
  else if event.code = "Escape" then
    { board.finishConnect with scene := board.scene.clearSelection }.setTool .select
  else
    match toolOfKey event with
    | some tool => board.setTool tool
    | none => board

/-- `_kup`. -/
def keyUp (board : Interaction) (code : String) : Interaction :=
  if code = "Space" then { board with spaceDown := false } else board

/-- The card of the scene with an id. -/
def node (board : Interaction) (nodeId : String) : Option BoardNodeObj :=
  board.scene.nodes.find? (·.id == nodeId)

/-- A board as a transition system. The page connects cards of the scene, and brings one of
them to the front. -/
def system : Transition.System Interaction BoardEvent :=
  fun board event =>
    match event with
    | .down event => some (board.down event)
    | .move event => some (board.move event)
    | .up event => some (board.up event)
    | .keyDown event => some (board.keyDown event)
    | .keyUp code => some (board.keyUp code)
    | .setTool tool => some (board.setTool tool)
    | .setConnColor color => some { board with connColor := color }
    | .add node => some { board with scene := board.scene.add node }
    | .duplicate node newId => some { board with scene := board.scene.duplicate node newId }
    | .connect srcId tgtId color label connId =>
        if srcId ∈ board.scene.ids ∧ tgtId ∈ board.scene.ids then
          some { board with scene := board.scene.connect srcId tgtId color label connId }
        else none
    | .remove nodeId => some { board with scene := board.scene.remove nodeId }
    | .deleteSelected => some { board with scene := board.scene.deleteSelected }
    | .removeConnection index =>
        some { board with scene := board.scene.removeConnection index }
    | .bringToFront nodeId =>
        (board.node nodeId).map fun node =>
          { board with scene := board.scene.bringToFront node }
    | .clearSelection => some { board with scene := board.scene.clearSelection }

/-- The card that a mouse click connects with the one under the mouse. -/
def connectsFrom (board : Interaction) (event : MouseEvent) : Option String :=
  if board.pans event = false ∧ event.button = 0 ∧ board.tool = .connect ∧
      (board.hit event).isSome then board.connSrc
  else none

/-- New cards have new ids, the page connects two cards and not one with itself, and a
click connects cards that are both there. -/
def Sound (board : Interaction) : BoardEvent → Prop
  | .add node => node.id ∉ board.scene.ids
  | .duplicate _ newId => newId ∉ board.scene.ids
  | .connect srcId tgtId _ _ _ => srcId ≠ tgtId
  | .down event => ∀ src ∈ board.connectsFrom event, src ∈ board.scene.ids
  | _ => True

instance (board : Interaction) : (event : BoardEvent) → Decidable (board.Sound event)
  | .add _ | .duplicate .. | .connect .. => inferInstanceAs (Decidable (¬ _))
  | .down event =>
      inferInstanceAs (Decidable (∀ src ∈ board.connectsFrom event, src ∈ board.scene.ids))
  | .move _ | .up _ | .keyDown _ | .keyUp _ | .setTool _ | .setConnColor _ | .remove _
  | .deleteSelected | .removeConnection _ | .bringToFront _ | .clearSelection =>
      .isTrue trivial

end Interaction

end Board
end MindMapVault
