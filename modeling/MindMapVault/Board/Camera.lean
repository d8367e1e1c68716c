import MindMapVault.Foundations.Transition
import Mathlib.Data.Rat.Defs
import Mathlib.Algebra.Order.Field.Rat
import Mathlib.Tactic.Linarith
import Mathlib.Tactic.NormNum
import Mathlib.Tactic.Ring

/-!
# The camera of a board

The camera moves in three ways: it is panned at once, a zoom is approached by a spring
from one animation frame to the next while one point of the board stays where it is on
the screen, and a fit flies to a place with springs for all three numbers. What each of
them remembers is a field of the engine of its own. Arithmetic is exact.
-/

namespace MindMapVault
namespace Board

/-- A place on the screen or on the board. -/
@[ext]
structure Position where
  x : ℚ
  y : ℚ
  deriving DecidableEq

/-- `Engine['camera']`. -/
@[ext]
structure Camera where
  x : ℚ
  y : ℚ
  zoom : ℚ
  deriving DecidableEq

/-- Where a fit flies to. -/
structure FlyTo where
  z : ℚ
  x : ℚ
  y : ℚ
  deriving DecidableEq

/-- What a fit reads of a card. -/
structure NodeBox where
  x : ℚ
  y : ℚ
  width : ℚ
  height : ℚ
  deriving DecidableEq

/-- `Engine`, as far as its camera goes. -/
structure Engine where
  width : ℚ
  height : ℚ
  camera : Camera
  tz : ℚ
  tzv : ℚ
  zfx : ℚ
  zfy : ℚ
  zsx : ℚ
  zsy : ℚ
  flyTo : Option FlyTo
  flyXV : ℚ
  flyYV : ℚ
  deriving DecidableEq

/-- `Math.max(0.08, Math.min(6, zoom))`. -/
def clampZoom (zoom : ℚ) : ℚ := max (2 / 25) (min 6 zoom)

/-- The zooms the clamp lets through. -/
def InZoomRange (zoom : ℚ) : Prop := 2 / 25 ≤ zoom ∧ zoom ≤ 6

instance (zoom : ℚ) : Decidable (InZoomRange zoom) := inferInstanceAs (Decidable (_ ∧ _))

/-- A velocity after one frame, for a spring and a damping. -/
def spring (stiffness damping distance velocity : ℚ) : ℚ :=
  velocity + (stiffness * distance - damping * velocity) * (1 / 60)

/-- `screenToWorld`. -/
def Camera.screenToWorld (camera : Camera) (screen : Position) : Position :=
  ⟨(screen.x - camera.x) / camera.zoom, (screen.y - camera.y) / camera.zoom⟩

/-- `worldToScreen`. -/
def Camera.worldToScreen (camera : Camera) (world : Position) : Position :=
  ⟨world.x * camera.zoom + camera.x, world.y * camera.zoom + camera.y⟩

namespace Engine

/-- A board that is opened with a saved view. The view is written into the camera; the
other fields are as the constructor leaves them. -/
def opened (width height : ℚ) (view : Camera) : Engine where
  width := width
  height := height
  camera := view
  tz := 1
  tzv := 0
  zfx := 0
  zfy := 0
  zsx := 0
  zsy := 0
  flyTo := none
  flyXV := 0
  flyYV := 0

/-- The camera of a zoom that keeps the focal point where it is. -/
def focused (engine : Engine) (zoom : ℚ) : Camera :=
  ⟨engine.zsx - engine.zfx * zoom, engine.zsy - engine.zfy * zoom, zoom⟩

/-- One frame of a flight, before it is known whether it has ended. -/
def flown (engine : Engine) (target : FlyTo) : Engine :=
  let tzv := spring 140 23 (target.z - engine.camera.zoom) engine.tzv
  let flyXV := spring 140 23 (target.x - engine.camera.x) engine.flyXV
  let flyYV := spring 140 23 (target.y - engine.camera.y) engine.flyYV
  { engine with
    camera :=
      ⟨engine.camera.x + flyXV * (1 / 60), engine.camera.y + flyYV * (1 / 60),
        clampZoom (engine.camera.zoom + tzv * (1 / 60))⟩
    tzv := tzv
    flyXV := flyXV
    flyYV := flyYV }

/-- `settled`: the distances before the frame and the velocities after it are small. -/
def settled (engine : Engine) (target : FlyTo) : Bool :=
  decide (|target.z - engine.camera.zoom| < 1 / 2500) &&
    decide (|target.x - engine.camera.x| < 2 / 5) &&
    decide (|target.y - engine.camera.y| < 2 / 5) &&
    decide (|(engine.flown target).tzv| < 1 / 2500) &&
    decide (|(engine.flown target).flyXV| < 2 / 5) &&
    decide (|(engine.flown target).flyYV| < 2 / 5)

/-- `_animCamera`. -/
def animCamera (engine : Engine) : Engine :=
  match engine.flyTo with
  | some target =>
      if engine.settled target then
        { engine with
          camera := ⟨target.x, target.y, target.z⟩
          flyTo := none
          tzv := 0
          flyXV := 0
          flyYV := 0
          tz := target.z }
      else
        engine.flown target
  | none =>
      if |engine.tz - engine.camera.zoom| < 1 / 25000 ∧ |engine.tzv| < 1 / 25000 then
        if engine.camera.zoom ≠ engine.tz then
          { engine with camera := engine.focused engine.tz, tzv := 0 }
        else
          { engine with tzv := 0 }
      else
        let tzv := spring 100 19 (engine.tz - engine.camera.zoom) engine.tzv
        { engine with
          camera := engine.focused (clampZoom (engine.camera.zoom + tzv * (1 / 60)))
          tzv := tzv }

/-- `zoomAt`. -/
def zoomAt (engine : Engine) (screen : Position) (factor : ℚ) : Engine :=
  let world := engine.camera.screenToWorld screen
  { engine with
    tz := clampZoom (engine.tz * factor)
    zfx := world.x
    zfy := world.y
    zsx := screen.x
    zsy := screen.y
    flyTo := none
    flyXV := 0
    flyYV := 0 }

/-- The camera is panned, and with `shiftZoomFocus` the focal point is. -/
def pan (engine : Engine) (shift : Position) : Engine :=
  { engine with
    camera := { engine.camera with
      x := engine.camera.x + shift.x
      y := engine.camera.y + shift.y }
    zsx := engine.zsx + shift.x
    zsy := engine.zsy + shift.y }

end Engine

/-- The least box around some cards. -/
def bounds (node : NodeBox) (nodes : List NodeBox) : Position × Position :=
  (⟨nodes.foldl (fun least node => min least node.x) node.x,
    nodes.foldl (fun least node => min least node.y) node.y⟩,
   ⟨nodes.foldl (fun largest node => max largest (node.x + node.width))
      (node.x + node.width),
    nodes.foldl (fun largest node => max largest (node.y + node.height)) (node.y + node.height)⟩)

namespace Engine

/-- The view a fit goes to: all the cards with a padding around, at twice their size at
most. -/
def fit (engine : Engine) (node : NodeBox) (nodes : List NodeBox) (padding : ℚ) : FlyTo :=
  let (least, largest) := bounds node nodes
  let ww := max (largest.x - least.x) 1
  let wh := max (largest.y - least.y) 1
  let z := min (min ((engine.width - padding * 2) / ww) ((engine.height - padding * 2) / wh)) 2
  { z := z
    x := engine.width / 2 - (least.x + ww / 2) * z
    y := engine.height / 2 - (least.y + wh / 2) * z }

/-- `fitToContent`. -/
def fitToContent (engine : Engine) (nodes : List NodeBox) (padding : ℚ)
    (immediate : Bool) : Engine :=
  match nodes with
  | [] => engine
  | node :: nodes =>
      let target := engine.fit node nodes padding
      if immediate then
        { engine with
          camera := ⟨target.x, target.y, target.z⟩
          tz := target.z
          tzv := 0
          flyTo := none
          flyXV := 0
          flyYV := 0 }
      else
        { engine with
          flyTo := some target
          flyXV := 0
          flyYV := 0
          tzv := 0
          tz := target.z }

end Engine

/-- What happens to the camera of a board. -/
inductive CameraEvent
  | frame
  | pan (shift : Position)
  | zoomAt (screen : Position) (factor : ℚ)
  | fitToContent (nodes : List NodeBox) (padding : ℚ) (immediate : Bool)
  | resize (width height : ℚ)
  deriving DecidableEq

/-- One event. -/
def Engine.step (engine : Engine) : CameraEvent → Engine
  | .frame => engine.animCamera
  | .pan shift => engine.pan shift
  | .zoomAt screen factor => engine.zoomAt screen factor
  | .fitToContent nodes padding immediate => engine.fitToContent nodes padding immediate
  | .resize width height => { engine with width := width, height := height }

/-- What a run of events leads to. -/
def Engine.run (engine : Engine) (events : List CameraEvent) : Engine :=
  events.foldl Engine.step engine

/-- The engine as a system in which every event can happen. -/
def camera : Transition.System Engine CameraEvent := fun engine event => some (engine.step event)

end Board
end MindMapVault
