import MindMapVault.Board.Camera

/-!
# The range of the zoom

A zoom is clamped where its target is set and again where a frame approaches it. A fit
takes its zoom from the viewport and the extent of the cards, and bounds it by two and by
nothing below: cards that are too far apart, or a viewport with no room beside the
padding, take the camera out of the range, at once or by a flight that cannot arrive.
-/

namespace MindMapVault
namespace Board

open Transition

/-- Where the zoom of a board may be: within the range, and so is the target of a
flight, where it can settle. -/
structure WithinRange (engine : Engine) : Prop where
  zoom : InZoomRange engine.camera.zoom
  target : ∀ target ∈ engine.flyTo, InZoomRange target.z ∧
    ∃ reached : Engine, InZoomRange reached.camera.zoom ∧ reached.settled target = true

/-- The extent of the cards, at the least zoom, has room in the viewport beside the
padding. -/
def HasRoom (engine : Engine) : CameraEvent → Prop
  | .fitToContent (node :: nodes) padding _ =>
      2 / 25 * max ((bounds node nodes).2.x - (bounds node nodes).1.x) 1 ≤
          engine.width - padding * 2 ∧
        2 / 25 * max ((bounds node nodes).2.y - (bounds node nodes).1.y) 1 ≤
          engine.height - padding * 2
  | _ => True

instance (engine : Engine) (event : CameraEvent) : Decidable (HasRoom engine event) := by
  unfold HasRoom
  split <;> infer_instance

section Clamp

variable {zoom : ℚ}

/-- What has been clamped is in the range. -/
theorem clampZoom_inRange (zoom : ℚ) : InZoomRange (clampZoom zoom) :=
  ⟨le_max_left .., max_le (by norm_num) (min_le_left ..)⟩

theorem one_inRange : InZoomRange 1 := by
  unfold InZoomRange
  norm_num

end Clamp

namespace Engine

variable {engine : Engine}

/-- At its target a flight settles. -/
theorem settled_at (engine : Engine) (target : FlyTo) :
    settled { engine with
      camera := ⟨target.x, target.y, target.z⟩
      tzv := 0
      flyXV := 0
      flyYV := 0 } target = true := by
  norm_num [settled, flown, spring]

/-- The zoom of a fit is in the range exactly if the cards have room. -/
theorem fit_inRange_iff (engine : Engine) (node : NodeBox) (nodes : List NodeBox)
    (padding : ℚ) (immediate : Bool) :
    InZoomRange (engine.fit node nodes padding).z ↔
      HasRoom engine (.fitToContent (node :: nodes) padding immediate) := by
  have wide : (0 : ℚ) < max ((bounds node nodes).2.x - (bounds node nodes).1.x) 1 :=
    lt_max_of_lt_right one_pos
  have high : (0 : ℚ) < max ((bounds node nodes).2.y - (bounds node nodes).1.y) 1 :=
    lt_max_of_lt_right one_pos
  have twice : min (min ((engine.width - padding * 2) /
      max ((bounds node nodes).2.x - (bounds node nodes).1.x) 1)
        ((engine.height - padding * 2) /
          max ((bounds node nodes).2.y - (bounds node nodes).1.y) 1)) 2 ≤ 6 :=
    (min_le_right _ _).trans (by norm_num)
  have two : (2 / 25 : ℚ) ≤ 2 := by norm_num
  unfold InZoomRange HasRoom
  simp only [fit]
  rw [and_iff_left twice, le_min_iff, le_min_iff, and_iff_left two, le_div_iff₀ wide,
    le_div_iff₀ high]

/-- What a run within the range has: the targets are in the range as well. -/
structure Ranged (engine : Engine) : Prop extends WithinRange engine where
  tz : InZoomRange engine.tz

/-- A frame stays within the range. -/
theorem Ranged.animCamera (ranged : engine.Ranged) : engine.animCamera.Ranged := by
  unfold Engine.animCamera
  cases landed : engine.flyTo with
  | some target =>
      obtain ⟨arrives, settles⟩ := ranged.target target landed
      dsimp only
      split_ifs
      · exact ⟨⟨arrives, nofun⟩, arrives⟩
      · exact ⟨⟨clampZoom_inRange _, ranged.target⟩, ranged.tz⟩
  | none =>
      dsimp only
      split_ifs
      · exact ⟨⟨ranged.tz, nofun⟩, ranged.tz⟩
      · exact ⟨⟨ranged.zoom, nofun⟩, ranged.tz⟩
      · exact ⟨⟨clampZoom_inRange _, nofun⟩, ranged.tz⟩

/-- A flight that starts from within the range is within it exactly if it can arrive. -/
theorem withinRange_flying_iff (engine : Engine) (ranged : InZoomRange engine.camera.zoom)
    (target : FlyTo) (flying : engine.flyTo = some target) :
    WithinRange engine ↔ InZoomRange target.z := by
  refine ⟨fun within => (within.target target flying).1, fun arrives => ⟨ranged, ?_⟩⟩
  intro other same
  obtain rfl : target = other := Option.some.inj (flying.symm.trans same)
  exact ⟨arrives, _, arrives, settled_at engine target⟩

/-- An event leads out of the range exactly if it is a fit without room. -/
theorem Ranged.step_iff (ranged : engine.Ranged) (event : CameraEvent) :
    WithinRange (engine.step event) ↔ HasRoom engine event := by
  cases event with
  | frame => exact iff_of_true ranged.animCamera.toWithinRange trivial
  | pan shift => exact iff_of_true ⟨ranged.zoom, ranged.target⟩ trivial
  | zoomAt screen factor => exact iff_of_true ⟨ranged.zoom, nofun⟩ trivial
  | resize width height => exact iff_of_true ⟨ranged.zoom, ranged.target⟩ trivial
  | fitToContent nodes padding immediate =>
      cases nodes with
      | nil => exact iff_of_true ranged.toWithinRange trivial
      | cons node nodes =>
          rw [← fit_inRange_iff engine node nodes padding immediate]
          cases immediate with
          | true => exact ⟨fun within => within.zoom, fun fits => ⟨fits, nofun⟩⟩
          | false =>
              exact withinRange_flying_iff (engine.fitToContent (node :: nodes) padding false)
                ranged.zoom _ rfl

/-- What stays within the range keeps its targets there. -/
theorem Ranged.step (ranged : engine.Ranged) (event : CameraEvent)
    (within : WithinRange (engine.step event)) : (engine.step event).Ranged := by
  refine ⟨within, ?_⟩
  cases event with
  | frame => exact ranged.animCamera.tz
  | pan shift | resize width height => exact ranged.tz
  | zoomAt screen factor => exact clampZoom_inRange _
  | fitToContent nodes padding immediate =>
      cases nodes with
      | nil => exact ranged.tz
      | cons node nodes =>
          cases immediate with
          | true => exact within.zoom
          | false => exact (within.target _ rfl).1

end Engine

/-- The zoom stays in its range and every flight can end, in every state of a run,
exactly if the cards have room in every fit of the run. -/
theorem withinRange_iff_hasRoom (width height : ℚ) {view : Camera}
    (ranged : InZoomRange view.zoom) (events : List CameraEvent) :
    EveryState camera WithinRange (.opened width height view) events ↔
      EveryStepAllowed camera HasRoom (.opened width height view) events :=
  everyState_iff_everyStepAllowed
    (fun _ (ranged : Engine.Ranged _) => ranged.toWithinRange)
    (fun engine event next ranged taken => by
      cases taken
      exact ranged.step_iff event)
    (fun engine event next ranged taken within => by
      cases taken
      exact ranged.step event within)
    ⟨⟨ranged, by simp [Engine.opened]⟩, one_inRange⟩ events

/-- A card and a picture far away, in a viewport of 800 by 600. -/
def scattered (distance : ℚ) : List NodeBox := [⟨0, 0, 240, 160⟩, ⟨distance, 0, 240, 160⟩]

/-- Cards near each other are fitted, zoomed at and shown. -/
theorem withinRange_scattered :
    EveryState camera WithinRange (.opened 800 600 ⟨0, 0, 2⟩)
        [.fitToContent (scattered 500) 80 false, .frame, .zoomAt ⟨0, 0⟩ 100, .frame] ↔
      EveryStepAllowed camera HasRoom (.opened 800 600 ⟨0, 0, 2⟩)
        [.fitToContent (scattered 500) 80 false, .frame, .zoomAt ⟨0, 0⟩ 100, .frame] :=
  withinRange_iff_hasRoom 800 600 (by decide +kernel) _

/-- In a viewport without room beside the padding a fit mirrors the board. -/
theorem narrow_fit_mirrors :
    ¬ ∀ (width height : ℚ) (view : Camera) (events : List CameraEvent),
      InZoomRange view.zoom → EveryState camera WithinRange (.opened width height view) events := by
  intro always
  have within := (always 100 600 ⟨0, 0, 1⟩ [.fitToContent (scattered 500) 80 true]
    (by decide +kernel)).2.zoom
  revert within
  decide +kernel

end Board
end MindMapVault
