import MindMapVault.Board.Camera

/-!
# A saved view, and the point a zoom is about

Opening a board writes the saved view into the camera and leaves the target of the
spring at one. So the first frame moves the camera unless the saved zoom is one, and a
board comes back as it was left exactly if it was left there or no frame comes before
the first zoom or fit. From the first zoom on the camera agrees with the focal point
that is remembered, or rests at its target after a flight, and frames keep the point.
-/

namespace MindMapVault
namespace Board

open Transition

/-- By how much the pans among some events move the camera. -/
def panned : List CameraEvent → Position
  | [] => ⟨0, 0⟩
  | .pan shift :: events => ⟨shift.x + (panned events).x, shift.y + (panned events).y⟩
  | _ :: events => panned events

/-- A zoom. -/
def CameraEvent.isZoom : CameraEvent → Bool
  | .zoomAt .. => true
  | _ => false

/-- A fit. -/
def CameraEvent.isFit : CameraEvent → Bool
  | .fitToContent .. => true
  | _ => false

/-- Until the first zoom or fit, the camera is the saved view moved by the pans. -/
def Undisturbed (start : Engine) (past : List CameraEvent) : Prop :=
  (∀ event ∈ past, event.isZoom = false ∧ event.isFit = false) →
    (start.run past).camera =
      { start.camera with
        x := start.camera.x + (panned past).x
        y := start.camera.y + (panned past).y }

/-- Without a flight in progress, a frame keeps the point of the board last zoomed at
where it is on the screen; and if nothing has been fitted since, that is where it was,
moved by the pans. -/
def Anchored (start : Engine) (past : List CameraEvent) : Prop :=
  ∀ before screen factor since, past = before ++ .zoomAt screen factor :: since →
    (∀ event ∈ since, event.isZoom = false) → (start.run past).flyTo = none →
      let world := (start.run before).camera.screenToWorld screen
      let here := (start.run past).camera.worldToScreen world
      (start.run past).animCamera.camera.worldToScreen world = here ∧
        ((∀ event ∈ since, event.isFit = false) →
          here = ⟨screen.x + (panned since).x, screen.y + (panned since).y⟩)

/-- Both, in every state of a run. -/
def KeepsView (start : Engine) (events : List CameraEvent) : Prop :=
  ∀ past, past <+: events → Undisturbed start past ∧ Anchored start past

/-- Every zoom of a run is where the camera's zoom can be divided by. -/
def ZoomsDefined (start : Engine) (events : List CameraEvent) : Prop :=
  EveryStepAllowed camera
    (fun engine event => event.isZoom = true → engine.camera.zoom ≠ 0) start events

instance (start : Engine) (events : List CameraEvent) :
    Decidable (ZoomsDefined start events) :=
  inferInstanceAs (Decidable (EveryStepAllowed _ _ _ _))

/-- No frame comes before the first zoom or fit. -/
def FramesLater (events : List CameraEvent) : Prop :=
  ∀ past, past ++ [.frame] <+: events → ∃ event ∈ past, event.isZoom = true ∨ event.isFit = true

namespace Engine

/-- The camera agrees with the focal point. -/
def Aligned (engine : Engine) : Prop := engine.camera = engine.focused engine.camera.zoom

/-- The zoom is at its target. -/
def Resting (engine : Engine) : Prop := engine.tz = engine.camera.zoom ∧ engine.tzv = 0

/-- Without a flight in progress, a frame has nothing to correct. -/
def Coherent (engine : Engine) : Prop := engine.flyTo = none → engine.Aligned ∨ engine.Resting

section Run

variable (engine : Engine) (event : CameraEvent) (events : List CameraEvent)

theorem step_frame : engine.step .frame = engine.animCamera := rfl

@[simp] theorem run_nil : engine.run [] = engine := rfl

@[simp] theorem run_cons : engine.run (event :: events) = (engine.step event).run events :=
  rfl

@[simp] theorem run_append (others : List CameraEvent) :
    engine.run (events ++ others) = (engine.run events).run others :=
  List.foldl_append ..

end Run

section Frame

variable {engine : Engine}

/-- At rest a frame changes nothing. -/
theorem animCamera_of_resting (landed : engine.flyTo = none) (resting : engine.Resting) :
    engine.animCamera = engine := by
  obtain ⟨there, still⟩ := resting
  have close : |engine.tz - engine.camera.zoom| < 1 / 25000 ∧ |engine.tzv| < 1 / 25000 := by
    rw [there, still]
    norm_num
  simp only [animCamera, landed]
  rw [if_pos close, if_neg (by simp [there]), ← still, ← landed]

/-- Away from its target, from rest, a frame changes the zoom. -/
theorem animCamera_zoom_ne (landed : engine.flyTo = none) (still : engine.tzv = 0)
    (target : engine.tz = 1) (away : engine.camera.zoom ≠ 1)
    (ranged : InZoomRange engine.camera.zoom) :
    engine.animCamera.camera.zoom ≠ engine.camera.zoom := by
  simp only [animCamera, landed, target, still]
  obtain ⟨least, largest⟩ := ranged
  split_ifs with near
  · exact away.symm
  · -- the spring goes some of the way, and the clamp leaves it there
    simp only [focused, spring, clampZoom]
    rcases lt_or_gt_of_ne away with below | above
    · rw [min_eq_right (by linarith), max_eq_right (by linarith)]
      exact fun same => away (by linarith)
    · rw [min_eq_right (by linarith), max_eq_right (by linarith)]
      exact fun same => away (by linarith)

/-- A frame of a zoom aligns the camera. -/
theorem animCamera_camera (landed : engine.flyTo = none) :
    engine.animCamera = { engine with tzv := 0 } ∨
      ∃ zoom tzv, engine.animCamera =
        { engine with camera := engine.focused zoom, tzv := tzv } := by
  simp only [animCamera, landed]
  split_ifs
  · exact .inr ⟨_, _, rfl⟩
  · exact .inl rfl
  · exact .inr ⟨_, _, rfl⟩

/-- A frame of an aligned camera leaves it aligned. -/
theorem Aligned.animCamera (aligned : engine.Aligned) (landed : engine.flyTo = none) :
    engine.animCamera.Aligned := by
  rcases animCamera_camera landed with same | ⟨zoom, tzv, moved⟩
  · rw [same]
    exact aligned
  · rw [moved]
    rfl

/-- A pan moves the camera and the focal point together. -/
theorem Aligned.pan (aligned : engine.Aligned) (shift : Position) :
    (engine.pan shift).Aligned := by
  have x := congrArg Camera.x aligned
  have y := congrArg Camera.y aligned
  simp only [focused] at x y
  simp only [Aligned, Engine.pan, focused, Camera.mk.injEq, and_true]
  constructor <;> linarith

/-- A zoom aligns the camera with the point it is about. -/
theorem zoomAt_aligned (divides : engine.camera.zoom ≠ 0) (screen : Position)
    (factor : ℚ) : (engine.zoomAt screen factor).Aligned := by
  have cancel : ∀ away : ℚ, away / engine.camera.zoom * engine.camera.zoom = away :=
    fun away => div_mul_cancel₀ away divides
  simp only [Aligned, zoomAt, focused, Camera.screenToWorld, cancel, sub_sub_cancel]

/-- Where the camera is aligned, the focal point is where it is remembered. -/
theorem Aligned.worldToScreen (aligned : engine.Aligned) :
    engine.camera.worldToScreen ⟨engine.zfx, engine.zfy⟩ = ⟨engine.zsx, engine.zsy⟩ := by
  rw [aligned]
  simp only [focused, Camera.worldToScreen, Position.mk.injEq]
  constructor <;> ring

end Frame

section Steps

variable {engine : Engine}

/-- Every event leaves the camera coherent, a zoom where it can divide. -/
theorem Coherent.step (coherent : engine.Coherent) (event : CameraEvent)
    (defined : event.isZoom = true → engine.camera.zoom ≠ 0) :
    (engine.step event).Coherent := by
  cases event with
  | frame =>
      cases target : engine.flyTo with
      | none =>
          refine fun _ => (coherent target).imp (·.animCamera target) fun resting => ?_
          rw [step_frame, animCamera_of_resting target resting]
          exact resting
      | some target =>
          simp only [Coherent, Engine.step, animCamera, target, flown]
          split_ifs
          · exact fun _ => .inr ⟨rfl, rfl⟩
          · exact nofun
  | pan shift =>
      exact fun landed => (coherent landed).imp (·.pan shift) id
  | zoomAt screen factor => exact fun _ => .inl (zoomAt_aligned (defined rfl) screen factor)
  | fitToContent nodes padding immediate =>
      cases nodes with
      | nil => exact coherent
      | cons node nodes =>
          cases immediate with
          | false => exact nofun
          | true => exact fun _ => .inr ⟨rfl, rfl⟩
  | resize width height => exact coherent

/-- Only a zoom changes the point that is remembered on the board. -/
theorem step_focus (event : CameraEvent) (other : event.isZoom = false) :
    (engine.step event).zfx = engine.zfx ∧ (engine.step event).zfy = engine.zfy := by
  cases event with
  | frame =>
      cases target : engine.flyTo with
      | none =>
          rw [step_frame]
          rcases animCamera_camera target with same | ⟨zoom, tzv, moved⟩
          · rw [same]
            exact ⟨rfl, rfl⟩
          · rw [moved]
            exact ⟨rfl, rfl⟩
      | some target =>
          simp only [Engine.step, animCamera, target, flown]
          split_ifs
          · exact ⟨rfl, rfl⟩
          · exact ⟨rfl, rfl⟩
  | zoomAt screen factor => exact nomatch other
  | fitToContent nodes padding immediate =>
      cases nodes <;> cases immediate <;> exact ⟨rfl, rfl⟩
  | pan shift | resize width height => exact ⟨rfl, rfl⟩

/-- Before the next zoom or fit an event keeps the camera aligned, and moves the focal
point on the screen by a pan. -/
theorem Aligned.step (aligned : engine.Aligned) (landed : engine.flyTo = none)
    (event : CameraEvent) (noZoom : event.isZoom = false) (noFit : event.isFit = false) :
    (engine.step event).Aligned ∧ (engine.step event).flyTo = none ∧
      (engine.step event).zsx = engine.zsx + (panned [event]).x ∧
        (engine.step event).zsy = engine.zsy + (panned [event]).y := by
  cases event with
  | frame =>
      refine ⟨aligned.animCamera landed, ?_⟩
      rw [step_frame]
      rcases animCamera_camera landed with same | ⟨zoom, tzv, moved⟩
      · simp [same, landed, panned]
      · simp [moved, landed, panned]
  | pan shift =>
      exact ⟨aligned.pan shift, landed, by simp [Engine.step, Engine.pan, panned],
        by simp [Engine.step, Engine.pan, panned]⟩
  | zoomAt screen factor => exact nomatch noZoom
  | fitToContent nodes padding immediate => exact nomatch noFit
  | resize width height => exact ⟨aligned, landed, by simp [Engine.step, panned],
      by simp [Engine.step, panned]⟩

end Steps

section Runs

variable {engine : Engine} {events : List CameraEvent}

theorem panned_cons (event : CameraEvent) (events : List CameraEvent) :
    panned (event :: events) =
      ⟨(panned [event]).x + (panned events).x, (panned [event]).y + (panned events).y⟩ := by
  cases event <;> simp [panned]

/-- Only zooms change the point that is remembered on the board. -/
theorem run_focus (engine : Engine) (others : ∀ event ∈ events, event.isZoom = false) :
    (engine.run events).zfx = engine.zfx ∧ (engine.run events).zfy = engine.zfy := by
  induction events generalizing engine with
  | nil => exact ⟨rfl, rfl⟩
  | cons event events ih =>
      obtain ⟨first, rest⟩ := List.forall_mem_cons.mp others
      obtain ⟨x, y⟩ := ih (engine.step event) rest
      obtain ⟨stepX, stepY⟩ := step_focus event first
      exact ⟨x.trans stepX, y.trans stepY⟩

/-- A run without zooms leaves the camera coherent. -/
theorem Coherent.run (coherent : engine.Coherent)
    (others : ∀ event ∈ events, event.isZoom = false) : (engine.run events).Coherent := by
  induction events generalizing engine with
  | nil => exact coherent
  | cons event events ih =>
      obtain ⟨first, rest⟩ := List.forall_mem_cons.mp others
      exact ih (coherent.step event fun zooms => absurd zooms (by simp [first])) rest

/-- Until the next zoom or fit the camera stays aligned, with the focal point moved by
the pans. -/
theorem Aligned.run (aligned : engine.Aligned) (landed : engine.flyTo = none)
    (noZoom : ∀ event ∈ events, event.isZoom = false)
    (noFit : ∀ event ∈ events, event.isFit = false) :
    (engine.run events).Aligned ∧
      (engine.run events).zsx = engine.zsx + (panned events).x ∧
        (engine.run events).zsy = engine.zsy + (panned events).y := by
  induction events generalizing engine with
  | nil => exact ⟨aligned, by simp [panned], by simp [panned]⟩
  | cons event events ih =>
      obtain ⟨zoomless, noZoom⟩ := List.forall_mem_cons.mp noZoom
      obtain ⟨fitless, noFit⟩ := List.forall_mem_cons.mp noFit
      obtain ⟨still, stillLanded, stepX, stepY⟩ := aligned.step landed event zoomless fitless
      obtain ⟨after, x, y⟩ := ih still stillLanded noZoom noFit
      rw [panned_cons]
      refine ⟨after, ?_, ?_⟩
      · rw [run_cons, x, stepX, add_assoc]
      · rw [run_cons, y, stepY, add_assoc]

/-- While nothing is zoomed or fitted, and the zoom rests or no frame comes, the camera
is only moved by the pans. -/
theorem run_undisturbed (engine : Engine) (landed : engine.flyTo = none)
    (untouched : ∀ event ∈ events, event.isZoom = false ∧ event.isFit = false)
    (quiet : engine.Resting ∨ .frame ∉ events) :
    (engine.run events).camera = { engine.camera with
        x := engine.camera.x + (panned events).x
        y := engine.camera.y + (panned events).y } ∧
      (engine.run events).tz = engine.tz ∧ (engine.run events).tzv = engine.tzv ∧
        (engine.run events).flyTo = none := by
  induction events generalizing engine with
  | nil => exact ⟨by simp [panned], rfl, rfl, landed⟩
  | cons event events ih =>
      obtain ⟨⟨noZoom, noFit⟩, rest⟩ := List.forall_mem_cons.mp untouched
      rw [run_cons]
      cases event with
      | frame =>
          have resting := quiet.resolve_right fun absent => absent (List.mem_cons_self ..)
          rw [step_frame, animCamera_of_resting landed resting]
          exact ih _ landed rest (.inl resting)
      | pan shift =>
          have later : (engine.pan shift).Resting ∨ .frame ∉ events :=
            quiet.imp id fun absent => List.not_mem_of_not_mem_cons absent
          obtain ⟨camera, targets⟩ := ih (engine.pan shift) landed rest later
          refine ⟨?_, targets⟩
          rw [Engine.step, camera]
          simp only [pan, panned, add_assoc]
      | zoomAt screen factor => exact nomatch noZoom
      | fitToContent nodes padding immediate => exact nomatch noFit
      | resize width height =>
          have later : (engine.step (.resize width height)).Resting ∨ .frame ∉ events :=
            quiet.imp id fun absent => List.not_mem_of_not_mem_cons absent
          exact ih _ landed rest later

end Runs

end Engine

/-- A zoom on the way is where it can divide. -/
theorem ZoomsDefined.divides {start : Engine} {before since : List CameraEvent}
    {screen : Position} {factor : ℚ}
    (defined : ZoomsDefined start (before ++ .zoomAt screen factor :: since)) :
    (start.run before).camera.zoom ≠ 0 := by
  induction before generalizing start with
  | nil => exact defined.1 rfl
  | cons event before ih => exact ih defined.2

/-- The point last zoomed at is kept, whatever the board was opened with. -/
theorem anchored {start : Engine} {events past : List CameraEvent}
    (defined : ZoomsDefined start events) (reached : past <+: events) :
    Anchored start past := by
  rintro before screen factor since rfl noZoom landed
  obtain ⟨after, rfl⟩ := reached
  rw [List.append_assoc, List.cons_append] at defined
  have divides := defined.divides
  rw [Engine.run_append, Engine.run_cons] at landed ⊢
  have aligned := Engine.zoomAt_aligned divides screen factor
  generalize inView : (start.run before).camera.screenToWorld screen = world
  obtain ⟨focusX, focusY⟩ := ((start.run before).zoomAt screen factor).run_focus noZoom
  have focus : world = ⟨(((start.run before).zoomAt screen factor).run since).zfx,
      (((start.run before).zoomAt screen factor).run since).zfy⟩ := by
    rw [focusX, focusY, ← inView]
    rfl
  have coherent : (((start.run before).zoomAt screen factor).run since).Coherent :=
    Engine.Coherent.run (fun _ => .inl aligned) noZoom
  have kept : ∀ engine : Engine, engine.flyTo = none → engine.Coherent →
      engine.animCamera.camera.worldToScreen ⟨engine.zfx, engine.zfy⟩ =
        engine.camera.worldToScreen ⟨engine.zfx, engine.zfy⟩ := by
    intro engine landed coherent
    rcases coherent landed with aligned | resting
    · have after := aligned.animCamera landed
      rcases Engine.animCamera_camera landed with same | ⟨zoom, tzv, moved⟩
      · rw [same]
      · rw [moved] at after ⊢
        exact after.worldToScreen.trans aligned.worldToScreen.symm
    · rw [Engine.animCamera_of_resting landed resting]
  refine ⟨?_, fun noFit => ?_⟩
  · rw [focus]
    exact kept _ landed coherent
  · obtain ⟨still, x, y⟩ := aligned.run rfl noZoom noFit
    rw [focus]
    exact still.worldToScreen.trans (by rw [x, y]; rfl)

/-- A view comes back and stays as it was left exactly if it was left at the zoom one,
or no frame comes before the first zoom or fit. The point last zoomed at is kept in any
case. -/
theorem keepsView_iff {width height : ℚ} {view : Camera} {events : List CameraEvent}
    (ranged : InZoomRange view.zoom) (defined : ZoomsDefined (.opened width height view) events) :
    KeepsView (.opened width height view) events ↔ view.zoom = 1 ∨ FramesLater events := by
  constructor
  · intro keeps
    by_contra disturbed
    obtain ⟨zoomed, early⟩ := not_or.mp disturbed
    simp only [FramesLater, not_forall] at early
    obtain ⟨past, reached, untouched⟩ := early
    obtain ⟨before, after, split, first⟩ :=
      List.eq_append_cons_of_mem (List.mem_append_right past (List.mem_singleton.mpr rfl))
    have untouchedBefore : ∀ event ∈ before,
        event.isZoom = false ∧ event.isFit = false := by
      intro event present
      have among : event ∈ past ++ [.frame] := split ▸ List.mem_append_left _ present
      rcases List.mem_append.mp among with earlier | last
      · simpa using fun touches => untouched ⟨event, earlier, touches⟩
      · rw [List.mem_singleton.mp last]
        exact ⟨rfl, rfl⟩
    obtain ⟨camera, tz, tzv, landed⟩ :=
      (Engine.opened width height view).run_undisturbed rfl untouchedBefore (.inr first)
    have zoom : ((Engine.opened width height view).run before).camera.zoom = view.zoom := by
      rw [camera]
      rfl
    refine Engine.animCamera_zoom_ne landed tzv tz (zoom ▸ zoomed) (zoom ▸ ranged) ?_
    have reachedFrame : before ++ [.frame] <+: events := by
      refine List.IsPrefix.trans ?_ reached
      rw [split]
      exact ⟨after, by simp⟩
    have same := congrArg Camera.zoom ((keeps _ reachedFrame).1 fun event present => by
      rcases List.mem_append.mp present with earlier | last
      · exact untouchedBefore event earlier
      · rw [List.mem_singleton.mp last]
        exact ⟨rfl, rfl⟩)
    rw [Engine.run_append] at same
    exact same.trans zoom.symm
  · intro quiet past reached
    refine ⟨fun untouched => ?_, anchored defined reached⟩
    refine (Engine.run_undisturbed _ rfl untouched ?_).1
    refine quiet.imp (fun one => ⟨one.symm, rfl⟩) fun later present => ?_
    obtain ⟨before, after, rfl⟩ := List.append_of_mem present
    obtain ⟨event, early, touches⟩ := later before
      (((List.prefix_append (before ++ [.frame]) after).trans (by simp)).trans reached)
    obtain ⟨noZoom, noFit⟩ := untouched event (List.mem_append_left _ early)
    simp [noZoom, noFit] at touches

/-- A view at the zoom one is panned after a frame, zoomed and panned again. -/
theorem keepsView_atOne :
    KeepsView (.opened 800 600 ⟨40, 20, 1⟩)
        [.frame, .pan ⟨5, 0⟩, .zoomAt ⟨400, 300⟩ 2, .frame, .pan ⟨0, 7⟩] ↔
      (1 : ℚ) = 1 ∨ FramesLater
        [.frame, .pan ⟨5, 0⟩, .zoomAt ⟨400, 300⟩ 2, .frame, .pan ⟨0, 7⟩] := by
  exact keepsView_iff (by decide +kernel) (by decide +kernel)

/-- A board left at twice its size is not shown as it was left. -/
theorem saved_zoom_drifts :
    ¬ ∀ (width height : ℚ) (view : Camera) (events : List CameraEvent),
      InZoomRange view.zoom → KeepsView (.opened width height view) events := by
  intro always
  have keeps := always 800 600 ⟨40, 20, 2⟩ [.frame] (by decide +kernel)
    [.frame] (List.prefix_refl _)
  have same := congrArg Camera.zoom (keeps.1 (by simp [CameraEvent.isZoom, CameraEvent.isFit]))
  revert same
  decide +kernel

end Board
end MindMapVault
