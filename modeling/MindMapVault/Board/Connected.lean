import MindMapVault.Board.Interaction
import Mathlib.Data.List.Nodup
import Mathlib.Data.List.Perm.Basic

/-!
# Connections join two cards, and two cards once

The cards of a board have ids of their own, and every connection is between two of them
that no other connects. The scene keeps this; a click does as long as the card that the
connection was started at is still there.
-/

namespace MindMapVault
namespace Board

open Transition

/-- What holds of the ids of the cards and the connections. -/
structure Linked (ids : List String) (connections : List BoardConnection) : Prop where
  distinct : ids.Nodup
  ends : ∀ connection ∈ connections, connection.sourceId ∈ ids ∧
    connection.targetId ∈ ids ∧ connection.sourceId ≠ connection.targetId
  once : connections.Pairwise fun first second =>
    second.joins first.sourceId first.targetId = false

/-- What holds of a board. -/
def WellFormed (scene : Scene) : Prop := Linked scene.ids scene.connections

section Linked

variable {ids : List String} {connections : List BoardConnection}

/-- The order of the cards does not matter. -/
theorem Linked.of_perm (linked : Linked ids connections) {other : List String}
    (same : other.Perm ids) : Linked other connections := by
  refine ⟨same.nodup_iff.mpr linked.distinct, fun connection listed => ?_, linked.once⟩
  obtain ⟨source, target, apart⟩ := linked.ends connection listed
  exact ⟨same.mem_iff.mpr source, same.mem_iff.mpr target, apart⟩

/-- Connections may go. -/
theorem Linked.of_sublist (linked : Linked ids connections) {fewer : List BoardConnection}
    (kept : fewer.Sublist connections) : Linked ids fewer :=
  ⟨linked.distinct, fun connection listed => linked.ends connection (kept.subset listed),
    linked.once.sublist kept⟩

/-- A new card has no connection. -/
theorem Linked.add (linked : Linked ids connections) {id : String} (new : id ∉ ids) :
    Linked (ids ++ [id]) connections := by
  refine ⟨?_, fun connection listed => ?_, linked.once⟩
  · rw [List.nodup_append_comm, List.singleton_append, List.nodup_cons]
    exact ⟨new, linked.distinct⟩
  · obtain ⟨source, target, apart⟩ := linked.ends connection listed
    exact ⟨List.mem_append_left _ source, List.mem_append_left _ target, apart⟩

/-- A card that goes takes its connections along. -/
theorem Linked.remove (linked : Linked ids connections) (id : String) :
    Linked (ids.filter (· != id)) (connections.filter fun connection =>
      connection.sourceId != id && connection.targetId != id) := by
  refine ⟨linked.distinct.filter _, fun connection listed => ?_,
    linked.once.sublist List.filter_sublist⟩
  obtain ⟨present, others⟩ := List.mem_filter.mp listed
  obtain ⟨source, target, apart⟩ := linked.ends connection present
  obtain ⟨notSource, notTarget⟩ := Bool.and_eq_true_iff.mp others
  exact ⟨List.mem_filter.mpr ⟨source, notSource⟩, List.mem_filter.mpr ⟨target, notTarget⟩, apart⟩

/-- A connection between two cards that are not connected. -/
theorem Linked.connect (linked : Linked ids connections) {connection : BoardConnection}
    (source : connection.sourceId ∈ ids) (target : connection.targetId ∈ ids)
    (apart : connection.sourceId ≠ connection.targetId)
    (new : ∀ other ∈ connections, other.joins connection.sourceId connection.targetId = false) :
    Linked ids (connections ++ [connection]) := by
  refine ⟨linked.distinct, fun other listed => ?_, ?_⟩
  · rcases List.mem_append.mp listed with old | last
    · exact linked.ends other old
    · rw [List.mem_singleton.mp last]
      exact ⟨source, target, apart⟩
  · refine List.pairwise_append.mpr ⟨linked.once, List.pairwise_singleton _ _, ?_⟩
    intro other listed last isLast
    have free := new other listed
    rw [List.mem_singleton.mp isLast]
    simp only [BoardConnection.joins, Bool.or_eq_false_iff, Bool.and_eq_false_iff,
      beq_eq_false_iff_ne, ne_eq] at free ⊢
    grind

end Linked

namespace Scene

variable {scene : Scene}

/-- Cards that change and keep their ids. -/
theorem ids_map {change : BoardNodeObj → BoardNodeObj} (keeps : ∀ node, (change node).id = node.id)
    (nodes : List BoardNodeObj) :
    (nodes.map change).map BoardNodeObj.id = nodes.map BoardNodeObj.id := by
  rw [List.map_map]
  exact List.map_congr_left fun node _ => keeps node

theorem ids_clearSelection : scene.clearSelection.ids = scene.ids := by
  have keeps (node : BoardNodeObj) : node.unselected.id = node.id := rfl
  exact ids_map keeps scene.nodes

theorem ids_selectInRect (x1 y1 x2 y2 : Int) :
    (scene.selectInRect x1 y1 x2 y2).ids = scene.ids := by
  refine ids_map (fun node => ?_) scene.nodes
  split_ifs <;> rfl

theorem ids_modify {change : BoardNodeObj → BoardNodeObj}
    (keeps : ∀ node, (change node).id = node.id) (nodeId : String) :
    (scene.modify nodeId change).ids = scene.ids := by
  refine ids_map (fun node => ?_) scene.nodes
  split_ifs
  · exact keeps node
  · rfl

/-- The same cards in another order, one of them last. -/
theorem ids_bringToFront {node : BoardNodeObj} (distinct : scene.ids.Nodup)
    (present : node ∈ scene.nodes) : (scene.bringToFront node).ids.Perm scene.ids := by
  have others : ((scene.nodes.filter fun other => other.id != node.id).map BoardNodeObj.id) =
      scene.ids.filter (· != node.id) := by
    rw [ids, List.filter_map]
    rfl
  have listed : node.id ∈ scene.ids := List.mem_map_of_mem present
  rw [bringToFront, ids, List.map_append, others, List.map_singleton]
  have front := (List.perm_cons_erase listed).symm
  rw [distinct.erase_eq_filter] at front
  exact List.perm_append_comm.trans front

theorem wellFormed_of_ids {other : Scene} (wellFormed : WellFormed scene)
    (ids : other.ids = scene.ids) (connections : other.connections = scene.connections) :
    WellFormed other := by
  rw [WellFormed, ids, connections]
  exact wellFormed

/-- Cards that change and keep their ids keep their connections. -/
theorem wellFormed_modify (wellFormed : WellFormed scene) (nodeId : String)
    {change : BoardNodeObj → BoardNodeObj} (keeps : ∀ node, (change node).id = node.id) :
    WellFormed (scene.modify nodeId change) :=
  wellFormed_of_ids wellFormed (ids_modify keeps nodeId) rfl

theorem wellFormed_remove (wellFormed : WellFormed scene) (nodeId : String) :
    WellFormed (scene.remove nodeId) := by
  have linked := Linked.remove wellFormed nodeId
  rw [ids, List.filter_map] at linked
  exact linked

theorem wellFormed_deleteSelected (wellFormed : WellFormed scene) :
    WellFormed scene.deleteSelected := by
  unfold deleteSelected
  generalize scene.getSelected = nodes
  induction nodes generalizing scene with
  | nil => exact wellFormed
  | cons node nodes ih =>
      exact ih (wellFormed_remove wellFormed node.id)

theorem wellFormed_connect (wellFormed : WellFormed scene) {srcId tgtId : String}
    (source : srcId ∈ scene.ids) (target : tgtId ∈ scene.ids) (apart : srcId ≠ tgtId)
    (color : Option String) (label connId : String) :
    WellFormed (scene.connect srcId tgtId color label connId) := by
  unfold connect
  split_ifs with connected
  · exact wellFormed
  · have new : ∀ other ∈ scene.connections, other.joins srcId tgtId = false := by
      intro other listed
      exact Bool.eq_false_iff.mpr fun joins =>
        connected (List.any_eq_true.mpr ⟨other, listed, joins⟩)
    cases color with
    | some color => exact Linked.connect wellFormed source target apart new
    | none => exact Linked.connect wellFormed source target apart new

theorem wellFormed_bringToFront (wellFormed : WellFormed scene) {node : BoardNodeObj}
    (present : node ∈ scene.nodes) : WellFormed (scene.bringToFront node) :=
  Linked.of_perm wellFormed (ids_bringToFront wellFormed.distinct present)

theorem mem_of_hitTestNode {wx wy : Int} {node : BoardNodeObj}
    (hit : scene.hitTestNode wx wy = some node) : node ∈ scene.nodes :=
  List.mem_reverse.mp (List.mem_of_find?_eq_some hit)

end Scene

namespace Interaction

variable {board next : Interaction} {event : BoardEvent}

theorem mem_of_hit {event : MouseEvent} {node : BoardNodeObj}
    (hit : board.hit event = some node) : node ∈ board.scene.nodes :=
  Scene.mem_of_hitTestNode hit

theorem scene_setTool (tool : BoardTool) : (board.setTool tool).scene = board.scene := by
  unfold setTool
  split_ifs <;> rfl

/-- A click that connects, or does not. -/
theorem wellFormed_downConnect (wellFormed : WellFormed board.scene) {event : MouseEvent}
    (sound : (board.hit event).isSome → ∀ src ∈ board.connSrc, src ∈ board.scene.ids) :
    WellFormed (board.downConnect event).scene := by
  unfold downConnect
  split
  case h_1 => exact wellFormed
  case h_2 hit under =>
    split
    case h_1 => exact wellFormed
    case h_2 src source =>
      split_ifs with apart
      · have present : src ∈ board.scene.ids := by
          refine sound ?_ src source
          rw [under]
          rfl
        exact Scene.wellFormed_connect wellFormed present
          (List.mem_map_of_mem (mem_of_hit under)) (Ne.symm apart) _ _ _
      · exact wellFormed

/-- A card that is clicked stays, and so do the others. -/
theorem wellFormed_downOnCard (wellFormed : WellFormed board.scene) (event : MouseEvent)
    {hit : BoardNodeObj} (present : hit ∈ board.scene.nodes) :
    WellFormed (board.downOnCard event hit).scene := by
  have front := Scene.wellFormed_bringToFront wellFormed present
  have cleared : WellFormed (if !event.shiftKey && !hit.selected then
      (board.scene.bringToFront hit).clearSelection else board.scene.bringToFront hit) := by
    split_ifs
    · exact Scene.wellFormed_of_ids front Scene.ids_clearSelection rfl
    · exact front
  apply Scene.wellFormed_modify cleared hit.id
  intro node
  rfl

theorem wellFormed_down (wellFormed : WellFormed board.scene) {event : MouseEvent}
    (sound : ∀ src ∈ board.connectsFrom event, src ∈ board.scene.ids) :
    WellFormed (board.down event).scene := by
  unfold down
  split_ifs with pans button connects tool
  · exact wellFormed
  · exact wellFormed
  · refine wellFormed_downConnect wellFormed fun under src source => sound src ?_
    rw [connectsFrom, if_pos ⟨Bool.eq_false_iff.mpr pans, not_not.mp button, connects, under⟩]
    exact source
  all_goals
    split
    case h_1 hit under => exact wellFormed_downOnCard wellFormed event (mem_of_hit under)
  · rw [scene_setTool]
    exact wellFormed
  · exact Scene.wellFormed_of_ids wellFormed Scene.ids_clearSelection rfl

theorem wellFormed_move (wellFormed : WellFormed board.scene) (event : MouseEvent) :
    WellFormed (board.move event).scene := by
  unfold move
  cases board.state with
  | dragging =>
      simp only
      generalize board.scene = scene at wellFormed
      induction board.dragItems generalizing scene with
      | nil => exact wellFormed
      | cons item items ih =>
          apply ih
          apply Scene.wellFormed_modify wellFormed item.nodeId
          intro node
          rfl
  | idle | panning | boxSelect | connecting => exact wellFormed

theorem wellFormed_up (wellFormed : WellFormed board.scene) (event : MouseEvent) :
    WellFormed (board.up event).scene := by
  unfold up sceneUp
  split
  · exact Scene.wellFormed_of_ids wellFormed (Scene.ids_selectInRect _ _ _ _) rfl
  · exact wellFormed

theorem wellFormed_keyDown (wellFormed : WellFormed board.scene) (event : KeyEvent) :
    WellFormed (board.keyDown event).scene := by
  unfold keyDown
  split_ifs
  · exact wellFormed
  · exact wellFormed
  · exact Scene.wellFormed_deleteSelected wellFormed
  · rw [scene_setTool]
    exact Scene.wellFormed_of_ids wellFormed Scene.ids_clearSelection rfl
  · split
    · rw [scene_setTool]
      exact wellFormed
    · exact wellFormed

/-- What one event keeps. -/
theorem wellFormed_step (wellFormed : WellFormed board.scene) (sound : board.Sound event)
    (taken : system board event = some next) : WellFormed next.scene := by
  cases event with
  | down event =>
      cases taken
      exact wellFormed_down wellFormed sound
  | move event =>
      cases taken
      exact wellFormed_move wellFormed event
  | up event =>
      cases taken
      exact wellFormed_up wellFormed event
  | keyDown event =>
      cases taken
      exact wellFormed_keyDown wellFormed event
  | keyUp code =>
      cases taken
      unfold keyUp
      split_ifs <;> exact wellFormed
  | setTool tool =>
      cases taken
      rw [scene_setTool]
      exact wellFormed
  | setConnColor color =>
      cases taken
      exact wellFormed
  | add node =>
      cases taken
      have linked := Linked.add wellFormed sound
      rw [WellFormed, Scene.add, Scene.ids, List.map_append]
      exact linked
  | duplicate node newId =>
      cases taken
      have linked := Linked.add wellFormed sound
      rw [WellFormed, Scene.duplicate, Scene.add, Scene.ids, List.map_append]
      exact linked
  | connect srcId tgtId color label connId =>
      obtain ⟨⟨source, target⟩, same⟩ := Option.ite_none_right_eq_some.mp taken
      cases same
      exact Scene.wellFormed_connect wellFormed source target sound color label connId
  | remove nodeId =>
      cases taken
      exact Scene.wellFormed_remove wellFormed nodeId
  | deleteSelected =>
      cases taken
      exact Scene.wellFormed_deleteSelected wellFormed
  | removeConnection index =>
      cases taken
      exact Linked.of_sublist wellFormed (List.eraseIdx_sublist _ _)
  | bringToFront nodeId =>
      obtain ⟨node, found, rfl⟩ := Option.map_eq_some_iff.mp taken
      exact Scene.wellFormed_bringToFront wellFormed (List.mem_of_find?_eq_some found)
  | clearSelection =>
      cases taken
      exact Scene.wellFormed_of_ids wellFormed Scene.ids_clearSelection rfl

/-- What is said of a board: its connections join two cards of it, two cards once, no two
cards have one id, and what is saved of it is loaded as it is. -/
def Holds (board : Interaction) : Prop :=
  WellFormed board.scene ∧ ∀ other : Scene,
    (other.loadData board.scene.toData).nodes =
        board.scene.nodes.map BoardNodeObj.unselected ∧
      (other.loadData board.scene.toData).connections = board.scene.connections

/-- In every run of a board in which new cards have new ids, the page connects two cards,
and a click connects cards that are both there. -/
theorem holds_of_sound {scene : Scene} (wellFormed : WellFormed scene)
    {events : List BoardEvent} (sound : EveryStepAllowed system Sound (start scene) events) :
    EveryState system Holds (start scene) events := by
  let invariant (board : Interaction) : Prop := WellFormed board.scene
  have preserved : ∀ board event next, invariant board → board.Sound event →
      system board event = some next → invariant next :=
    fun _ _ _ wellFormed sound taken => wellFormed_step wellFormed sound taken
  have implies : ∀ board, invariant board → Holds board :=
    fun board wellFormed => ⟨wellFormed, board.scene.loadData_toData⟩
  exact everyState_of_allowed preserved implies wellFormed sound

/-- Two cards side by side. -/
def twoCards : Scene where
  nodes :=
    [⟨"left", 0, 0, false, .card "Left" "" .default⟩,
      ⟨"right", 300, 0, false, .image "attachment:1" "Right" 200 180⟩]
  connections := []
  colorIdx := 0

/-- A click of the main button. -/
def click (x y : Int) (newId : String) : BoardEvent := .down ⟨0, false, ⟨x, y⟩, id, newId⟩

/-- A key without others. -/
def key (code : String) : BoardEvent := .keyDown ⟨code, false, false, false⟩

theorem wellFormed_twoCards : WellFormed twoCards := ⟨by decide, nofun, List.Pairwise.nil⟩

/-- The two cards are connected, and one is deleted and then duplicated. -/
theorem holds_of_sound_twoCards :
    WellFormed twoCards ∧
      EveryState system Holds (start twoCards)
        [key "KeyE", click 10 10 "c1", click 310 10 "c2", .remove "right",
          .duplicate ⟨"right", 300, 0, false, .card "Right" "" .default⟩ "copy",
          .connect "left" "copy" none "" "c3"] :=
  ⟨wellFormed_twoCards, holds_of_sound wellFormed_twoCards (by decide)⟩

/-- A card is selected, a connection started at it, and the card deleted; the next click
connects what is gone. -/
theorem connects_deleted_card :
    WellFormed twoCards ∧
      ¬ EveryState system Holds (start twoCards)
        [click 10 10 "c1", .up ⟨0, false, ⟨10, 10⟩, id, ""⟩, key "KeyE", click 10 10 "c2",
          key "Delete", click 310 10 "c3"] := by
  refine ⟨wellFormed_twoCards, fun holds => ?_⟩
  have final : Holds _ := holds.last rfl
  have ends := final.1.ends ⟨"c3", "left", "right", "red", ""⟩ (by decide)
  exact absurd ends.1 (by decide)

end Interaction

end Board
end MindMapVault
