import MindMapVault.Foundations.Ecma
import MindMapVault.Maps.TreeIds

/-!
# The clipboard, and the ids of the nodes

The editor over a whole session: beside what it does with branches, the texts of nodes are
edited. The ids that copies draw are new. A cut is followed beside the editor until its
branches are back, from the events and the maps alone, and that is what the clipboard
remembers of it.
-/

namespace MindMapVault
namespace Maps

open Transition

variable {Rest : Type}

/-- The text of a node becomes another one. -/
def textEdit (text : String) : FieldEdit Rest where
  edit content := some { content with text := if text = "" then content.text else text }
  keepsId := by
    intro before after written
    cases written
    rfl

/-- `commitEdit`: a node that is left without a text goes away. -/
def commitEdit (root : MindMapTreeNode Rest) (editingId editText : String) :
    Option (MindMapTreeNode Rest) :=
  let trimmed := Ecma.trim editText
  if editingId = "" then none
  else if trimmed = "" ∧ editingId ≠ "root" ∧ root.label.id ≠ editingId then
    removeNode root editingId
  else editNode root editingId (textEdit trimmed)

/-- `cancelEdit`: a node that has no text goes away. -/
def cancelEdit (root : MindMapTreeNode Rest) (editingId : String) :
    Option (MindMapTreeNode Rest) :=
  if editingId = "" ∨ editingId = "root" then none
  else
    (root.find? (hasId editingId)).bind fun found =>
      if Ecma.trim found.label.text = "" then removeNode root editingId else none

/-- What is done in a session. -/
inductive MapEvent
  | edit (event : EditorEvent)
  | commitEdit (editingId editText : String)
  | cancelEdit (editingId : String)

/-- The draws of an event that copies. -/
def EditorEvent.draws : EditorEvent → Option Draws
  | .duplicateNode _ draws | .pasteNodes _ draws => some draws
  | _ => none

namespace Editing

/-- The copies that an event makes. -/
def copies (editing : Editing Rest) (event : EditorEvent) : List (MindMapTreeNode Rest) :=
  match event.draws with
  | none => []
  | some draws => (cloneBranches draws (editing.copiedBranches event)).2

/-- The branches on the clipboard. -/
def clipped (editing : Editing Rest) : List (MindMapTreeNode Rest) :=
  (editing.clipboard.map Clipboard.nodes).getD []

/-- The copies have ids of their own. -/
def DrawsNew (editing : Editing Rest) (event : EditorEvent) : Prop :=
  (nodeIdsAll (editing.copies event)).Nodup ∧
    ∀ id ∈ nodeIdsAll (editing.copies event),
      id ∉ nodeIds editing.root ∧ id ∉ nodeIdsAll editing.clipped

instance (editing : Editing Rest) (event : EditorEvent) : Decidable (editing.DrawsNew event) :=
  inferInstanceAs (Decidable (_ ∧ _))

/-- A session as a transition system. An event is not possible if it draws the id of a node
that is in use. -/
def session : System (Editing Rest) MapEvent :=
  fun editing event =>
    match event with
    | .edit event => if editing.DrawsNew event then edits editing event else none
    | .commitEdit editingId editText =>
        some (editing.mutateTo (Maps.commitEdit editing.root editingId editText))
    | .cancelEdit editingId => some (editing.mutateTo (Maps.cancelEdit editing.root editingId))

end Editing

/-- A session, and the branches that were cut and are not put back yet. -/
structure Watched (Rest : Type) where
  editing : Editing Rest
  missing : Option (List (MindMapTreeNode Rest))

namespace Watched

/-- The branches that a paste puts back: those that were cut, if none of their nodes is in
the map. -/
def due (watched : Watched Rest) : Option (List (MindMapTreeNode Rest)) :=
  watched.missing.filter fun branches =>
    decide (∀ id ∈ nodeIdsAll branches, id ∉ nodeIds watched.editing.root)

/-- The branches that are missing after an event. A cut or a copy that takes something is
about other branches, and a paste that puts them back is the end of it. -/
def missingAfter (watched : Watched Rest) :
    MapEvent → Option (List (MindMapTreeNode Rest))
  | .edit (.copyNodes nodeIds cut) =>
      let nodes := topLevelSelection watched.editing.root nodeIds !cut
      if nodes.isEmpty then watched.missing else if cut then some nodes else none
  | .edit (.pasteNodes ..) => if watched.due.isSome then none else watched.missing
  | _ => watched.missing

/-- A session that is watched. -/
def system : System (Watched Rest) MapEvent :=
  fun watched event =>
    (watched.editing.session event).map fun editing =>
      ⟨editing, watched.missingAfter event⟩

/-- A map that was just opened, and nothing cut. -/
def start (prims : Crypto.Primitives) (map : LocalMap Rest) : Watched Rest :=
  ⟨.start prims map, none⟩

end Watched

/-- The nodes that can be selected: for a cut, all but the root. -/
def selectable (root : MindMapTreeNode Rest) (cut : Bool) : List (MindMapTreeNode Rest) :=
  if cut then RoseTree.subtreesAll root.children else RoseTree.subtrees root

/-- Branches were put below a node of a map, and else nothing changed. -/
structure Appended (before : MindMapTreeNode Rest) (targetId : String)
    (branches : List (MindMapTreeNode Rest)) (after : MindMapTreeNode Rest) : Prop where
  placed : targetId ∈ nodeIds before
  tree : after = before.update (hasId targetId) (withChildren branches)

/-- What a node has beside what every copy has of its own. -/
def plain (content : NodeContent Rest) : NodeContent Rest :=
  { content with id := "", imageAttachmentId := none, attachments := [] }

/-- What a copy or a cut takes: branches in the order of the map, none inside another, and
with them the selected nodes and what is below them. -/
structure Takes (editing : Editing Rest) (ids : List String) (cut : Bool)
    (branches : List (MindMapTreeNode Rest)) : Prop where
  order : branches.Sublist (selectable editing.root cut)
  apart : (branches.map nodeIds).Pairwise List.Disjoint
  covers : ∀ id, id ∈ nodeIdsAll branches ↔
    ∃ node ∈ selectable editing.root cut, node.label.id ∈ ids ∧ id ∈ nodeIds node

end Maps
end MindMapVault
