import MindMapVault.Foundations.Text
import MindMapVault.Foundations.Transition
import MindMapVault.Maps.LocalAttachments

/-!
# Editing the tree of a local map

Duplicate, copy, cut, paste, undo, redo and delete, as the editor does them: each edit
makes a new root and records it in a history with a limit, and the clipboard keeps
branches of its own. Copies of nodes get new ids, and so do the attachments they take
along. Nothing here writes a file.
-/

namespace MindMapVault
namespace Maps

open Vault (Bytes Objects)

/-- `HISTORY_LIMIT`. -/
def historyLimit : Nat := 50

/-- States and the one the cursor is on. -/
structure History (T : Type) where
  entries : List T
  index : Nat
  inside : index < entries.length

namespace History

variable {T : Type}

/-- `initHistory`. -/
def init (entry : T) : History T := ⟨[entry], 0, Nat.zero_lt_one⟩

/-- `current`. -/
def current (history : History T) : T := history.entries.get ⟨history.index, history.inside⟩

/-- The entries `pushHistory` keeps. -/
def pushed (history : History T) (entry : T) : List T :=
  let kept := history.entries.take (history.index + 1) ++ [entry]
  kept.drop (kept.length - historyLimit)

theorem pushed_length (history : History T) (entry : T) :
    0 < (history.pushed entry).length := by
  simp only [pushed, List.length_drop, List.length_append, List.length_singleton, historyLimit]
  omega

/-- `pushHistory`. -/
def push (history : History T) (entry : T) : History T where
  entries := history.pushed entry
  index := (history.pushed entry).length - 1
  inside := Nat.sub_lt (history.pushed_length entry) Nat.zero_lt_one

/-- `undoHistory`. -/
def undo (history : History T) : Option (History T) :=
  if 0 < history.index then
    some ⟨history.entries, history.index - 1, Nat.lt_of_le_of_lt (Nat.sub_le _ _) history.inside⟩
  else
    none

/-- `redoHistory`. -/
def redo (history : History T) : Option (History T) :=
  if more : history.index + 1 < history.entries.length then
    some ⟨history.entries, history.index + 1, more⟩
  else
    none

theorem current_mem (history : History T) : history.current ∈ history.entries := List.get_mem _ _

/-- What is pushed is remembered, and nothing else is new. -/
theorem mem_push {history : History T} {entry other : T}
    (present : other ∈ (history.push entry).entries) :
    other = entry ∨ other ∈ history.entries := by
  have kept := List.mem_of_mem_drop present
  rcases List.mem_append.mp kept with old | new
  · exact .inr (List.mem_of_mem_take old)
  · exact .inl (List.mem_singleton.mp new)

theorem entries_undo {history earlier : History T} (undone : history.undo = some earlier) :
    earlier.entries = history.entries := by
  unfold undo at undone
  split_ifs at undone
  cases undone
  rfl

theorem entries_redo {history later : History T} (redone : history.redo = some later) :
    later.entries = history.entries := by
  unfold redo at redone
  split_ifs at redone
  cases redone
  rfl

end History

section Operations

variable {Rest : Type}

/-- The node has this id. -/
def hasId (id : String) (content : NodeContent Rest) : Bool := content.id == id

/-- `removeNode`. -/
def removeNode (root : MindMapTreeNode Rest) (nodeId : String) :
    Option (MindMapTreeNode Rest) :=
  if nodeId = "root" ∨ root.label.id = nodeId then none
  else root.splice (hasId nodeId) fun _ => []

/-- `removeNodes`. -/
def removeNodes (root : MindMapTreeNode Rest) (nodeIds : List String) :
    Option (MindMapTreeNode Rest) :=
  let ids := nodeIds.eraseDups.filter (· ≠ "root")
  if ids.isEmpty then none
  else some (ids.foldl (fun tree id => (removeNode tree id).getD tree) root)

/-- `insertAfter`. -/
def insertAfter (root : MindMapTreeNode Rest) (nodeId : String) (node : MindMapTreeNode Rest) :
    Option (MindMapTreeNode Rest) :=
  if root.label.id = nodeId then none
  else root.splice (hasId nodeId) fun found => [found, node]

/-- A branch without a position of its own. -/
def unplaced : MindMapTreeNode Rest → MindMapTreeNode Rest
  | .node content children => .node { content with customX := none, customY := none } children

/-- A node with more children, unfolded. -/
def withChildren (nodes : List (MindMapTreeNode Rest)) : MindMapTreeNode Rest → MindMapTreeNode Rest
  | .node content children =>
      .node { content with collapsed := false } (children ++ nodes.map unplaced)

/-- `appendChildren`. -/
def appendChildren
    (root : MindMapTreeNode Rest) (parentId : String) (nodes : List (MindMapTreeNode Rest)) :
    Option (MindMapTreeNode Rest) :=
  if nodes.isEmpty then none
  else if root.label.id = parentId then some (withChildren nodes root)
  else root.splice (hasId parentId) fun target => [withChildren nodes target]

/-- `topLevelSelection`. -/
def topLevelSelection (root : MindMapTreeNode Rest) (nodeIds : List String) (includeRoot : Bool) :
    List (MindMapTreeNode Rest) :=
  root.outermost fun content =>
    decide (content.id ∈ nodeIds) && (includeRoot || content.id != "root")

end Operations

/-- The ids that a copy draws, one after the other. -/
structure Draws where
  uid : Nat → String
  randomUUID : Nat → String

/-- Where a copy stands: the ids it has drawn, and the attachments it has copied, each with
the one it is a copy of. -/
structure Copying where
  uids : Nat
  uuids : Nat
  copied : List (String × String)

/-- An attachment is one of local mode by its id. -/
def isLocal (attachmentId : String) : Bool := Text.startsWith "local-" attachmentId

section Copies

variable {Rest : Type} (draws : Draws)

/-- One node in `cloneSubtreeWithNewIds`. -/
def reassign (state : Copying) (content : NodeContent Rest) : Copying × NodeContent Rest :=
  ({ state with uids := state.uids + 1 }, { content with id := draws.uid state.uids })

/-- The attachments of one node in `copyCloneAttachments`, with the ids they are copied
from. In local mode `onCopyNodeAttachment` answers with null. -/
def copyRefs : Nat → List NodeAttachmentRef → Nat × List (String × NodeAttachmentRef)
  | uuids, [] => (uuids, [])
  | uuids, attachment :: attachments =>
      if isLocal attachment.attachmentId then
        let localId := "local-" ++ draws.randomUUID uuids
        let rest := copyRefs (uuids + 1) attachments
        (rest.1, (attachment.attachmentId, { attachment with attachmentId := localId }) :: rest.2)
      else
        copyRefs uuids attachments

/-- The pointer from the image of a node to its attachment, after the copy. -/
def remappedImage (content : NodeContent Rest) (copies : List (String × NodeAttachmentRef)) :
    Option String :=
  if content.attachments.isEmpty then
    content.imageAttachmentId
  else
    content.imageAttachmentId.bind fun originalImageId =>
      if originalImageId = "" then some originalImageId
      else
        (copies.reverse.map fun copy => (copy.1, copy.2.attachmentId)).lookup originalImageId

/-- One node in `copyCloneAttachments`. -/
def copyContent (state : Copying) (content : NodeContent Rest) :
    Copying × NodeContent Rest :=
  let copies := copyRefs draws state.uuids content.attachments
  ({ state with
      uuids := copies.1
      copied := state.copied ++ copies.2.map fun copy => (copy.2.attachmentId, copy.1) },
    { content with
      attachments := copies.2.map Prod.snd
      imageAttachmentId := remappedImage content copies.2 })

/-- `cloneSubtreeWithNewIds`, and then `copyCloneAttachments`. -/
def cloneBranch (state : Copying) (node : MindMapTreeNode Rest) :
    Copying × MindMapTreeNode Rest :=
  let clone := node.walk (reassign draws) state
  clone.2.walk (copyContent draws) clone.1

/-- The copies of several branches. -/
def cloneBranches (nodes : List (MindMapTreeNode Rest)) :
    Copying × List (MindMapTreeNode Rest) :=
  RoseTree.walkList (cloneBranch draws) ⟨0, 0, []⟩ nodes

end Copies

/-- The branches on the clipboard. -/
structure Clipboard (Rest : Type) where
  nodes : List (MindMapTreeNode Rest)
  cut : Bool

/-- An open local map: its tree, the history, the clipboard and the files. What is the
original of an attachment is kept beside them: that of a copy is the original of what it
is a copy of. -/
structure Editing (Rest : Type) where
  root : MindMapTreeNode Rest
  history : History (MindMapTreeNode Rest)
  clipboard : Option (Clipboard Rest)
  files : Objects
  originals : String → Option Bytes

inductive EditorEvent
  | duplicateNode (nodeId : String) (draws : Draws)
  | copyNodes (nodeIds : List String) (cut : Bool)
  | pasteNodes (targetId : String) (draws : Draws)
  | undo
  | redo
  | deleteNode (nodeId : String)
  | bulkDelete (nodeIds : List String)

namespace Editing

variable {Rest : Type}

/-- A map that was just opened. -/
def start (prims : Crypto.Primitives) (map : LocalMap Rest) : Editing Rest where
  root := map.saved
  history := .init map.saved
  clipboard := none
  files := map.files
  originals := fun id =>
    ((refs map.saved).find? (·.attachmentId == id)).bind (readLocalAttachment prims map.files)

/-- `mutate`. -/
def mutate (editing : Editing Rest) (newRoot : MindMapTreeNode Rest) : Editing Rest :=
  { editing with
    root := newRoot
    history := editing.history.push newRoot }

/-- `mutate`, if there is a new root. -/
def mutateTo (editing : Editing Rest) : Option (MindMapTreeNode Rest) → Editing Rest
  | none => editing
  | some newRoot => editing.mutate newRoot

/-- `step` of the history hook. -/
def restore (editing : Editing Rest) : Option (History (MindMapTreeNode Rest)) → Editing Rest
  | none => editing
  | some history => { editing with root := history.current, history := history }

/-- The branch that `duplicateNode` copies. -/
def source (editing : Editing Rest) (nodeId : String) : Option (MindMapTreeNode Rest) :=
  if nodeId = "root" ∨ editing.root.label.id = nodeId then none
  else editing.root.find? (hasId nodeId)

/-- Some node on the clipboard is in the map. -/
def idsInMap (editing : Editing Rest) (clip : Clipboard Rest) : Bool :=
  (RoseTree.labelsAll clip.nodes).any fun content =>
    (editing.root.find? (hasId content.id)).isSome

/-- The branches that an event makes copies of. -/
def copiedBranches (editing : Editing Rest) : EditorEvent → List (MindMapTreeNode Rest)
  | .duplicateNode nodeId _ => (editing.source nodeId).toList
  | .pasteNodes .. =>
      match editing.clipboard with
      | none => []
      | some clip => if clip.cut && !editing.idsInMap clip then [] else clip.nodes
  | _ => []

/-- Every attachment id of the map, its history and the clipboard. -/
def usedIds (editing : Editing Rest) : List String :=
  ((editing.root :: editing.history.entries ++
      (editing.clipboard.map Clipboard.nodes).getD []).flatMap refs).map
    NodeAttachmentRef.attachmentId

/-- The ids that copies got are new. -/
def Fresh (editing : Editing Rest) (copied : List (String × String)) : Prop :=
  (copied.map Prod.fst).Nodup ∧ ∀ id ∈ copied.map Prod.fst, id ∉ editing.usedIds

instance (editing : Editing Rest) (copied : List (String × String)) :
    Decidable (editing.Fresh copied) :=
  inferInstanceAs (Decidable (_ ∧ _))

/-- The copies have the originals of what they are copies of. -/
def withCopies (editing : Editing Rest) (copied : List (String × String)) : Editing Rest :=
  { editing with
    originals := fun id =>
      match copied.lookup id with
      | some source => editing.originals source
      | none => editing.originals id }

/-- `duplicateNode`. -/
def duplicateNode (editing : Editing Rest) (nodeId : String) (draws : Draws) :
    Option (Editing Rest) :=
  match editing.source nodeId with
  | none => some editing
  | some node =>
      let clone := cloneBranch draws ⟨0, 0, []⟩ node
      if editing.Fresh clone.1.copied then
        some ((editing.withCopies clone.1.copied).mutateTo
          (insertAfter editing.root nodeId clone.2))
      else
        none

/-- `copyNodes`. -/
def copyNodes (editing : Editing Rest) (nodeIds : List String) (cut : Bool) : Editing Rest :=
  let nodes := topLevelSelection editing.root nodeIds !cut
  if nodes.isEmpty then
    editing
  else
    let copied := { editing with clipboard := some ⟨nodes, cut⟩ }
    if cut then copied.mutateTo (removeNodes editing.root (nodes.map (·.label.id)))
    else copied

/-- The node that `pasteNodes` appends to. -/
def pasteTarget (editing : Editing Rest) (targetId : String) : String :=
  if (editing.root.find? (hasId targetId)).isSome then targetId else "root"

/-- `pasteNodes`. -/
def pasteNodes (editing : Editing Rest) (targetId : String) (draws : Draws) :
    Option (Editing Rest) :=
  match editing.clipboard with
  | none => some editing
  | some clip =>
      if clip.cut && !editing.idsInMap clip then
        -- the first paste after a cut puts the same nodes back
        some ({ editing with clipboard := some { clip with cut := false } }.mutateTo
          (appendChildren editing.root (editing.pasteTarget targetId) clip.nodes))
      else
        let clones := cloneBranches draws clip.nodes
        if editing.Fresh clones.1.copied then
          some ((editing.withCopies clones.1.copied).mutateTo
            (appendChildren editing.root (editing.pasteTarget targetId) clones.2))
        else
          none

/-- The editor as a transition system. An event is not possible if it draws an id that is
in use. -/
def edits : Transition.System (Editing Rest) EditorEvent :=
  fun editing event =>
    match event with
    | .duplicateNode nodeId draws => editing.duplicateNode nodeId draws
    | .copyNodes nodeIds cut => some (editing.copyNodes nodeIds cut)
    | .pasteNodes targetId draws => editing.pasteNodes targetId draws
    | .undo => some (editing.restore editing.history.undo)
    | .redo => some (editing.restore editing.history.redo)
    | .deleteNode nodeId => some (editing.mutateTo (removeNode editing.root nodeId))
    | .bulkDelete nodeIds => some (editing.mutateTo (removeNodes editing.root nodeIds))

end Editing

end Maps
end MindMapVault
