import MindMapVault.Foundations.Table
import MindMapVault.Maps.Copies
import MindMapVault.Maps.Opened

/-!
# Edits keep the originals of attachments

Every attachment belongs to one node, in the map, in its history and on the clipboard, and
no two in a tree have one id. A copy is read as what it is a copy of if the original of
that is inside the map; one that is kept in a file cannot be read after it was copied.
Edits whose copies have their originals inside keep every original, also after a save and
an open.
-/

namespace MindMapVault
namespace Maps

open Transition Crypto
open Vault (Bytes Objects)

/-- Attachments that belong to their nodes, have ids of their own, and are read as their
originals. -/
structure Held
    (prims : Primitives) (files : Objects)
    (owner : String → String) (originals : String → Option Bytes)
    (held : List (String × NodeAttachmentRef)) : Prop where
  apart : (held.map idOf).Nodup
  owned : ∀ attachment ∈ held, owner (idOf attachment) = attachment.1
  reads : ∀ attachment ∈ held, ∀ original, originals (idOf attachment) = some original →
    readLocalAttachment prims files attachment.2 = some original

namespace Held

variable {prims : Primitives} {files : Objects}
variable {owner newOwner : String → String} {originals newOriginals : String → Option Bytes}
variable {held other : List (String × NodeAttachmentRef)}

theorem of_sublist (holds : Held prims files owner originals held)
    (part : List.Sublist other held) : Held prims files owner originals other where
  apart := holds.apart.sublist (part.map idOf)
  owned := fun attachment present => holds.owned attachment (part.subset present)
  reads := fun attachment present => holds.reads attachment (part.subset present)

theorem of_perm (holds : Held prims files owner originals held)
    (same : other.Perm held) : Held prims files owner originals other where
  apart := ((same.map idOf).nodup_iff).mpr holds.apart
  owned := fun attachment present => holds.owned attachment (same.subset present)
  reads := fun attachment present => holds.reads attachment (same.subset present)

/-- Only what is said of the ids that occur matters. -/
theorem congr (holds : Held prims files owner originals held)
    (sameOwner : ∀ id ∈ held.map idOf, newOwner id = owner id)
    (sameOriginal : ∀ id ∈ held.map idOf, newOriginals id = originals id) :
    Held prims files newOwner newOriginals held where
  apart := holds.apart
  owned := by
    intro attachment present
    rw [sameOwner _ (List.mem_map_of_mem present)]
    exact holds.owned attachment present
  reads := by
    intro attachment present
    rw [sameOriginal _ (List.mem_map_of_mem present)]
    exact holds.reads attachment present

theorem append (first : Held prims files owner originals held)
    (second : Held prims files owner originals other)
    (disjoint : ∀ id ∈ held.map idOf, id ∉ other.map idOf) :
    Held prims files owner originals (held ++ other) where
  apart := by
    rw [List.map_append]
    refine first.apart.append second.apart ?_
    exact fun id here there => disjoint id here there
  owned := fun attachment present =>
    (List.mem_append.mp present).elim (first.owned attachment) (second.owned attachment)
  reads := fun attachment present =>
    (List.mem_append.mp present).elim (first.reads attachment) (second.reads attachment)

end Held

/-- The map, its history and the clipboard hold their attachments, each node its own. -/
structure SoundFor {Rest : Type}
    (prims : Primitives) (owner : String → String) (editing : Editing Rest) :
    Prop where
  root : Held prims editing.files owner editing.originals (attached editing.root)
  history : ∀ entry ∈ editing.history.entries,
    Held prims editing.files owner editing.originals (attached entry)
  clipboard : ∀ clip ∈ editing.clipboard,
    Held prims editing.files owner editing.originals (attachedAll clip.nodes)

/-- Some assignment of attachments to nodes is kept everywhere. -/
def Sound {Rest : Type} (prims : Primitives) (editing : Editing Rest) : Prop :=
  ∃ owner, SoundFor prims owner editing

/-- The event copies only what it can: the original of every local attachment it makes a
copy of, if it can be read, is inside the map. -/
def CopiesInside {Rest : Type}
    (prims : Primitives) (editing : Editing Rest) (event : EditorEvent) : Prop :=
  ∀ ref ∈ (editing.copiedBranches event).flatMap refs, isLocal ref.attachmentId = true →
    ref.inlineData = none → readLocalAttachment prims editing.files ref = none

section Steps

variable {Rest : Type} {prims : Primitives} {owner : String → String}
variable {editing : Editing Rest}

/-- An edit whose new tree holds its attachments. -/
theorem SoundFor.mutateTo
    (sound : SoundFor prims owner editing) {result : Option (MindMapTreeNode Rest)}
    (holds : ∀ newRoot ∈ result,
      Held prims editing.files owner editing.originals (attached newRoot)) :
    SoundFor prims owner (editing.mutateTo result) := by
  cases result with
  | none => exact sound
  | some newRoot =>
      have new := holds newRoot rfl
      refine ⟨new, fun entry present => ?_, sound.clipboard⟩
      rcases History.mem_push present with rfl | old
      · exact new
      · exact sound.history entry old

/-- Undo and redo go to a tree of the history. -/
theorem SoundFor.restore (sound : SoundFor prims owner editing)
    {result : Option (History (MindMapTreeNode Rest))}
    (same : ∀ history ∈ result, history.entries = editing.history.entries) :
    SoundFor prims owner (editing.restore result) := by
  cases result with
  | none => exact sound
  | some history =>
      have entries := same history rfl
      refine ⟨?_, fun entry present => ?_, sound.clipboard⟩
      · have there := history.current_mem
        rw [entries] at there
        exact sound.history history.current there
      · rw [Editing.restore, entries] at present
        exact sound.history entry present

/-- The ids in use are those of the attachments of the map, its history and the
clipboard. -/
theorem usedIds_eq :
    editing.usedIds =
      (attachedAll (editing.root :: editing.history.entries ++
        (editing.clipboard.map Clipboard.nodes).getD [])).map idOf :=
  (map_idOf_attachedAll _).symm

/-- The ids of the map are in use. -/
theorem mem_usedIds_root {id : String} (present : id ∈ (attached editing.root).map idOf) :
    id ∈ editing.usedIds := by
  rw [usedIds_eq, List.cons_append, attachedAll_cons, List.map_append]
  exact List.mem_append_left _ present

/-- The ids of the history are in use. -/
theorem mem_usedIds_history
    {entry : MindMapTreeNode Rest} (remembered : entry ∈ editing.history.entries)
    {id : String} (present : id ∈ (attached entry).map idOf) : id ∈ editing.usedIds := by
  obtain ⟨before, after, split⟩ := List.append_of_mem remembered
  rw [usedIds_eq, List.cons_append, attachedAll_cons, attachedAll_append, split,
    attachedAll_append, attachedAll_cons]
  simp only [List.map_append, List.mem_append]
  exact .inr (.inl (.inr (.inl present)))

/-- The ids of the clipboard are in use. -/
theorem mem_usedIds_clipboard {clip : Clipboard Rest} (held : editing.clipboard = some clip)
    {id : String} (present : id ∈ (attachedAll clip.nodes).map idOf) :
    id ∈ editing.usedIds := by
  rw [usedIds_eq, held, attachedAll_append, List.map_append]
  exact List.mem_append_right _ present

/-- An attachment without a log entry has the original it had. -/
theorem originals_withCopies_of_used {log : List (String × String)} (fresh : editing.Fresh log)
    {id : String} (used : id ∈ editing.usedIds) :
    (editing.withCopies log).originals id = editing.originals id := by
  have unlogged : log.lookup id = none := by
    rw [List.lookup_eq_none_iff]
    rintro pair present
    rw [bne_iff_ne]
    rintro rfl
    exact fresh.2 pair.1 (List.mem_map_of_mem present) used
  simp only [Editing.withCopies, unlogged]

/-- New ids change nothing of what is held. -/
theorem SoundFor.withCopies (sound : SoundFor prims owner editing)
    {log : List (String × String)} (fresh : editing.Fresh log)
    {newOwner : String → String} (same : ∀ id ∈ editing.usedIds, newOwner id = owner id) :
    SoundFor prims newOwner (editing.withCopies log) where
  root :=
    sound.root.congr (fun id present => same id (mem_usedIds_root present))
      fun _ present => originals_withCopies_of_used fresh (mem_usedIds_root present)
  history := fun entry remembered =>
    (sound.history entry remembered).congr
      (fun id present => same id (mem_usedIds_history remembered present))
      fun _ present => originals_withCopies_of_used fresh (mem_usedIds_history remembered present)
  clipboard := fun clip held =>
    (sound.clipboard clip held).congr
      (fun id present => same id (mem_usedIds_clipboard held present))
      fun _ present => originals_withCopies_of_used fresh (mem_usedIds_clipboard held present)

/-- A copy of an original that is inside the map is read as that. -/
theorem readLocalAttachment_copy {source : NodeAttachmentRef} (inline : source.inlineData ≠ none)
    (files : Objects) (newId : String) :
    readLocalAttachment prims files { source with attachmentId := newId } =
      readLocalAttachment prims files source := by
  obtain ⟨data, held⟩ := Option.ne_none_iff_exists'.mp inline
  have copied : ({ source with attachmentId := newId } : NodeAttachmentRef).inlineData =
      some data := held
  rw [readLocalAttachment_of_inline held, readLocalAttachment_of_inline copied]

/-- The node that a copied attachment belongs to; of the others it is as it was. -/
def ownerWith (copies : List (String × NodeAttachmentRef)) (owner : String → String)
    (id : String) : String :=
  ((copies.find? (idOf · == id)).map Prod.fst).getD (owner id)

/-- Copies of what can be copied hold their attachments. -/
theorem held_copies {old : List NodeAttachmentRef} {clones : List (MindMapTreeNode Rest)}
    {log : List (String × String)}
    (copies : AreCopies log old (clones.flatMap refs)) (fresh : editing.Fresh log)
    (reads : ∀ ref ∈ old, ∀ original, editing.originals ref.attachmentId = some original →
      readLocalAttachment prims editing.files ref = some original)
    (inside : ∀ ref ∈ old, isLocal ref.attachmentId = true → ref.inlineData = none →
      readLocalAttachment prims editing.files ref = none) :
    Held prims editing.files (ownerWith (attachedAll clones) owner)
      (editing.withCopies log).originals (attachedAll clones) := by
  have ids : (attachedAll clones).map idOf = log.map Prod.fst := by
    rw [map_idOf_attachedAll, copies.logged]
  have apart : ((attachedAll clones).map idOf).Nodup := by
    rw [ids]
    exact fresh.1
  refine ⟨apart, fun attachment present => ?_, fun attachment present original known => ?_⟩
  · rw [ownerWith, Table.list_find?_of_distinct apart present]
    rfl
  · have listed : attachment.2 ∈ clones.flatMap refs := by
      rw [← map_snd_attachedAll]
      exact List.mem_map_of_mem present
    obtain ⟨source, among, logged, ours, same⟩ := copies.each attachment.2 listed
    have found : log.lookup (idOf attachment) = some source.attachmentId :=
      Table.lookup_of_distinct fresh.1 logged
    simp only [Editing.withCopies, found] at known
    have sourceReads := reads source among original known
    have inline : source.inlineData ≠ none := by
      intro absent
      rw [inside source among ours absent] at sourceReads
      cases sourceReads
    rw [same, readLocalAttachment_copy inline, sourceReads]

/-- The ids of copies are not those of what is held already. -/
theorem copies_disjoint {old new : List NodeAttachmentRef} {log : List (String × String)}
    (copies : AreCopies log old new) (fresh : editing.Fresh log) {id : String}
    (used : id ∈ editing.usedIds) : id ∉ new.map NodeAttachmentRef.attachmentId := by
  rw [← copies.logged]
  exact fun new => fresh.2 id new used

/-- Ids in use belong where they did. -/
theorem ownerWith_of_used {old : List NodeAttachmentRef} {clones : List (MindMapTreeNode Rest)}
    {log : List (String × String)}
    (copies : AreCopies log old (clones.flatMap refs)) (fresh : editing.Fresh log)
    (id : String) (used : id ∈ editing.usedIds) :
    ownerWith (attachedAll clones) owner id = owner id := by
  have absent : (attachedAll clones).find? (idOf · == id) = none := by
    rw [List.find?_eq_none]
    intro attachment present
    rw [beq_iff_eq]
    rintro rfl
    refine copies_disjoint copies fresh used ?_
    rw [← map_idOf_attachedAll]
    exact List.mem_map_of_mem present
  rw [ownerWith, absent]
  rfl

/-- An edit that puts copies into the map. -/
theorem sound_withCopies (sound : SoundFor prims owner editing)
    {old : List NodeAttachmentRef} {clones : List (MindMapTreeNode Rest)}
    {log : List (String × String)}
    (copies : AreCopies log old (clones.flatMap refs)) (fresh : editing.Fresh log)
    (reads : ∀ ref ∈ old, ∀ original, editing.originals ref.attachmentId = some original →
      readLocalAttachment prims editing.files ref = some original)
    (inside : ∀ ref ∈ old, isLocal ref.attachmentId = true → ref.inlineData = none →
      readLocalAttachment prims editing.files ref = none)
    {result : Option (MindMapTreeNode Rest)}
    (placed : ∀ newRoot ∈ result,
      (attached newRoot).Perm (attached editing.root ++ attachedAll clones)) :
    Sound prims ((editing.withCopies log).mutateTo result) := by
  have kept := sound.withCopies fresh (ownerWith_of_used copies fresh)
  have added : Held prims editing.files (ownerWith (attachedAll clones) owner)
      (editing.withCopies log).originals (attachedAll clones) :=
    held_copies copies fresh reads inside
  have disjoint : ∀ id ∈ (attached editing.root).map idOf,
      id ∉ (attachedAll clones).map idOf := by
    intro id present
    rw [map_idOf_attachedAll]
    exact copies_disjoint copies fresh (mem_usedIds_root present)
  refine ⟨_, kept.mutateTo fun newRoot made => ?_⟩
  exact (kept.root.append added disjoint).of_perm (placed newRoot made)

/-- A duplicate has attachments of its own. -/
theorem sound_duplicateNode (sound : SoundFor prims owner editing) {nodeId : String} {draws : Draws}
    (inside : CopiesInside prims editing (.duplicateNode nodeId draws))
    {after : Editing Rest} (taken : editing.duplicateNode nodeId draws = some after) :
    Sound prims after := by
  unfold Editing.duplicateNode at taken
  cases found : editing.source nodeId with
  | none =>
      rw [found] at taken
      cases taken
      exact ⟨owner, sound⟩
  | some node =>
      simp only [found, Option.ite_none_right_eq_some, Option.some.injEq] at taken
      obtain ⟨fresh, rfl⟩ := taken
      obtain ⟨log, copied, copies⟩ := areCopies_cloneBranch draws ⟨0, 0, []⟩ node
      rw [List.nil_append] at copied
      rw [← copied, ← List.flatMap_singleton refs (cloneBranch draws ⟨0, 0, []⟩ node).2] at copies
      refine sound_withCopies sound copies fresh (fun ref present => ?_) ?_ fun newRoot made => ?_
      · rw [← map_snd_attached] at present
        obtain ⟨attachment, held, rfl⟩ := List.mem_map.mp present
        exact (sound.root.of_sublist (attached_source found)).reads attachment held
      · simpa [CopiesInside, Editing.copiedBranches, found] using inside
      · rw [attachedAll_cons]
        exact (attached_insertAfter made).trans
          (List.Perm.of_eq (congrArg _ (List.append_nil _).symm))

/-- Branches that are not in the map have attachments that are not in it. -/
theorem disjoint_of_absent (sound : SoundFor prims owner editing) {clip : Clipboard Rest}
    (held : editing.clipboard = some clip) (absent : editing.idsInMap clip = false) :
    ∀ id ∈ (attached editing.root).map idOf, id ∉ (attachedAll clip.nodes).map idOf := by
  intro id here there
  obtain ⟨attachment, present, rfl⟩ := List.mem_map.mp here
  obtain ⟨other, otherPresent, sameId⟩ := List.mem_map.mp there
  have sameNode : other.1 = attachment.1 := by
    rw [← (sound.clipboard clip held).owned other otherPresent, sameId]
    exact sound.root.owned attachment present
  obtain ⟨content, inMap, holds⟩ := List.mem_flatMap.mp present
  obtain ⟨copied, onClipboard, otherHolds⟩ := List.mem_flatMap.mp otherPresent
  have nodeId : content.id = attachment.1 := by
    obtain ⟨_, _, rfl⟩ := List.mem_map.mp holds
    rfl
  have otherNodeId : copied.id = other.1 := by
    obtain ⟨_, _, rfl⟩ := List.mem_map.mp otherHolds
    rfl
  have found : (editing.root.find? (hasId copied.id)).isSome = true :=
    RoseTree.find?_isSome inMap (by rw [hasId, beq_iff_eq, nodeId, otherNodeId, sameNode])
  have somewhere : editing.idsInMap clip = true := List.any_eq_true.mpr ⟨copied, onClipboard, found⟩
  rw [absent] at somewhere
  cases somewhere

/-- A paste puts cut nodes back, or copies with attachments of their own. -/
theorem sound_pasteNodes (sound : SoundFor prims owner editing) {targetId : String} {draws : Draws}
    (inside : CopiesInside prims editing (.pasteNodes targetId draws))
    {after : Editing Rest} (taken : editing.pasteNodes targetId draws = some after) :
    Sound prims after := by
  unfold Editing.pasteNodes at taken
  cases held : editing.clipboard with
  | none =>
      rw [held] at taken
      cases taken
      exact ⟨owner, sound⟩
  | some clip =>
      have clipped := sound.clipboard clip held
      simp only [held] at taken
      split_ifs at taken with back fresh
      · cases taken
        rw [Bool.and_eq_true, Bool.not_eq_true'] at back
        have uncut : SoundFor prims owner
            { editing with clipboard := some { clip with cut := false } } := by
          refine ⟨sound.root, sound.history, fun other same => ?_⟩
          cases same
          exact clipped
        refine ⟨owner, uncut.mutateTo fun newRoot made => ?_⟩
        exact (sound.root.append clipped (disjoint_of_absent sound held back.2)).of_perm
          (attached_appendChildren made)
      · cases taken
        refine sound_withCopies sound (areCopies_cloneBranches draws clip.nodes) fresh
          (fun ref present => ?_) ?_ fun newRoot made => attached_appendChildren made
        · rw [← map_snd_attachedAll] at present
          obtain ⟨attachment, there, rfl⟩ := List.mem_map.mp present
          exact clipped.reads attachment there
        · intro ref present
          refine inside ref ?_
          simp only [Editing.copiedBranches, held, if_neg back]
          exact present

/-- The clipboard takes attachments of the map along, and a cut takes them away. -/
theorem sound_copyNodes
    (sound : SoundFor prims owner editing) (nodeIds : List String) (cut : Bool) :
    SoundFor prims owner (editing.copyNodes nodeIds cut) := by
  unfold Editing.copyNodes
  have selected : Held prims editing.files owner editing.originals
      (attachedAll (topLevelSelection editing.root nodeIds !cut)) :=
    sound.root.of_sublist (attached_topLevelSelection nodeIds _)
  have copied : SoundFor prims owner
      { editing with
        clipboard := some ⟨topLevelSelection editing.root nodeIds !cut, cut⟩ } := by
    refine ⟨sound.root, sound.history, fun clip same => ?_⟩
    cases same
    exact selected
  dsimp only
  split_ifs
  · exact sound
  · exact copied.mutateTo fun newRoot made =>
      sound.root.of_sublist (attached_removeNodes made)
  · exact copied

/-- Every edit keeps attachments with their nodes, and their originals with them, if it
copies only what it can. -/
theorem sound_edits {event : EditorEvent} {after : Editing Rest}
    (sound : Sound prims editing) (inside : CopiesInside prims editing event)
    (taken : Editing.edits editing event = some after) : Sound prims after := by
  obtain ⟨owner, sound⟩ := sound
  cases event with
  | duplicateNode nodeId draws => exact sound_duplicateNode sound inside taken
  | pasteNodes targetId draws => exact sound_pasteNodes sound inside taken
  | copyNodes nodeIds cut =>
      cases taken
      exact ⟨owner, sound_copyNodes sound nodeIds cut⟩
  | undo =>
      cases taken
      exact ⟨owner, sound.restore fun _ undone => History.entries_undo undone⟩
  | redo =>
      cases taken
      exact ⟨owner, sound.restore fun _ redone => History.entries_redo redone⟩
  | deleteNode nodeId =>
      cases taken
      exact ⟨owner, sound.mutateTo fun _ made =>
        sound.root.of_sublist (attached_removeNode made)⟩
  | bulkDelete nodeIds =>
      cases taken
      exact ⟨owner, sound.mutateTo fun _ made =>
        sound.root.of_sublist (attached_removeNodes made)⟩

/-- A map that was just opened keeps its attachments with their nodes, if no two of them
have one id. -/
theorem sound_start {map : LocalMap Rest}
    (apart : ((refs map.saved).map NodeAttachmentRef.attachmentId).Nodup) :
    Sound prims (Editing.start prims map) := by
  rw [← map_idOf_attached] at apart
  have first : Held prims map.files (ownerWith (attached map.saved) id)
      (Editing.start prims map).originals (attached map.saved) := by
    refine ⟨apart, fun attachment present => ?_, fun attachment present original known => ?_⟩
    · rw [ownerWith, Table.list_find?_of_distinct apart present]
      rfl
    · have listed : attachment.2 ∈ refs map.saved := by
        rw [← map_snd_attached]
        exact List.mem_map_of_mem present
      rw [map_idOf_attached] at apart
      have found : (refs map.saved).find? (·.attachmentId == idOf attachment) =
          some attachment.2 := Table.list_find?_of_distinct apart listed
      simpa only [Editing.start, found, Option.bind_some] using known
  refine ⟨_, first, fun entry remembered => ?_, fun clip held => ?_⟩
  · rw [List.mem_singleton.mp remembered]
    exact first
  · cases held

end Steps

section Reopening

variable {Rest : Type} {prims : Primitives}
variable {map : LocalMap Rest} {outcome : OpenOutcome}

/-- The map that a save leaves. -/
def Editing.saved (editing : Editing Rest) : LocalMap Rest := ⟨editing.root, editing.files⟩

/-- An open whose save fails after it replaced the blob deletes no file that was moved. -/
def SparesMoved (map : LocalMap Rest) (outcome : OpenOutcome) : Prop :=
  outcome.save = .lost → ∀ turn ∈ (refs map.saved).zipIdx,
    movedKey outcome.writes turn ≠ none → outcome.removed turn.1.attachmentId = false

/-- The map that is opened again has the attachments of the map that was edited, no two of
them share a file, and each is read as its original, if that could be read at first. -/
structure OriginalsKept
    (prims : Primitives) (editing : Editing Rest) (reopened : LocalMap Rest) :
    Prop where
  same : (refs reopened.saved).map NodeAttachmentRef.attachmentId =
    (refs editing.root).map NodeAttachmentRef.attachmentId
  apart : ((refs reopened.saved).map NodeAttachmentRef.attachmentId).Nodup
  reads : ∀ ref ∈ refs reopened.saved, ∀ original,
    editing.originals ref.attachmentId = some original →
      readLocalAttachment prims reopened.files ref = some original

/-- Where no two attachments have one id, an open replaces no file that is in use. -/
theorem sparesOriginals_of_apart
    (apart : ((refs map.saved).map NodeAttachmentRef.attachmentId).Nodup)
    (spares : SparesMoved map outcome) : SparesOriginals prims map outcome where
  held := by
    intro ref present inline _ turn turns left same
    have there : turn.1 ∈ refs map.saved := List.fst_mem_of_mem_zipIdx turns
    have equal : turn.1 = ref := List.inj_on_of_nodup_map apart there present same
    refine left ?_
    rw [leftFile, equal, NodeAttachmentRef.movable, inline]
    rfl
  moved := by
    intro _
    rw [← List.zipIdx_map_fst 0 (refs map.saved), List.map_map] at apart
    exact (List.pairwise_map.mp apart).imp fun differ _ _ same => differ same.symm
  unsaved := fun lost turn turns moves => .inr (spares lost turn turns moves)

/-- A reference on disk after an open is for what it was for before. -/
theorem attachmentId_refOpened (turn : NodeAttachmentRef × Nat) :
    (refOpened outcome turn).attachmentId = turn.1.attachmentId := by
  unfold refOpened refAfter
  split_ifs
  · rfl
  · cases movedKey outcome.writes turn <;> rfl

/-- An open changes no id. -/
theorem ids_openLocalMap :
    (refs (openLocalMap prims map outcome).saved).map
        NodeAttachmentRef.attachmentId =
      (refs map.saved).map NodeAttachmentRef.attachmentId := by
  rw [refs_openLocalMap, List.map_map]
  nth_rewrite 2 [← List.zipIdx_map_fst 0 (refs map.saved)]
  rw [List.map_map]
  exact List.map_congr_left fun turn _ => attachmentId_refOpened turn

/-- A reference that is opened again is read as the one with its id was. -/
theorem reads_openLocalMap (kept : KeepsOriginals prims map (openLocalMap prims map outcome))
    {ref : NodeAttachmentRef} (present : ref ∈ refs (openLocalMap prims map outcome).saved) :
    ∃ old ∈ refs map.saved, old.attachmentId = ref.attachmentId ∧ ∀ original,
      readLocalAttachment prims map.files old = some original →
        readLocalAttachment prims (openLocalMap prims map outcome).files ref = some original := by
  rw [keepsOriginals_openLocalMap_iff] at kept
  rw [refs_openLocalMap] at present
  obtain ⟨turn, turns, rfl⟩ := List.mem_map.mp present
  exact ⟨turn.1, List.fst_mem_of_mem_zipIdx turns, (attachmentId_refOpened turn).symm,
    kept turn turns⟩

/-- What is sound is kept by a save and an open. -/
theorem Sound.originalsKept
    (ideal : prims.Ideal) {editing : Editing Rest} (sound : Sound prims editing)
    (spares : SparesMoved editing.saved outcome) :
    OriginalsKept prims editing (openLocalMap prims editing.saved outcome) := by
  obtain ⟨owner, held⟩ := sound
  have apart := held.root.apart
  rw [map_idOf_attached] at apart
  have kept := keepsOriginals_openLocalMap ideal (sparesOriginals_of_apart apart spares)
  refine ⟨ids_openLocalMap, ?_, fun ref present original known => ?_⟩
  · rw [ids_openLocalMap]
    exact apart
  · obtain ⟨old, there, sameId, reads⟩ := reads_openLocalMap kept present
    have listed : old ∈ refs editing.root := there
    rw [← map_snd_attached] at listed
    obtain ⟨attachment, inMap, rfl⟩ := List.mem_map.mp listed
    rw [← sameId] at known
    exact reads original (held.root.reads attachment inMap original known)

end Reopening

/-- In every state of a run of edits, a save and an open give back every attachment with
its original, and that of a copy is the original of what it is a copy of. The ids in the
map have to differ at first, every copy has to be one of originals inside the map, and an
open whose save fails half-way must not delete what it moved. -/
theorem originalsKept_of_copiesInside {Rest : Type} {prims : Primitives} (ideal : prims.Ideal)
    (map : LocalMap Rest) (apart : ((refs map.saved).map NodeAttachmentRef.attachmentId).Nodup)
    (events : List EditorEvent)
    (inside : EveryStepAllowed Editing.edits (CopiesInside prims)
      (Editing.start prims map) events) :
    EveryState Editing.edits
      (fun editing => ∀ outcome, SparesMoved editing.saved outcome →
        OriginalsKept prims editing (openLocalMap prims editing.saved outcome))
      (Editing.start prims map) events := by
  refine everyState_of_allowed ?_ ?_ (sound_start apart) inside
  · intro editing event after sound copiesInside taken
    exact sound_edits sound copiesInside taken
  · intro editing sound outcome spares
    exact sound.originalsKept ideal spares

section Samples

/-- A map with a photo inside, at a node below the root. -/
def mapWithPhoto : LocalMap Unit where
  saved := .node (sampleContent "root" [])
    [.node (sampleContent "beach" [inlinePhoto "local-a" 7]) []]
  files := fun _ => none

/-- The same map after its photo was moved to a file. -/
def mapWithFiledPhoto : LocalMap Unit := openLocalMap keyedPrimitives mapWithPhoto smoothOpen

/-- Ids for one copy. -/
def copyDraws : Draws := ⟨fun _ => "copy", fun _ => "b"⟩

/-- A photo inside the map outlasts a duplicate of its node, an undo and a redo. -/
theorem originalsKept_of_copiesInside_photo :
    EveryState Editing.edits
      (fun editing => ∀ outcome, SparesMoved editing.saved outcome →
        OriginalsKept keyedPrimitives editing (openLocalMap keyedPrimitives editing.saved outcome))
      (Editing.start keyedPrimitives mapWithPhoto)
      [.duplicateNode "beach" copyDraws, .undo, .redo] := by
  refine originalsKept_of_copiesInside keyedPrimitives_ideal mapWithPhoto (by decide) _ ?_
  refine (everyStep_cons rfl).mpr ⟨fun ref present _ outside => ?_,
    (everyStep_cons rfl).mpr ⟨?_, (everyStep_cons rfl).mpr ⟨?_, trivial⟩⟩⟩
  · have photo : ((Editing.start keyedPrimitives mapWithPhoto).copiedBranches
        (.duplicateNode "beach" copyDraws)).flatMap refs = [inlinePhoto "local-a" 7] := rfl
    rw [photo] at present
    rw [List.mem_singleton.mp present] at outside
    exact absurd outside (by decide)
  · exact List.forall_mem_nil _
  · exact List.forall_mem_nil _

/-- A photo in a file is lost to the duplicate of its node. -/
theorem duplicate_lacks_photo :
    ¬ ∀ (map : LocalMap Unit) (events : List EditorEvent),
      ((refs map.saved).map NodeAttachmentRef.attachmentId).Nodup →
        EveryState Editing.edits
          (fun editing => OriginalsKept keyedPrimitives editing
            (openLocalMap keyedPrimitives editing.saved smoothOpen))
          (Editing.start keyedPrimitives map) events := by
  intro always
  have kept := (always mapWithFiledPhoto [.duplicateNode "beach" copyDraws] (by decide)).last rfl
  have reads := kept.reads
    { (inlinePhoto "local-a" 7).moved (fillKey [0]) with attachmentId := "local-b" }
    (by decide) [7] (by decide)
  revert reads
  decide

end Samples

end Maps
end MindMapVault
