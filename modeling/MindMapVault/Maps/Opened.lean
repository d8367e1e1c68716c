import MindMapVault.Foundations.Transition
import MindMapVault.Maps.Externalized

/-!
# Opening a map keeps its originals

An open moves originals to files under new keys, saves the map that has these keys, and
deletes what the map in memory does not name. An original is lost where its file is
replaced for another reference with the same id, or where the map that reaches the disk
is not the one in memory and the deletion goes by the latter. A run of opens in which
neither happens keeps every original.
-/

namespace MindMapVault
namespace Maps

open Transition Crypto
open Vault (Bytes Objects)

/-- Every original that could be read can still be, from the reference in its place. -/
def KeepsOriginals {Rest : Type} (prims : Primitives) (before after : LocalMap Rest) :
    Prop :=
  List.Forall₂
    (fun old new => ∀ original,
      readLocalAttachment prims before.files old = some original →
        readLocalAttachment prims after.files new = some original)
    (refs before.saved) (refs after.saved)

/-- An open that loses nothing: no file that a reference is read from is replaced; if the
map with the new keys reaches the disk, no file that has been moved is replaced after
that; and if it does so although the save fails, none of the moved files is deleted. -/
structure SparesOriginals {Rest : Type}
    (prims : Primitives) (map : LocalMap Rest) (outcome : OpenOutcome) : Prop where
  held : ∀ ref ∈ refs map.saved, ref.inlineData = none →
    readLocalAttachment prims map.files ref ≠ none →
      Untouched prims outcome.writes (refs map.saved).zipIdx ref.attachmentId
  moved : outcome.save ≠ .failed → LeftAlone prims outcome.writes (refs map.saved).zipIdx
  unsaved : outcome.save = .lost → ∀ turn ∈ (refs map.saved).zipIdx,
    movedKey outcome.writes turn ≠ none →
      turn.1.attachmentId ∈ keptIds map.saved ∨ outcome.removed turn.1.attachmentId = false

/-- The opening of maps as a transition system. -/
def opens {Rest : Type} (prims : Primitives) :
    System (LocalMap Rest) OpenOutcome :=
  fun map outcome => some (openLocalMap prims map outcome)

section Open

variable {Rest : Type} {prims : Primitives} {map : LocalMap Rest} {outcome : OpenOutcome}

theorem KeepsOriginals.refl (prims : Primitives) (map : LocalMap Rest) :
    KeepsOriginals prims map map :=
  List.forall₂_same.mpr fun _ _ _ reads => reads

/-- What is kept twice is kept. -/
theorem KeepsOriginals.trans {first second third : LocalMap Rest}
    (earlier : KeepsOriginals prims first second) (later : KeepsOriginals prims second third) :
    KeepsOriginals prims first third := by
  unfold KeepsOriginals at earlier later ⊢
  generalize refs first.saved = before at earlier ⊢
  generalize refs second.saved = between at earlier later
  generalize refs third.saved = after at later ⊢
  induction earlier generalizing after with
  | nil =>
      cases later
      exact .nil
  | cons kept rest ih =>
      cases later with
      | cons keptAgain restAgain =>
          exact .cons (fun original reads => keptAgain original (kept original reads))
            (ih _ restAgain)

variable (prims map outcome) in
/-- An open keeps the originals, if each reference on disk is read as the one in its place
was. -/
theorem keepsOriginals_openLocalMap_iff :
    KeepsOriginals prims map (openLocalMap prims map outcome) ↔
      ∀ turn ∈ (refs map.saved).zipIdx, ∀ original,
        readLocalAttachment prims map.files turn.1 = some original →
          readLocalAttachment prims (openLocalMap prims map outcome).files
            (refOpened outcome turn) = some original := by
  unfold KeepsOriginals
  nth_rewrite 1 [← List.zipIdx_map_fst 0 (refs map.saved)]
  rw [refs_openLocalMap, List.forall₂_map_left_iff, List.forall₂_map_right_iff, List.forall₂_same]

/-- A reference that is not moved is read as before. -/
theorem read_unmoved (spares : SparesOriginals prims map outcome)
    {turn : NodeAttachmentRef × Nat} (present : turn ∈ (refs map.saved).zipIdx)
    (stays : refOpened outcome turn = turn.1) {original : Bytes}
    (reads : readLocalAttachment prims map.files turn.1 = some original) :
    readLocalAttachment prims (openLocalMap prims map outcome).files turn.1 = some original := by
  cases inline : turn.1.inlineData with
  | some data =>
      rw [← reads, readLocalAttachment_of_inline inline, readLocalAttachment_of_inline inline]
  | none =>
      have reading : readLocalAttachment prims map.files turn.1 ≠ none := by simp [reads]
      have keyed := fileKey_of_read inline reading
      have old : turn.1 ∈ refs map.saved := List.fst_mem_of_mem_zipIdx present
      have there : turn.1 ∈ refs (openLocalMap prims map outcome).saved := by
        rw [refs_openLocalMap]
        exact List.mem_map.mpr ⟨turn, present, stays⟩
      have named : turn.1.attachmentId ∈ idsKept prims map outcome := by
        unfold idsKept
        split_ifs
        · exact mem_keptIds old keyed
        · exact mem_keptIds there keyed
      have untouched := spares.held turn.1 old inline reading
      rw [← reads]
      apply readLocalAttachment_congr
      simp only [files_openLocalMap, pruneLocalAttachments, named, not_true_eq_false,
        false_and, if_false]
      rw [(externalize_spec map.files map.saved).1]
      exact files_walkList_of_untouched untouched

/-- A reference that is moved is read as before. -/
theorem read_moved (ideal : prims.Ideal) (spares : SparesOriginals prims map outcome)
    (reached : outcome.save ≠ .failed)
    {turn : NodeAttachmentRef × Nat} (present : turn ∈ (refs map.saved).zipIdx)
    {key : Key256} (moves : movedKey outcome.writes turn = some key) :
    readLocalAttachment prims (openLocalMap prims map outcome).files
        (turn.1.moved key) =
      readLocalAttachment prims map.files turn.1 := by
  have moving : movedKey outcome.writes turn ≠ none := by simp [moves]
  have left : leftFile prims outcome.writes turn ≠ none := by
    obtain ⟨plaintext, nonce, -, sealed⟩ := leftFile_of_movedKey prims moves
    simp [sealed]
  have kept := (spared_iff prims present moves reached).mpr fun lost =>
    spares.unsaved lost turn present moving
  apply readLocalAttachment_moved ideal moves
  rw [files_openLocalMap, pruneLocalAttachments, if_neg kept]
  exact externalize_last map.files present left ((spares.moved reached).later present moving)

/-- An open that spares the originals keeps them. -/
theorem keepsOriginals_openLocalMap
    (ideal : prims.Ideal) (spares : SparesOriginals prims map outcome) :
    KeepsOriginals prims map (openLocalMap prims map outcome) := by
  rw [keepsOriginals_openLocalMap_iff]
  intro turn present original reads
  by_cases reached : outcome.save = .failed
  · have stays : refOpened outcome turn = turn.1 := if_pos reached
    rw [stays]
    exact read_unmoved spares present stays reads
  · cases moves : movedKey outcome.writes turn with
    | none =>
        have stays : refOpened outcome turn = turn.1 := by
          rw [refOpened, if_neg reached, refAfter, moves, Option.elim]
        rw [stays]
        exact read_unmoved spares present stays reads
    | some key =>
        have changes : refOpened outcome turn = turn.1.moved key := by
          rw [refOpened, if_neg reached, refAfter, moves, Option.elim]
        rw [changes, read_moved ideal spares reached present moves]
        exact reads

end Open

/-- In every state of a run of opens each original of the first map can be read as it
could at first, if every open spares the originals. -/
theorem originalsKept_of_spared {Rest : Type} {prims : Primitives} (ideal : prims.Ideal)
    (map : LocalMap Rest) (outcomes : List OpenOutcome)
    (spared : EveryStepAllowed (opens prims) (SparesOriginals prims) map outcomes) :
    EveryState (opens prims) (KeepsOriginals prims map) map outcomes := by
  refine everyState_of_allowed ?_
    (fun _ kept => kept) (.refl prims map) spared
  intro before outcome after kept spares taken
  cases taken
  exact kept.trans (keepsOriginals_openLocalMap ideal spares)

section Samples

/-- A photo of one byte, inside its map. -/
def inlinePhoto (attachmentId : String) (byte : UInt8) : NodeAttachmentRef where
  attachmentId := attachmentId
  details :=
    { previewAttachmentId := none
      name := "photo.jpg"
      contentType := "image/jpeg"
      sizeBytes := 1
      previewContentType := none
      previewKind := none
      uploadedAt := "2025-01-01"
      inlinePreviewDataBase64 := none }
  inlineDataBase64 := some (toBase64 [byte])
  localFileKeyB64 := none

/-- A node with these attachments. -/
def sampleContent (id : String) (attachments : List NodeAttachmentRef) :
    NodeContent Unit where
  id := id
  text := "Map"
  rest := ()
  collapsed := false
  customX := none
  customY := none
  imageAttachmentId := none
  attachments := attachments

/-- A map with two photos inside. -/
def twoPhotos (first second : String) : LocalMap Unit where
  saved := .node (sampleContent "root" [inlinePhoto first 7, inlinePhoto second 8]) []
  files := fun _ => none

/-- An open in which nothing fails. -/
def smoothOpen : OpenOutcome where
  writes := fun turn => .written (fillKey [UInt8.ofNat turn]) exampleNonce
  save := .saved
  removed := fun _ => true

/-- Two photos with ids of their own outlast an open. -/
theorem originalsKept_of_spared_twoPhotos :
    EveryState (opens keyedPrimitives)
      (KeepsOriginals keyedPrimitives (twoPhotos "local-a" "local-b"))
      (twoPhotos "local-a" "local-b") [smoothOpen] := by
  refine originalsKept_of_spared keyedPrimitives_ideal _ _ ((everyStep_cons rfl).mpr ⟨?_, trivial⟩)
  have listed : (refs (twoPhotos "local-a" "local-b").saved).zipIdx =
      [(inlinePhoto "local-a" 7, 0), (inlinePhoto "local-b" 8, 1)] := rfl
  refine { held := fun ref present inline => ?_, moved := fun _ => ?_, unsaved := ?_ }
  · have photos : refs (twoPhotos "local-a" "local-b").saved =
        [inlinePhoto "local-a" 7, inlinePhoto "local-b" 8] := rfl
    rw [photos] at present
    rcases List.mem_cons.mp present with rfl | second
    · exact absurd inline (by decide)
    · rw [List.mem_singleton.mp second] at inline
      exact absurd inline (by decide)
  · rw [listed]
    refine List.pairwise_pair.mpr fun _ _ => ?_
    decide
  · intro lost
    cases lost

/-- Two photos with one id: the second is written over the first. -/
theorem shared_id_loses_photo :
    ¬ ∀ (map : LocalMap Unit) (outcomes : List OpenOutcome),
      EveryState (opens keyedPrimitives) (KeepsOriginals keyedPrimitives map) map outcomes := by
  intro always
  have kept := (always (twoPhotos "local-a" "local-a") [smoothOpen]).last rfl
  have after : List.Forall₂ (fun old new => ∀ original,
      readLocalAttachment keyedPrimitives (fun _ => none) old = some original →
        readLocalAttachment keyedPrimitives
          (openLocalMap keyedPrimitives (twoPhotos "local-a" "local-a") smoothOpen).files
            new = some original)
      [inlinePhoto "local-a" 7, inlinePhoto "local-a" 8]
      [(inlinePhoto "local-a" 7).moved (fillKey [0]),
        (inlinePhoto "local-a" 8).moved (fillKey [1])] := kept
  have reads := (List.forall₂_cons.mp after).1 [7] (by decide)
  revert reads
  decide

end Samples

end Maps
end MindMapVault
