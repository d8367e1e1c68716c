import MindMapVault.Crypto.SameReads
import MindMapVault.Maps.LocalAttachments

/-!
# What moving originals out does

The loop that moves originals out goes through the references of a map one by one. It is
described by three things: the references after it, the files after it, and whether there
is a new map. An open is that loop, a save and a deletion.
-/

namespace MindMapVault
namespace Maps

open Crypto
open RoseTree hiding node
open Vault (Bytes Objects)

/-- The reference a round of the loop leaves. -/
def refAfter (outcomes : Nat → WriteOutcome) (turn : NodeAttachmentRef × Nat) :
    NodeAttachmentRef :=
  (movedKey outcomes turn).elim turn.1 turn.1.moved

section Walk

variable (prims : Primitives) (outcomes : Nat → WriteOutcome)

/-- No file of this id is replaced at any of these turns. -/
def Untouched (turns : List (NodeAttachmentRef × Nat)) (id : String) : Prop :=
  ∀ turn ∈ turns, leftFile prims outcomes turn ≠ none → turn.1.attachmentId ≠ id

/-- No file that a moved reference is left with is replaced at a later turn. -/
def LeftAlone (turns : List (NodeAttachmentRef × Nat)) : Prop :=
  turns.Pairwise fun earlier later =>
    movedKey outcomes earlier ≠ none → leftFile prims outcomes later ≠ none →
      later.1.attachmentId ≠ earlier.1.attachmentId

variable {prims outcomes}

/-- The references after the loop. -/
theorem refs_walkList (state : Externalizing) (items : List NodeAttachmentRef) :
    (walkList (externalizeRef prims outcomes) state items).2 =
      (items.zipIdx state.turn).map (refAfter outcomes) := by
  induction items generalizing state with
  | nil => rfl
  | cons ref items ih =>
      simp only [walkList, List.zipIdx_cons, List.map_cons, ih]
      cases moves : movedKey outcomes (ref, state.turn) with
      | none => simp only [externalizeRef, moves, refAfter, Option.elim]
      | some key => simp only [externalizeRef, moves, refAfter, Option.elim]

variable (prims outcomes) in
/-- The turn counts up, whatever happens. -/
theorem turn_externalizeRef (state : Externalizing) (ref : NodeAttachmentRef) :
    (externalizeRef prims outcomes state ref).1.turn = state.turn + 1 := by
  unfold externalizeRef
  cases movedKey outcomes (ref, state.turn) <;> rfl

/-- The files after one round. -/
theorem files_externalizeRef (state : Externalizing) (ref : NodeAttachmentRef) :
    (externalizeRef prims outcomes state ref).1.files =
      (leftFile prims outcomes (ref, state.turn)).elim state.files
        (state.files.put ref.attachmentId) := by
  unfold externalizeRef
  cases movedKey outcomes (ref, state.turn) <;>
    cases leftFile prims outcomes (ref, state.turn) <;> rfl

variable (prims) in
/-- A reference that is moved is left with its original, sealed under its key. -/
theorem leftFile_of_movedKey {turn : NodeAttachmentRef × Nat} {key : Key256}
    (moves : movedKey outcomes turn = some key) :
    ∃ plaintext nonce, turn.1.movable = some plaintext ∧
      leftFile prims outcomes turn = some (aesEncrypt prims key.toCryptoKey nonce plaintext) := by
  obtain ⟨plaintext, movable, answers⟩ := Option.bind_eq_some_iff.mp moves
  unfold leftFile
  rw [movable]
  cases outcome : outcomes turn.2 with
  | written drawn nonce =>
      rw [outcome] at answers
      cases answers
      exact ⟨plaintext, nonce, rfl, rfl⟩
  | lost drawn nonce =>
      rw [outcome] at answers
      cases answers
  | failed =>
      rw [outcome] at answers
      cases answers

/-- A file that is not replaced at any turn is as it was. -/
theorem files_walkList_of_untouched
    {state : Externalizing} {items : List NodeAttachmentRef} {id : String}
    (untouched : Untouched prims outcomes (items.zipIdx state.turn) id) :
    (walkList (externalizeRef prims outcomes) state items).1.files id = state.files id := by
  induction items generalizing state with
  | nil => rfl
  | cons ref items ih =>
      have rest : Untouched prims outcomes (items.zipIdx
          (externalizeRef prims outcomes state ref).1.turn) id := by
        rw [turn_externalizeRef]
        exact fun turn present => untouched turn (List.mem_cons_of_mem _ present)
      simp only [walkList, ih rest, files_externalizeRef]
      cases left : leftFile prims outcomes (ref, state.turn) with
      | none => rfl
      | some file =>
          have differs := untouched (ref, state.turn) List.mem_cons_self (by simp [left])
          exact state.files.put_of_ne file (Ne.symm differs)

/-- No later turn goes to the file of a moved reference that is left alone. -/
theorem LeftAlone.later
    {items : List NodeAttachmentRef} (alone : LeftAlone prims outcomes items.zipIdx)
    {turn : NodeAttachmentRef × Nat} (present : turn ∈ items.zipIdx)
    (moves : movedKey outcomes turn ≠ none) :
    ∀ later ∈ items.zipIdx, turn.2 < later.2 →
      leftFile prims outcomes later ≠ none → later.1.attachmentId ≠ turn.1.attachmentId := by
  intro later there after replaces
  obtain ⟨first, firstBound, rfl⟩ := List.mem_iff_getElem.mp present
  obtain ⟨second, secondBound, rfl⟩ := List.mem_iff_getElem.mp there
  simp only [List.getElem_zipIdx, Nat.zero_add] at after
  exact List.pairwise_iff_getElem.mp alone first second firstBound secondBound after moves replaces

/-- A file that is replaced at some turn is that of the last such turn. -/
theorem files_walkList_of_replaced {state : Externalizing} {items : List NodeAttachmentRef}
    {turn : NodeAttachmentRef × Nat} (present : turn ∈ items.zipIdx state.turn)
    (left : leftFile prims outcomes turn ≠ none) :
    ∃ last ∈ items.zipIdx state.turn, turn.2 ≤ last.2 ∧
      last.1.attachmentId = turn.1.attachmentId ∧
      leftFile prims outcomes last ≠ none ∧
        (walkList (externalizeRef prims outcomes) state items).1.files
            turn.1.attachmentId =
          leftFile prims outcomes last := by
  induction items generalizing state turn with
  | nil => simp at present
  | cons ref items ih =>
      rw [List.zipIdx_cons] at present ⊢
      simp only [walkList]
      have counted := turn_externalizeRef prims outcomes state ref
      by_cases later : Untouched prims outcomes (items.zipIdx (state.turn + 1)) turn.1.attachmentId
      · -- the turn is the first one, and none after it writes to the file
        rcases List.mem_cons.mp present with rfl | after
        · refine ⟨(ref, state.turn), List.mem_cons_self, Nat.le_refl _, rfl, left, ?_⟩
          rw [← counted] at later
          rw [files_walkList_of_untouched later, files_externalizeRef]
          obtain ⟨file, sealed⟩ := Option.ne_none_iff_exists'.mp left
          rw [sealed]
          exact state.files.put_self ref.attachmentId file
        · exact absurd rfl (later turn after left)
      · -- a later turn writes to the file
        have beyond : ∃ other ∈ items.zipIdx (state.turn + 1), turn.2 ≤ other.2 ∧
            leftFile prims outcomes other ≠ none ∧ other.1.attachmentId = turn.1.attachmentId := by
          rcases List.mem_cons.mp present with rfl | after
          · unfold Untouched at later
            push Not at later
            obtain ⟨other, there, replaces, same⟩ := later
            have bound := (List.mem_zipIdx there).1
            exact ⟨other, there, Nat.le_trans (Nat.le_succ _) bound, replaces, same⟩
          · exact ⟨turn, after, Nat.le_refl _, left, rfl⟩
        obtain ⟨other, there, bound, replaces, same⟩ := beyond
        rw [← counted] at there
        obtain ⟨last, isLast, upTo, named, leaves, files⟩ := ih there replaces
        rw [same] at files named
        rw [counted] at isLast
        exact ⟨last, List.mem_cons_of_mem _ isLast, Nat.le_trans bound upTo, named, leaves, files⟩

variable (prims outcomes) in
/-- The loop counts the references it moves. -/
theorem moved_walkList (state : Externalizing) (items : List NodeAttachmentRef) :
    state.moved ≤ (walkList (externalizeRef prims outcomes) state items).1.moved ∧
      ((∃ turn ∈ items.zipIdx state.turn, movedKey outcomes turn ≠ none) →
        state.moved < (walkList (externalizeRef prims outcomes) state items).1.moved) := by
  induction items generalizing state with
  | nil => simp [walkList]
  | cons ref items ih =>
      have rest := ih (externalizeRef prims outcomes state ref).1
      rw [turn_externalizeRef] at rest
      simp only [walkList, List.zipIdx_cons, List.mem_cons, exists_eq_or_imp]
      cases moves : movedKey outcomes (ref, state.turn) with
      | none =>
          have same : (externalizeRef prims outcomes state ref).1.moved = state.moved := by
            simp only [externalizeRef, moves]
          rw [same] at rest
          exact ⟨rest.1, fun found => rest.2 (found.resolve_left fun none => none rfl)⟩
      | some key =>
          have more : (externalizeRef prims outcomes state ref).1.moved =
              state.moved + 1 := by
            simp only [externalizeRef, moves]
          have bound := rest.1
          rw [more] at bound
          exact ⟨Nat.le_trans (Nat.le_succ _) bound, fun _ => bound⟩

end Walk

section Tree

variable {Rest : Type} {prims : Primitives} {outcomes : Nat → WriteOutcome}

variable (prims outcomes) in
/-- The loop over the references of a map is one along the list of them. -/
theorem walkList_externalizeNode (state : Externalizing) (contents : List (NodeContent Rest)) :
    ((walkList (externalizeNode prims outcomes) state contents).1,
        (walkList (externalizeNode prims outcomes) state contents).2.flatMap
          NodeContent.attachments) =
      walkList (externalizeRef prims outcomes) state
        (contents.flatMap NodeContent.attachments) := by
  induction contents generalizing state with
  | nil => rfl
  | cons content contents ih =>
      rw [List.flatMap_cons, walkList_append, ← ih]
      simp only [walkList, externalizeNode, List.flatMap_cons]

variable (prims outcomes) in
/-- The loop over the references of a tree is one along the list of them. -/
theorem walk_externalizeNode (state : Externalizing) (root : MindMapTreeNode Rest) :
    ((root.walk (externalizeNode prims outcomes) state).1,
        refs (root.walk (externalizeNode prims outcomes) state).2) =
      walkList (externalizeRef prims outcomes) state (refs root) := by
  have along := walk_labels (externalizeNode prims outcomes) state root
  have flat := walkList_externalizeNode prims outcomes state root.labels
  rw [← along] at flat
  exact flat

/-- What moving the originals of a map does to its references and to the files. -/
theorem externalize_spec (files : Objects) (root : MindMapTreeNode Rest) :
    let walked := walkList (externalizeRef prims outcomes) ⟨files, 0, 0⟩ (refs root)
    (externalizeInlineAttachments prims outcomes files root).1 = walked.1.files ∧
      ∀ migrated ∈ (externalizeInlineAttachments prims outcomes files root).2,
        refs migrated = walked.2 := by
  simp only [← walk_externalizeNode prims outcomes ⟨files, 0, 0⟩ root]
  refine ⟨rfl, fun migrated made => ?_⟩
  simp only [externalizeInlineAttachments, Option.mem_def, Option.ite_none_right_eq_some,
    Option.some.injEq] at made
  rw [← made.2]

/-- A file that is replaced is left by the last reference of its id that replaces it. -/
theorem externalize_replaced (files : Objects) {root : MindMapTreeNode Rest}
    {turn : NodeAttachmentRef × Nat} (present : turn ∈ (refs root).zipIdx)
    (left : leftFile prims outcomes turn ≠ none) :
    ∃ last ∈ (refs root).zipIdx, turn.2 ≤ last.2 ∧
      last.1.attachmentId = turn.1.attachmentId ∧
      leftFile prims outcomes last ≠ none ∧
        (externalizeInlineAttachments prims outcomes files root).1
            turn.1.attachmentId =
          leftFile prims outcomes last := by
  rw [(externalize_spec files root).1]
  exact @files_walkList_of_replaced prims outcomes ⟨files, 0, 0⟩ (refs root) turn present left

/-- The file of the last turn that goes to it is the one that turn leaves. -/
theorem externalize_last (files : Objects) {root : MindMapTreeNode Rest}
    {turn : NodeAttachmentRef × Nat} (present : turn ∈ (refs root).zipIdx)
    (left : leftFile prims outcomes turn ≠ none)
    (alone : ∀ later ∈ (refs root).zipIdx, turn.2 < later.2 →
      leftFile prims outcomes later ≠ none → later.1.attachmentId ≠ turn.1.attachmentId) :
    (externalizeInlineAttachments prims outcomes files root).1 turn.1.attachmentId =
      leftFile prims outcomes turn := by
  obtain ⟨last, isLast, upTo, named, leaves, replaced⟩ := externalize_replaced files present left
  have notLater : ¬ turn.2 < last.2 := fun later => alone last isLast later leaves named
  have sameTurn : last.2 = turn.2 := Nat.le_antisymm (Nat.not_lt.mp notLater) upTo
  have same : last = turn := by
    have first := (List.mem_zipIdx' isLast).2
    have second := (List.mem_zipIdx' present).2
    apply Prod.ext
    · rw [first, second]
      congr 1
    · exact sameTurn
  rw [replaced, same]

/-- If there is no new map, nothing was moved. -/
theorem movedKey_of_unmade {files : Objects} {root : MindMapTreeNode Rest}
    (unmade : (externalizeInlineAttachments prims outcomes files root).2 = none)
    {turn : NodeAttachmentRef × Nat} (present : turn ∈ (refs root).zipIdx) :
    movedKey outcomes turn = none := by
  by_contra moves
  have counted := (moved_walkList prims outcomes ⟨files, 0, 0⟩ (refs root)).2 ⟨turn, present, moves⟩
  rw [← walk_externalizeNode prims outcomes ⟨files, 0, 0⟩ root] at counted
  simp only [externalizeInlineAttachments, if_pos counted] at unmade
  cases unmade

end Tree

section Reading

variable {prims : Primitives} {files after : Objects} {ref : NodeAttachmentRef}

/-- An original in a file is read as long as the file is the same. -/
theorem readLocalAttachment_congr (same : after ref.attachmentId = files ref.attachmentId) :
    readLocalAttachment prims after ref = readLocalAttachment prims files ref := by
  simp only [readLocalAttachment, same]

/-- A reference that reads a file has a key to it. -/
theorem fileKey_of_read (inline : ref.inlineData = none)
    (reads : readLocalAttachment prims files ref ≠ none) : ref.fileKey.isSome = true := by
  cases held : ref.fileKey with
  | none => simp [readLocalAttachment, inline, held] at reads
  | some keyB64 => rfl

/-- The text of a key is not empty. -/
theorem toBase64_ne_empty (key : Key256) : toBase64 key.1 ≠ "" := by
  intro empty
  have decoded := fromBase64_toBase64 key.1
  rw [empty] at decoded
  have nothing : fromBase64 "" = .ok [] := rfl
  rw [nothing, Except.ok.injEq] at decoded
  have length := key.2
  rw [← decoded] at length
  simp at length

/-- The key of a reference that has been moved is that of its file. -/
@[simp] theorem fileKey_moved (ref : NodeAttachmentRef) (key : Key256) :
    (ref.moved key).fileKey = some (toBase64 key.1) := by
  simp [NodeAttachmentRef.fileKey, NodeAttachmentRef.moved, toBase64_ne_empty]

variable (prims files) in
/-- An original that can be moved is what the reference is read as. -/
theorem movable_spec {plaintext : Bytes} (movable : ref.movable = some plaintext) :
    validFileId ref.attachmentId = true ∧ readLocalAttachment prims files ref = some plaintext := by
  unfold NodeAttachmentRef.movable at movable
  cases held : ref.inlineData with
  | none => simp [held] at movable
  | some data =>
      cases keyed : ref.fileKey with
      | some key => simp [held, keyed] at movable
      | none =>
          simp only [held, keyed, Option.ite_none_right_eq_some] at movable
          refine ⟨movable.1, ?_⟩
          simp only [readLocalAttachment, held, movable.2]

/-- A reference that has been moved is read from its file. -/
theorem readLocalAttachment_moved_eq (valid : validFileId ref.attachmentId = true) (key : Key256) :
    readLocalAttachment prims files (ref.moved key) =
      (files ref.attachmentId).bind fun file =>
        (aesDecrypt prims key.toCryptoKey file).toOption := by
  have inline : (ref.moved key).inlineData = none := rfl
  have named : (ref.moved key).attachmentId = ref.attachmentId := rfl
  have imported : (fromBase64 (toBase64 key.1)).bind importAesKey = .ok key.toCryptoKey := by
    rw [fromBase64_toBase64]
    exact dif_pos (.inr (.inr key.2))
  simp only [readLocalAttachment, inline, fileKey_moved, named, valid, if_true, bind,
    Option.bind_some, imported, Except.toOption]

/-- A moved original is read from its file as it was from the map. -/
theorem readLocalAttachment_moved (ideal : prims.Ideal)
    {outcomes : Nat → WriteOutcome} {turn : NodeAttachmentRef × Nat} {key : Key256}
    (moves : movedKey outcomes turn = some key)
    (left : after turn.1.attachmentId = leftFile prims outcomes turn) :
    readLocalAttachment prims after (turn.1.moved key) =
      readLocalAttachment prims files turn.1 := by
  obtain ⟨plaintext, nonce, movable, sealed⟩ := leftFile_of_movedKey prims moves
  obtain ⟨valid, before⟩ := movable_spec prims files movable
  have opened := aesDecrypt_aesEncrypt ideal key.toCryptoKey nonce plaintext
  rw [before, readLocalAttachment_moved_eq valid, left, sealed, Option.bind_some, opened]
  rfl

/-- A reference is read from inside the map if it has inline data. -/
theorem readLocalAttachment_of_inline
    {ref : NodeAttachmentRef} {data : String} (inline : ref.inlineData = some data)
    (files : Objects) :
    readLocalAttachment prims files ref = (fromBase64 data).toOption := by
  simp only [readLocalAttachment, inline]

end Reading

section Open

variable {Rest : Type} {prims : Primitives} {map : LocalMap Rest} {outcome : OpenOutcome}

/-- The reference that is on disk after an open. -/
def refOpened (outcome : OpenOutcome) (turn : NodeAttachmentRef × Nat) : NodeAttachmentRef :=
  if outcome.save = .failed then turn.1 else refAfter outcome.writes turn

/-- The ids of references with a key are kept. -/
theorem mem_keptIds {root : MindMapTreeNode Rest} {ref : NodeAttachmentRef}
    (present : ref ∈ refs root) (keyed : ref.fileKey.isSome = true) :
    ref.attachmentId ∈ keptIds root :=
  List.mem_map_of_mem (List.mem_filter.mpr ⟨present, keyed⟩)

/-- The references on disk after an open. -/
theorem refs_openLocalMap :
    refs (openLocalMap prims map outcome).saved =
      (refs map.saved).zipIdx.map (refOpened outcome) := by
  have before : refs map.saved = (refs map.saved).zipIdx.map Prod.fst :=
    (List.zipIdx_map_fst 0 _).symm
  cases made : (externalizeInlineAttachments prims outcome.writes map.files map.saved).2 with
  | none =>
      simp only [openLocalMap, made]
      nth_rewrite 1 [before]
      refine List.map_congr_left fun turn present => ?_
      rw [refOpened, refAfter, movedKey_of_unmade made present, Option.elim, ite_self]
  | some migrated =>
      have after : refs migrated = (refs map.saved).zipIdx.map (refAfter outcome.writes) := by
        rw [(externalize_spec map.files map.saved).2 migrated made, refs_walkList]
      simp only [openLocalMap, made]
      cases ended : outcome.save with
      | failed =>
          nth_rewrite 1 [before]
          refine List.map_congr_left fun turn _ => ?_
          rw [refOpened, if_pos ended]
      | saved | lost =>
          rw [after]
          refine List.map_congr_left fun turn _ => ?_
          rw [refOpened, if_neg (by simp [ended])]

/-- The ids of the files that an open does not delete: those that the map in memory
names, which is the old one if the save failed. -/
def idsKept (prims : Primitives) (map : LocalMap Rest) (outcome : OpenOutcome) :
    List String :=
  if outcome.save = .lost then keptIds map.saved
  else keptIds (openLocalMap prims map outcome).saved

/-- The files after an open. -/
theorem files_openLocalMap :
    (openLocalMap prims map outcome).files =
      pruneLocalAttachments (idsKept prims map outcome) outcome.removed
        (externalizeInlineAttachments prims outcome.writes map.files map.saved).1 := by
  unfold idsKept
  cases made : (externalizeInlineAttachments prims outcome.writes map.files map.saved).2 with
  | none => simp only [openLocalMap, made, ite_self]
  | some migrated =>
      simp only [openLocalMap, made]
      cases ended : outcome.save with
      | saved => rfl
      | lost => rfl
      | failed => rfl

variable (prims) in
/-- A moved file is spared by the deletion, if the map in memory names it or the deletion
does not come to it. -/
theorem spared_iff {turn : NodeAttachmentRef × Nat} (present : turn ∈ (refs map.saved).zipIdx)
    {key : Key256} (moves : movedKey outcome.writes turn = some key)
    (reached : outcome.save ≠ .failed) :
    ¬ (turn.1.attachmentId ∉ idsKept prims map outcome ∧
        outcome.removed turn.1.attachmentId = true) ↔
      (outcome.save = .lost → turn.1.attachmentId ∈ keptIds map.saved ∨
        outcome.removed turn.1.attachmentId = false) := by
  rw [idsKept]
  by_cases lost : outcome.save = .lost
  · simp only [lost, if_true, true_imp_iff, not_and_or, not_not, Bool.not_eq_true]
  · simp only [lost, if_false, false_imp_iff, iff_true]
    rintro ⟨unnamed, -⟩
    apply unnamed
    have there : turn.1.moved key ∈ refs (openLocalMap prims map outcome).saved := by
      rw [refs_openLocalMap]
      refine List.mem_map.mpr ⟨turn, present, ?_⟩
      rw [refOpened, if_neg reached, refAfter, moves, Option.elim]
    have keyed : (turn.1.moved key).fileKey.isSome = true := by
      rw [fileKey_moved, Option.isSome_some]
    have named : (turn.1.moved key).attachmentId ∈
        keptIds (openLocalMap prims map outcome).saved :=
      mem_keptIds there keyed
    exact named

end Open

end Maps
end MindMapVault
