import Mathlib.Logic.Function.Iterate
import MindMapVault.Vault.Handlers

/-!
# Uploads under an unused version id

The id an upload mints is one no entry of the vault has ever had. Whatever else the row
lists, the uploaded bytes are then what the vault's current version resolves to, also
after retention has deleted the objects it gave up.
-/

namespace MindMapVault
namespace Vault

section Normalised

/-- What normalisation keeps has one pass made over its id. -/
theorem exists_of_mem_normalizeVersionHistory
    {history : List VersionSnapshot} {kept : VersionSnapshot}
    (present : kept ∈ normalizeVersionHistory history) :
    ∃ snapshot ∈ history,
      { snapshot with versionId := normalizeVersionId snapshot.versionId } = kept := by
  suffices everySeen : ∀ seen, kept ∈ normalizeVersionHistoryFrom seen history →
      ∃ snapshot ∈ history,
        { snapshot with versionId := normalizeVersionId snapshot.versionId } = kept from
    everySeen [] present
  clear present
  induction history with
  | nil => simp [normalizeVersionHistoryFrom]
  | cons snapshot rest ih =>
      intro seen present
      simp only [normalizeVersionHistoryFrom] at present
      split_ifs at present
      · obtain ⟨later, stored, same⟩ := ih seen present
        exact ⟨later, List.mem_cons_of_mem _ stored, same⟩
      · rcases List.mem_cons.mp present with rfl | inRest
        · exact ⟨snapshot, List.mem_cons_self, rfl⟩
        · obtain ⟨later, stored, same⟩ := ih _ inRest
          exact ⟨later, List.mem_cons_of_mem _ stored, same⟩

/-- A lookup finds the last entry under a valid id that no entry before it has. -/
theorem find?_normalizeVersionHistory_append
    {history : List VersionSnapshot} {added : VersionSnapshot}
    (valid : ValidVersionId added.versionId)
    (new : ∀ snapshot ∈ history, normalizeVersionId snapshot.versionId ≠ added.versionId) :
    (normalizeVersionHistory (history ++ [added])).find?
      (·.versionId = added.versionId) = some added := by
  suffices everySeen : ∀ seen, added.versionId ∉ seen →
      (normalizeVersionHistoryFrom seen (history ++ [added])).find?
        (·.versionId = added.versionId) = some added from
    everySeen [] List.not_mem_nil
  induction history with
  | nil =>
      intro seen unseen
      simp [normalizeVersionHistoryFrom, valid.normalize, valid.1, unseen]
  | cons snapshot rest ih =>
      intro seen unseen
      have differs := new snapshot List.mem_cons_self
      have later := ih fun other present =>
        new other (List.mem_cons_of_mem _ present)
      simp only [List.cons_append, normalizeVersionHistoryFrom]
      split_ifs
      · exact later seen unseen
      · rw [List.find?_cons_of_neg (by simpa using differs)]
        exact later _ (by simp [unseen, differs.symm])

end Normalised

/-- An id no entry of the row turns into, however often it is normalised, and whose key
none of them names. -/
structure UnusedVersionId (map : StoredMindMap) (versionId : String) : Prop where
  valid : ValidVersionId versionId
  unlisted : ∀ snapshot ∈ map.versionHistory, ∀ passes,
    normalizeVersionId^[passes] snapshot.versionId ≠ versionId
  unnamed : ∀ snapshot ∈ map.versionHistory,
    snapshot.objectKey ≠ some (versionKey map.objectKey versionId)
  inactive : map.normalizedCurrent ≠ some versionId

/-- Asking for the current version answers these bytes. -/
def CurrentIs (vault : VaultState) (body : Bytes) : Prop :=
  ∃ objectKey, resolveBlobKey vault.row none = .ok objectKey ∧ vault.objects objectKey = some body

/-- Deleting other objects leaves an object. -/
theorem foldl_delete_of_not_mem (objectKeys : List String) (objects : Objects) {objectKey : String}
    (spared : objectKey ∉ objectKeys) :
    objectKeys.foldl Objects.delete objects objectKey = objects objectKey := by
  induction objectKeys generalizing objects with
  | nil => rfl
  | cons first rest ih =>
      rw [List.mem_cons, not_or] at spared
      rw [List.foldl_cons, ih _ spared.2, Objects.delete_of_ne _ spared.1]

namespace UnusedVersionId

variable {map : StoredMindMap} {versionId : String}

/-- What the next save keeps does not turn into an unused id either, and names no key of
it. -/
theorem of_mem_normalized (unused : UnusedVersionId map versionId) {kept : VersionSnapshot}
    (present : kept ∈ normalizeVersionHistory map.versionHistory) :
    (∀ passes, normalizeVersionId^[passes] kept.versionId ≠ versionId) ∧
      kept.objectKey ≠ some (versionKey map.objectKey versionId) := by
  obtain ⟨snapshot, stored, rfl⟩ := exists_of_mem_normalizeVersionHistory present
  refine ⟨fun passes => ?_, unused.unnamed snapshot stored⟩
  have iterated := unused.unlisted snapshot stored (passes + 1)
  rwa [Function.iterate_succ_apply] at iterated

/-- The key of an unused id survives retention. -/
theorem spared (unused : UnusedVersionId map versionId) :
    versionKey map.objectKey versionId ∉ map.retired.filterMap VersionSnapshot.objectKey := by
  intro deleted
  obtain ⟨snapshot, dropped, named⟩ := List.mem_filterMap.mp deleted
  exact (unused.of_mem_normalized (List.mem_of_mem_take dropped)).2 named

theorem normalizedCurrent_recordVersion
    (unused : UnusedVersionId map versionId) (savedAt : DateTime) (sizeBytes : Int) :
    (map.updateUpload versionId
      (recordVersion map versionId savedAt sizeBytes).1).normalizedCurrent = some versionId := by
  simp [StoredMindMap.normalizedCurrent, unused.valid.normalize, unused.valid.1]

/-- After a save under an unused id the current version resolves to its key. -/
theorem resolveBlobKey_recordVersion
    (unused : UnusedVersionId map versionId) (savedAt : DateTime) (sizeBytes : Int) :
    resolveBlobKey (map.updateUpload versionId
      (recordVersion map versionId savedAt sizeBytes).1) none =
        .ok (versionKey map.objectKey versionId) := by
  have found : (normalizeVersionHistory
      (recordVersion map versionId savedAt sizeBytes).1).find?
        (·.versionId = versionId) = some (newSnapshot map versionId savedAt sizeBytes) := by
    rw [recordVersion_eq]
    have valid : ValidVersionId (newSnapshot map versionId savedAt sizeBytes).versionId :=
      unused.valid
    refine find?_normalizeVersionHistory_append valid fun snapshot kept => ?_
    exact (unused.of_mem_normalized (List.mem_of_mem_drop kept)).1 1
  simp [resolveBlobKey, unused.normalizedCurrent_recordVersion, found, pure,
    Except.pure, bind, Except.bind]

/-- Saving under one unused id leaves the others unused. -/
theorem recordVersion_other
    (unused : UnusedVersionId map versionId) (savedAt : DateTime) (sizeBytes : Int)
    {other : String} (otherUnused : UnusedVersionId map other) (differs : other ≠ versionId) :
    UnusedVersionId (map.updateUpload versionId
      (recordVersion map versionId savedAt sizeBytes).1) other where
  valid := otherUnused.valid
  unlisted := by
    rw [updateUpload_versionHistory, recordVersion_eq]
    intro snapshot present passes
    rcases List.mem_append.mp present with kept | added
    · exact (otherUnused.of_mem_normalized (List.mem_of_mem_drop kept)).1 passes
    · rw [List.mem_singleton.mp added, newSnapshot_versionId,
        Function.iterate_fixed unused.valid.normalize]
      exact differs.symm
  unnamed := by
    rw [updateUpload_versionHistory, recordVersion_eq]
    intro snapshot present
    rcases List.mem_append.mp present with kept | added
    · exact (otherUnused.of_mem_normalized (List.mem_of_mem_drop kept)).2
    · rw [List.mem_singleton.mp added, newSnapshot_objectKey]
      simpa using differs.symm
  inactive := by
    rw [unused.normalizedCurrent_recordVersion]
    simpa using differs.symm

end UnusedVersionId

/-- In a recorded row a new id is unused. -/
theorem Recorded.unused {map : StoredMindMap} (recorded : Recorded map) {versionId : String}
    (valid : ValidVersionId versionId) (new : versionId ∉ versionIds map.versionHistory) :
    UnusedVersionId map versionId where
  valid := valid
  unlisted := by
    intro snapshot stored passes
    rw [Function.iterate_fixed (recorded.valid snapshot stored).normalize]
    rintro rfl
    exact new (mem_versionIds_of_mem stored)
  unnamed := by
    intro snapshot stored
    rw [recorded.ownKey snapshot stored, ne_eq, Option.some.injEq, versionKey_inj]
    rintro rfl
    exact new (mem_versionIds_of_mem stored)
  inactive := by
    rw [recorded.normalizedCurrent_eq]
    exact fun current => new (recorded.current versionId current)

/-- Only the key, the history and the current version matter. -/
theorem UnusedVersionId.updateContent {map : StoredMindMap} {versionId : String}
    (unused : UnusedVersionId map versionId) (update : MindMapContentUpdate) :
    UnusedVersionId (map.updateContent update) versionId :=
  ⟨unused.valid, unused.unlisted, unused.unnamed, unused.inactive⟩

/-- An upload under an unused id succeeds, and is what the vault now answers. -/
theorem uploadBlob_unused (vault : VaultState) {minted : String} {body : Bytes}
    (unused : UnusedVersionId vault.row minted) (nonempty : body ≠ []) (now : DateTime) :
    let reply := uploadBlob vault minted body now
    reply.result = .ok minted ∧ CurrentIs reply.vault body ∧
      reply.vault.row = vault.row.updateUpload minted
        (recordVersion vault.row minted now body.length).1 := by
  simp only [uploadBlob, if_neg nonempty, saveVersion, true_and, and_true]
  refine ⟨_, unused.resolveBlobKey_recordVersion now body.length, ?_⟩
  simp only [recordVersion_eq]
  rw [foldl_delete_of_not_mem _ _ unused.spared, Objects.put_self]

end Vault
end MindMapVault
