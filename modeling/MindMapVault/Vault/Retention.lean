import MindMapVault.Vault.Handlers

/-!
# Retention never removes what a vault still lists

Every key a request deletes should be gone from the row it leaves behind. The
histories of all runs stay `Recorded`, so the question is decided one request
at a time: a save gives up a listed object only by confirming a version that it
also drops, and a deletion only through an id that a second normalisation
changes.
-/

namespace MindMapVault
namespace Vault

open Transition

/-- The row still lists an object, or resolves its current version to it. -/
def References (map : StoredMindMap) (objectKey : String) : Prop :=
  (∃ snapshot ∈ map.versionHistory, snapshot.objectKey = some objectKey) ∨
    resolveBlobKey map none = .ok objectKey

instance (map : StoredMindMap) (objectKey : String) :
    Decidable (References map objectKey) :=
  inferInstanceAs (Decidable (_ ∨ _))

/-- No key the request deletes is referenced by the row it leaves behind. -/
def RetentionSafe (vault : VaultState) (request : VaultRequest) (next : VaultState) : Prop :=
  ∀ objectKey ∈ (serve vault request).2, ¬ References next.row objectKey

instance (vault : VaultState) (request : VaultRequest) (next : VaultState) :
    Decidable (RetentionSafe vault request next) :=
  inferInstanceAs (Decidable (∀ _ ∈ _, _))

/-- The requests that keep retention safe: a confirmation names no version that
the same save drops, and a deletion names no listed version by an id that only
a second normalisation turns into it. -/
def KeepsRetention (vault : VaultState) : VaultRequest → Prop
  | .confirmUpload given _ =>
      ∀ versionId, validateVersionId given = .ok versionId →
        vault.objects (versionKey vault.row.objectKey versionId) ≠ none →
          versionId ∉ versionIds vault.row.retired
  | .deleteVaultVersion given =>
      ∀ versionId, validateVersionId (normalizeVersionId given) = .ok versionId →
        versionId ∈ versionIds vault.row.versionHistory → versionId = normalizeVersionId given
  | _ => True

/-- A recorded row references the keys of the versions it lists and, before the
first save, its bare key. -/
theorem Recorded.references_iff
    {map : StoredMindMap} (recorded : Recorded map) {objectKey : String} :
    References map objectKey ↔
      (∃ versionId ∈ versionIds map.versionHistory,
        objectKey = versionKey map.objectKey versionId) ∨
      (map.currentVersionId = none ∧ objectKey = map.objectKey) := by
  unfold References
  rw [recorded.resolveBlobKey_none]
  constructor
  · rintro (⟨snapshot, present, stored⟩ | current)
    · rw [recorded.ownKey snapshot present] at stored
      exact .inl ⟨_, mem_versionIds_of_mem present, (Option.some.inj stored).symm⟩
    · cases saved : map.currentVersionId with
      | none =>
          simp only [saved, Option.elim_none, Except.ok.injEq] at current
          exact .inr ⟨rfl, current.symm⟩
      | some versionId =>
          simp only [saved, Option.elim_some, Except.ok.injEq] at current
          exact .inl ⟨versionId, recorded.current versionId saved, current.symm⟩
  · rintro (⟨versionId, present, rfl⟩ | ⟨saved, rfl⟩)
    · obtain ⟨snapshot, stored, rfl⟩ := exists_mem_of_mem_versionIds present
      exact .inl ⟨snapshot, stored, recorded.ownKey snapshot stored⟩
    · exact .inr (by rw [saved]; rfl)

/-- A recorded row references a version key exactly when it lists the id. -/
theorem Recorded.references_versionKey
    {map : StoredMindMap} (recorded : Recorded map) {versionId : String} :
    References map (versionKey map.objectKey versionId) ↔
      versionId ∈ versionIds map.versionHistory := by
  rw [recorded.references_iff]
  constructor
  · rintro (⟨listed, present, same⟩ | ⟨_, bare⟩)
    · rw [versionKey_inj.mp same]
      exact present
    · exact absurd bare (versionKey_ne_objectKey _ _)
  · exact fun present => .inl ⟨versionId, present, rfl⟩

section Saves

variable {vault : VaultState}

@[simp] theorem saveVersion_row
    (versionId : String) (now : DateTime) (size : Int) :
    (saveVersion vault versionId now size).vault.row =
      vault.row.updateUpload versionId
        (recordVersion vault.row versionId now size).1 := rfl

@[simp] theorem saveVersion_deleted
    (versionId : String) (now : DateTime) (size : Int) :
    (saveVersion vault versionId now size).deleted =
      vault.row.retired.filterMap VersionSnapshot.objectKey :=
  congrArg Prod.snd (recordVersion_eq vault.row versionId now size)

/-- A save lists the retained versions and the one it adds. -/
theorem versionIds_saveVersion (versionId : String) (now : DateTime) (size : Int) :
    versionIds (saveVersion vault versionId now size).vault.row.versionHistory =
      versionIds vault.row.retained ++ [versionId] := by
  simp [recordVersion_eq]

/-- A save is safe exactly when it does not drop the version it records. -/
theorem saveVersion_safe_iff (recorded : Recorded vault.row)
    {versionId : String} (valid : ValidVersionId versionId) (now : DateTime) (size : Int) :
    (∀ objectKey ∈ (saveVersion vault versionId now size).deleted,
        ¬ References (saveVersion vault versionId now size).vault.row objectKey) ↔
      versionId ∉ versionIds vault.row.retired := by
  have saved : Recorded (saveVersion vault versionId now size).vault.row :=
    recorded.recordVersion valid now size
  have listed (dropped : String) :
      References (saveVersion vault versionId now size).vault.row
          (versionKey vault.row.objectKey dropped) ↔
        dropped ∈ versionIds vault.row.retained ++ [versionId] := by
    rw [← versionIds_saveVersion versionId now size]
    exact saved.references_versionKey
  rw [saveVersion_deleted]
  constructor
  · intro safe dropped
    refine safe _ (recorded.mem_retired_keys.mpr ⟨versionId, dropped, rfl⟩) ?_
    exact (listed versionId).mpr (by simp)
  · intro keeps objectKey given references
    obtain ⟨dropped, present, rfl⟩ := recorded.mem_retired_keys.mp given
    rcases List.mem_append.mp ((listed dropped).mp references) with kept | added
    · exact Recorded.retired_disjoint_retained present kept
    · exact keeps (List.mem_singleton.mp added ▸ present)

end Saves

/-- A refused deletion leaves nothing to object to: its path resolves to no
listed version other than the one it names. -/
theorem names_target_of_refused {vault : VaultState} {given versionId : String}
    (recorded : Recorded vault.row)
    (refused : ∀ target objectKey, deletionTarget vault.row given = .ok target →
      deletionKey vault.row target ≠ .ok objectKey)
    (validated : validateVersionId (normalizeVersionId given) = .ok versionId)
    (listed : versionId ∈ versionIds vault.row.versionHistory) :
    versionId = normalizeVersionId given := by
  have resolved :
      deletionKey vault.row (normalizeVersionId given) =
        .ok (some (versionKey vault.row.objectKey versionId)) :=
    recorded.deletionKey_eq_ok_some.mpr ⟨versionId, validated, listed, rfl⟩
  by_cases active : vault.row.normalizedCurrent = some (normalizeVersionId given)
  · have valid := recorded.valid_of_mem_versionIds
      (recorded.current _ (recorded.normalizedCurrent_eq ▸ active))
    rw [valid.validate] at validated
    exact (Except.ok.inj validated).symm
  · refine absurd resolved (refused _ _ (deletionTarget_eq_ok.mpr ⟨rfl, ?_, active⟩))
    intro empty
    rw [empty] at validated
    have same : normalizeVersionId "" = "" := by decide
    obtain ⟨normal, valid⟩ := validateVersionId_eq_ok.mp validated
    exact valid.1 (normal.symm.trans same)

/-- A deletion is safe exactly when the version whose object it removes is the
one it takes off the list. -/
theorem deleteVaultVersion_safe_iff
    {vault : VaultState} (recorded : Recorded vault.row) (given : String) :
    (∀ objectKey ∈ (deleteVaultVersion vault given).deleted,
        ¬ References (deleteVaultVersion vault given).vault.row objectKey) ↔
      KeepsRetention vault (.deleteVaultVersion given) := by
  rcases deleteVaultVersion_cases vault given with
    ⟨refused, error, answer⟩ |
    ⟨target, objectKey, accepted, resolved, deleted, written⟩
  · simp only [answer, refuse_deleted, List.not_mem_nil, false_implies,
      implies_true, true_iff]
    exact fun _ validated listed =>
      names_target_of_refused recorded refused validated listed
  · obtain ⟨rfl, _, _⟩ := deletionTarget_eq_ok.mp accepted
    rw [deleted]
    cases objectKey with
    | none =>
        simp only [Option.toList_none, List.not_mem_nil, false_implies, implies_true, true_iff]
        intro versionId validated listed
        have found := recorded.deletionKey_eq_ok_some.mpr ⟨versionId, validated, listed, rfl⟩
        simp [resolved] at found
    | some objectKey =>
        obtain ⟨versionId, validated, listed, rfl⟩ := recorded.deletionKey_eq_ok_some.mp resolved
        have condition : KeepsRetention vault (.deleteVaultVersion given) ↔
            versionId = normalizeVersionId given := by
          constructor
          · exact fun keeps => keeps versionId validated listed
          · intro names other otherValidated _
            rw [validated] at otherValidated
            exact Except.ok.inj otherValidated ▸ names
        rw [condition]
        simp only [Option.toList_some, List.mem_singleton, forall_eq]
        rcases written with ⟨unsaved, _⟩ | ⟨current, history, update, row⟩
        · rw [recorded.normalizedCurrent_eq] at unsaved
          simp [recorded.unsaved unsaved] at listed
        · rw [row]
          have saved := recorded.deletion accepted update
          rw [show ¬ References (vault.row.updateUpload current history)
              (versionKey vault.row.objectKey versionId) ↔
              ¬ versionId ∈ versionIds history from
            not_congr saved.references_versionKey,
            recorded.mem_versionIds_deletion update]
          simp [listed]

/-- Every request leaves a recorded row recorded. -/
theorem requests_recorded (vault : VaultState) (request : VaultRequest) (next : VaultState)
    (recorded : Recorded vault.row)
    (taken : requests vault request = some next) : Recorded next.row := by
  rcases requests_row taken with
    ⟨objectKey, history, current⟩ | ⟨versionId, savedAt, sizeBytes, valid, row⟩ |
      ⟨given, target, current, history, accepted, update, row⟩
  · exact recorded.congr objectKey history current
  · rw [row]
    exact recorded.recordVersion valid savedAt sizeBytes
  · rw [row]
    exact recorded.deletion accepted update

/-- A confirmation is safe exactly when the version it records is not one it
drops. -/
theorem confirmUpload_safe_iff {vault : VaultState} (recorded : Recorded vault.row)
    (given : String) (now : DateTime) :
    (∀ objectKey ∈ (confirmUpload vault given now).deleted,
        ¬ References (confirmUpload vault given now).vault.row objectKey) ↔
      KeepsRetention vault (.confirmUpload given now) := by
  rcases confirmUpload_cases vault given now with
    ⟨missing, error, answer⟩ | ⟨versionId, body, validated, stored, answer⟩
  · simp only [answer, refuse_deleted, List.not_mem_nil, false_implies,
      implies_true, true_iff]
    exact fun versionId validated present =>
      absurd (missing versionId validated) present
  · have valid := (validateVersionId_eq_ok.mp validated).2
    rw [answer, saveVersion_safe_iff recorded valid now body.length]
    constructor
    · intro keeps other otherValidated _
      rw [validated] at otherValidated
      exact Except.ok.inj otherValidated ▸ keeps
    · exact fun keeps => keeps versionId validated (by simp [stored])

/-- One request is safe exactly when it keeps retention. -/
theorem retentionSafe_step_iff (vault : VaultState) (request : VaultRequest) (next : VaultState)
    (recorded : Recorded vault.row) (taken : requests vault request = some next) :
    RetentionSafe vault request next ↔ KeepsRetention vault request := by
  obtain ⟨enabled, rfl⟩ := requests_eq_some.mp taken
  cases request with
  | uploadBlob minted body now =>
      simp only [RetentionSafe, KeepsRetention, serve, iff_true]
      unfold uploadBlob
      split_ifs
      · exact List.forall_mem_nil _
      · refine (saveVersion_safe_iff (by exact recorded) enabled.1 now _).mpr
          fun dropped => enabled.2 ?_
        obtain ⟨snapshot, present, rfl⟩ := exists_mem_of_mem_versionIds dropped
        exact mem_versionIds_of_mem (recorded.retired_subset present)
  | presignedPut versionId body =>
      simp [RetentionSafe, KeepsRetention, serve]
  | confirmUpload given now =>
      simp only [RetentionSafe, serve]
      exact confirmUpload_safe_iff recorded given now
  | deleteVaultVersion given =>
      simp only [RetentionSafe, serve]
      exact deleteVaultVersion_safe_iff recorded given
  | updateVaultMeta body now =>
      have nothing : (updateVaultMeta vault body now).deleted = [] := by
        unfold updateVaultMeta
        split <;> rfl
      simp [RetentionSafe, KeepsRetention, serve, nothing]
  | updateMindMap body minted now =>
      have nothing : (updateMindMap vault body minted now).deleted = [] := by
        unfold updateMindMap
        split <;> rfl
      simp [RetentionSafe, KeepsRetention, serve, nothing]

/-- From a fresh vault with any retention limit, every request of a run leaves
all referenced objects alone exactly when every request keeps retention. -/
theorem retentionSafe_iff_keepsRetention (id userId objectKey : String)
    (body : UpsertMindMapRequest) (now : DateTime) (maxVersions : Nat) (objects : Objects)
    (run : List VaultRequest) :
    let vault : VaultState :=
      { row :=
          { createMindMap id userId objectKey body now with
            maxVersions := maxVersions }
        objects := objects }
    EveryStep requests RetentionSafe vault run ↔
      EveryStepAllowed requests KeepsRetention vault run := by
  intro vault
  exact everyStep_congr
    (fun state request next recorded taken =>
      requests_recorded state request next recorded taken)
    (fun state request next recorded taken =>
      retentionSafe_step_iff state request next recorded taken)
    (recorded_createMindMap id userId objectKey body now maxVersions) run

/-- The second confirmation of a vault's only version deletes the object of the
version it makes current. -/
theorem retention_removes_confirmed_version :
    ¬ EveryStep requests RetentionSafe
      { row := createMindMap "map" "user" "key"
          ⟨"title", "classical", "pq", "dek"⟩ 0
        objects := fun _ => none }
      [.updateVaultMeta { maxVersions := some 1 } 1,
        .presignedPut "v1" [7],
        .confirmUpload "v1" 2,
        .confirmUpload "v1" 3] := by
  decide

end Vault
end MindMapVault
