import MindMapVault.Foundations.Remote
import MindMapVault.Foundations.Result
import MindMapVault.Vault.Concurrency

/-!
# One step of a request fails

Reading the row, the one storage call of a handler and writing the row can each fail, and a
call that fails may have been carried out all the same. An upload and a confirmation answer a
failed write by deleting the object of the version, a deletion removes the object before it
writes. Every listed version survives unless one is stored under the key that goes this way, or
the row was written for an object that is deleted again.
-/

namespace MindMapVault
namespace Vault

open Remote

/-- The steps of a handler that can fail. -/
inductive HandlerStep
  | findOwned
  | storage
  | updateMindMapUpload
  deriving DecidableEq

/-- A step that fails, and what it answers. What it was to change is changed if only its answer
was lost. -/
structure Failure where
  step : HandlerStep
  outcome : Outcome
  failed : outcome.reported = false
  error : AppError
  deriving DecidableEq

/-- The failure of a step, if it is the one that fails. -/
def failureAt (failing : Option Failure) (step : HandlerStep) : Option Failure :=
  failing.filter (·.step = step)

/-- How a step ends. -/
def outcomeAt (failing : Option Failure) (step : HandlerStep) : Outcome :=
  (failureAt failing step).elim .done Failure.outcome

/-- Write the row for a version whose object is in place. If that fails, the object is
deleted, whether the row was written or not. -/
def saveVersionOr (failing : Option Failure) (vault : VaultState) (versionId : String)
    (now : DateTime) (sizeBytes : Int) : Reply String :=
  let objectKey := versionKey vault.row.objectKey versionId
  match failureAt failing .updateMindMapUpload with
  | some failure =>
      let versionHistory := (recordVersion vault.row versionId now sizeBytes).1
      { result := .error failure.error
        vault :=
          { row := failure.outcome.applied (·.updateUpload versionId versionHistory) vault.row
            objects := vault.objects.delete objectKey }
        deleted := [objectKey] }
  | none => saveVersion vault versionId now sizeBytes

/-- `POST /{id}/upload`. -/
def uploadBlobOr (failing : Option Failure) (vault : VaultState) (minted : String)
    (body : Bytes) (now : DateTime) : Reply String :=
  if body = [] then
    refuse vault (.badRequest "blob is required")
  else
    match failureAt failing .findOwned with
    | some failure => refuse vault failure.error
    | none =>
        let objectKey := versionKey vault.row.objectKey minted
        match failureAt failing .storage with
        | some failure =>
            { result := .error failure.error
              vault :=
                { vault with
                  objects := failure.outcome.applied (·.put objectKey body) vault.objects }
              deleted := [] }
        | none =>
            saveVersionOr failing
              { vault with objects := vault.objects.put objectKey body }
              minted now body.length

/-- `POST /{id}/confirm-upload`. -/
def confirmUploadOr (failing : Option Failure) (vault : VaultState) (versionId : String)
    (now : DateTime) : Reply String :=
  if versionId = "" then
    refuse vault (.badRequest "version_id is required")
  else
    match failureAt failing .findOwned with
    | some failure => refuse vault failure.error
    | none =>
        match validateVersionId versionId with
        | .error error => refuse vault error
        | .ok verifiedVid =>
            match failureAt failing .storage with
            | some failure => refuse vault failure.error
            | none =>
                match vault.objects.headSize (versionKey vault.row.objectKey verifiedVid) with
                | .error error => refuse vault error
                | .ok sizeBytes => saveVersionOr failing vault verifiedVid now sizeBytes

/-- The deletion of the target's object. A version without one has nothing to delete, and
nothing to fail. -/
def deleteTarget (failing : Option Failure)
    (objects : Objects) : Option String → Objects × Except AppError Unit
  | none => (objects, .ok ())
  | some objectKey =>
      match failureAt failing .storage with
      | some failure =>
          (failure.outcome.applied (·.delete objectKey) objects, .error failure.error)
      | none => (objects.delete objectKey, .ok ())

/-- The row after a deletion, which is not written if it has no current version. -/
def writeRow (failing : Option Failure) (map : StoredMindMap)
    (target : String) : StoredMindMap × Except AppError Unit :=
  match deletionRow map target with
  | .error error => (map, .error error)
  | .ok (current, filteredHistory) =>
      match failureAt failing .updateMindMapUpload with
      | some failure =>
          (failure.outcome.applied (·.updateUpload current filteredHistory) map,
            .error failure.error)
      | none => (map.updateUpload current filteredHistory, .ok ())

/-- `DELETE /{id}/versions/{version_id}`. -/
def deleteVaultVersionOr (failing : Option Failure) (vault : VaultState)
    (versionId : String) : Reply Unit :=
  match failureAt failing .findOwned with
  | some failure => refuse vault failure.error
  | none =>
      match deletionTarget vault.row versionId with
      | .error error => refuse vault error
      | .ok target =>
          match deletionKey vault.row target with
          | .error error => refuse vault error
          | .ok objectKey =>
              match deleteTarget failing vault.objects objectKey with
              | (objects, .error error) =>
                  { result := .error error
                    vault := { vault with objects := objects }
                    deleted := objectKey.toList }
              | (objects, .ok ()) =>
                  let written := writeRow failing vault.row target
                  { result := written.2
                    vault := { row := written.1, objects := objects }
                    deleted := objectKey.toList }

/-- The ids `GET /{id}/versions` answers with, unordered: those of the history, and the
current one. -/
def StoredMindMap.listVersions (map : StoredMindMap) : List String :=
  let history := versionIds (normalizeVersionHistory map.versionHistory)
  match map.normalizedCurrent with
  | some current => if current ∈ history then history else history ++ [current]
  | none => history

/-- What a client can ask for: the current version and each listed one. -/
def StoredMindMap.downloads (map : StoredMindMap) : List (Option String) :=
  none :: map.listVersions.map some

/-- The bytes a download answers with. -/
def VaultState.download (vault : VaultState) (versionId : Option String) :
    Option Bytes :=
  (resolveBlobKey vault.row versionId).toOption.bind vault.objects

/-- All that the row lists afterwards and could be downloaded before still can be, with
the same bytes, and what it lists only since has an object. -/
structure KeepsDownloads (before after : VaultState) : Prop where
  kept : ∀ versionId ∈ after.row.downloads, ∀ body,
    before.download versionId = some body → after.download versionId = some body
  stored : ∀ versionId ∈ after.row.listVersions, versionId ∉ before.row.listVersions →
    after.download (some versionId) ≠ none

/-- A request that answers with an error leaves every download as it was. -/
def Reply.KeepsOnError {α : Type} (reply : Reply α) (before : VaultState) : Prop :=
  ∀ error, reply.result = .error error → KeepsDownloads before reply.vault

/-- `KeepsOnError` of a request, when a step of it may fail. -/
def ErrorKeepsDownloads (failing : Option Failure) (vault : VaultState)
    (now : DateTime) : VersionRequest → Prop
  | .uploadBlob minted body => (uploadBlobOr failing vault minted body now).KeepsOnError vault
  | .confirmUpload versionId =>
      (confirmUploadOr failing vault versionId now).KeepsOnError vault
  | .deleteVaultVersion versionId =>
      (deleteVaultVersionOr failing vault versionId).KeepsOnError vault

/-- A version that can be downloaded is stored under the key. -/
def VaultState.HoldsDownload (vault : VaultState) (objectKey : String) : Prop :=
  vault.objects objectKey ≠ none ∧
    ∃ versionId ∈ vault.row.downloads, resolveBlobKey vault.row versionId = .ok objectKey

/-- A version other than the one that is deleted is stored under the key. -/
def VaultState.HoldsOther (vault : VaultState) (target objectKey : String) : Prop :=
  ∃ versionId ∈ vault.row.downloads, versionId ≠ some target ∧
    resolveBlobKey vault.row versionId = .ok objectKey

/-- The ids the row lists are read back as they are written. -/
def StoredMindMap.Stable (map : StoredMindMap) : Prop :=
  ∀ versionId ∈ map.listVersions, normalizeVersionId versionId = versionId

/-- The failures a request survives. A row write that fails takes the object of the version
with it, so an upload or a confirmation needs one that no listed version is stored under, and a
write that was not carried out; a deletion that finds the object has to get through with the
row. -/
def SparesDownloads (failing : Option Failure) (vault : VaultState) : VersionRequest → Prop
  | .uploadBlob minted body =>
      let objectKey := versionKey vault.row.objectKey minted
      body ≠ [] →
        (outcomeAt failing .storage = .unanswered → vault.HoldsDownload objectKey →
            vault.objects objectKey = some body) ∧
          (outcomeAt failing .updateMindMapUpload = .refused → ¬ vault.HoldsDownload objectKey) ∧
          outcomeAt failing .updateMindMapUpload ≠ .unanswered
  | .confirmUpload versionId =>
      ∀ verifiedVid, validateVersionId versionId = .ok verifiedVid →
        let objectKey := versionKey vault.row.objectKey verifiedVid
        (outcomeAt failing .updateMindMapUpload = .refused →
            ¬ vault.HoldsDownload objectKey) ∧
          (outcomeAt failing .updateMindMapUpload = .unanswered → vault.objects objectKey = none)
  | .deleteVaultVersion versionId =>
      ∀ target, deletionTarget vault.row versionId = .ok target →
        ∀ found, deletionKey vault.row target = .ok found →
          (outcomeAt failing .updateMindMapUpload = .unanswered → vault.row.Stable) ∧
            ∀ objectKey ∈ found, vault.objects objectKey ≠ none →
              outcomeAt failing .findOwned ≠ .done ∨
                outcomeAt failing .storage = .refused ∨
                  outcomeAt failing .storage = .done ∧ vault.row.normalizedCurrent ≠ none ∧
                    outcomeAt failing .updateMindMapUpload ≠ .refused ∧
                      (outcomeAt failing .updateMindMapUpload = .unanswered →
                        ¬ vault.HoldsOther target objectKey)

section Keeps

/-- Where the row is left alone, every download is to be what it was. -/
theorem keepsDownloads_objects_iff {vault : VaultState} {objects : Objects} :
    KeepsDownloads vault { vault with objects := objects } ↔
      ∀ versionId ∈ vault.row.downloads, ∀ body, vault.download versionId = some body →
        VaultState.download { vault with objects := objects } versionId = some body :=
  ⟨fun keeps => keeps.kept, fun kept => ⟨kept, fun _ listed unlisted => absurd listed unlisted⟩⟩

/-- A vault that is left alone keeps its downloads. -/
theorem KeepsDownloads.refl (vault : VaultState) : KeepsDownloads vault vault :=
  keepsDownloads_objects_iff.mpr fun _ _ _ stored => stored

/-- What a version is stored under, and that it is there. -/
theorem download_eq_some {vault : VaultState} {versionId : Option String} {body : Bytes} :
    vault.download versionId = some body ↔
      ∃ objectKey, resolveBlobKey vault.row versionId = .ok objectKey ∧
        vault.objects objectKey = some body := by
  refine Option.bind_eq_some_iff.trans (exists_congr fun objectKey => ?_)
  rw [Result.toOption_eq_some]

/-- Deleting an object keeps the downloads exactly if none of them is stored there. -/
theorem keepsDownloads_delete_iff (vault : VaultState) (objectKey : String) :
    KeepsDownloads vault { vault with objects := vault.objects.delete objectKey } ↔
      ¬ vault.HoldsDownload objectKey := by
  rw [keepsDownloads_objects_iff]
  constructor
  · rintro kept ⟨present, versionId, listed, resolved⟩
    obtain ⟨body, stored⟩ := Option.ne_none_iff_exists'.mp present
    have before := download_eq_some.mpr ⟨objectKey, resolved, stored⟩
    obtain ⟨other, found, left⟩ := download_eq_some.mp (kept versionId listed body before)
    cases resolved.symm.trans found
    simp at left
  · intro spared versionId listed body before
    obtain ⟨other, resolved, stored⟩ := download_eq_some.mp before
    refine download_eq_some.mpr ⟨other, resolved, ?_⟩
    have differs : other ≠ objectKey := by
      rintro rfl
      exact spared ⟨by rw [stored]; simp, versionId, listed, resolved⟩
    exact (vault.objects.delete_of_ne differs).trans stored

/-- Putting an object keeps the downloads exactly if those stored there have the same bytes. -/
theorem keepsDownloads_put_iff (vault : VaultState) (objectKey : String) (body : Bytes) :
    KeepsDownloads vault { vault with objects := vault.objects.put objectKey body } ↔
      (vault.HoldsDownload objectKey → vault.objects objectKey = some body) := by
  rw [keepsDownloads_objects_iff]
  constructor
  · rintro kept ⟨present, versionId, listed, resolved⟩
    obtain ⟨before, stored⟩ := Option.ne_none_iff_exists'.mp present
    have downloaded := download_eq_some.mpr ⟨objectKey, resolved, stored⟩
    obtain ⟨other, found, left⟩ := download_eq_some.mp (kept versionId listed before downloaded)
    cases resolved.symm.trans found
    rw [stored, ← left]
    exact Objects.put_self _ _ _
  · intro same versionId listed before downloaded
    obtain ⟨other, resolved, stored⟩ := download_eq_some.mp downloaded
    refine download_eq_some.mpr ⟨other, resolved, ?_⟩
    by_cases here : other = objectKey
    · subst here
      have unchanged := same ⟨by rw [stored]; simp, versionId, listed, resolved⟩
      rw [stored] at unchanged
      exact (Objects.put_self _ _ _).trans unchanged.symm
    · exact (vault.objects.put_of_ne body here).trans stored

/-- What is listed is in the history, or current. -/
theorem mem_listVersions {map : StoredMindMap} {versionId : String} :
    versionId ∈ map.listVersions ↔
      versionId ∈ versionIds (normalizeVersionHistory map.versionHistory) ∨
        map.normalizedCurrent = some versionId := by
  unfold StoredMindMap.listVersions
  cases map.normalizedCurrent with
  | none => simp
  | some current =>
      simp only [Option.some.injEq]
      split_ifs with listed
      · exact ⟨.inl, fun either => either.elim id fun same => same ▸ listed⟩
      · rw [List.mem_append, List.mem_singleton]
        exact or_congr_right eq_comm

/-- What an id resolves to is listed: it is in the history, or current. -/
theorem mem_listVersions_of_resolveBlobKey {map : StoredMindMap} {given objectKey : String}
    (resolved : resolveBlobKey map (some given) = .ok objectKey) :
    ∃ versionId ∈ map.listVersions, resolveBlobKey map (some versionId) = .ok objectKey := by
  cases validated : validateVersionId given with
  | error error =>
      simp [resolveBlobKey, validated, Except.map, bind, Except.bind] at resolved
  | ok wanted =>
      have again : validateVersionId wanted = .ok wanted :=
        (validateVersionId_eq_ok.mp validated).2.validate
      have same : resolveBlobKey map (some wanted) = resolveBlobKey map (some given) := by
        simp only [resolveBlobKey, validated, again]
      refine ⟨wanted, ?_, same.trans resolved⟩
      cases found : (normalizeVersionHistory map.versionHistory).find? (·.versionId = wanted) with
      | some snapshot =>
          have named : snapshot.versionId = wanted := by
            simpa using List.find?_some found
          rw [← named]
          exact mem_listVersions.mpr
            (.inl (mem_versionIds_of_mem (List.mem_of_find?_eq_some found)))
      | none =>
          have current : map.normalizedCurrent = some wanted := by
            by_contra other
            simp [resolveBlobKey, validated, Except.map, bind, Except.bind, found, other,
              throw, throwThe, MonadExceptOf.throw] at resolved
          exact mem_listVersions.mpr (.inr current)

/-- The object a deletion takes is one that the row lists. -/
theorem holdsDownload_of_deletionKey {vault : VaultState} {target objectKey : String}
    (resolved : deletionKey vault.row target = .ok (some objectKey))
    (stored : vault.objects objectKey ≠ none) : vault.HoldsDownload objectKey := by
  have found : resolveBlobKey vault.row (some target) = .ok objectKey := by
    unfold deletionKey at resolved
    cases answered : resolveBlobKey vault.row (some target) with
    | ok other =>
        simp only [answered, Except.ok.injEq, Option.some.injEq] at resolved
        rw [resolved]
    | error error => cases error <;> simp [answered] at resolved
  obtain ⟨versionId, listed, same⟩ := mem_listVersions_of_resolveBlobKey found
  refine ⟨stored, some versionId, ?_, same⟩
  exact List.mem_cons_of_mem _ (List.mem_map_of_mem listed)

/-- The entries that a deletion keeps are read back as they are. -/
theorem normalizeVersionHistory_filter {map : StoredMindMap} (stable : map.Stable)
    (target : String) :
    normalizeVersionHistory ((normalizeVersionHistory map.versionHistory).filter
        (·.versionId ≠ target)) =
      (normalizeVersionHistory map.versionHistory).filter (·.versionId ≠ target) := by
  have fewer : (versionIds ((normalizeVersionHistory map.versionHistory).filter
      (·.versionId ≠ target))).Sublist (versionIds (normalizeVersionHistory map.versionHistory)) :=
    (List.filter_sublist).map _
  refine normalizeVersionHistoryFrom_eq_self ?_ ?_ (fun _ _ => List.not_mem_nil) ?_
  · exact fun versionId present =>
      stable versionId (mem_listVersions.mpr (.inl (fewer.subset present)))
  · intro empty
    exact (mem_versionIds_normalizeVersionHistoryFrom.mp (fewer.subset empty)).1 rfl
  · exact fewer.nodup (nodup_versionIds_normalizeVersionHistory _)

/-- Reading a version looks for one entry of the history. -/
theorem resolveBlobKey_congr {map other : StoredMindMap} {versionId : Option String}
    (objectKey : other.objectKey = map.objectKey)
    (current : other.normalizedCurrent = map.normalizedCurrent)
    (found : ∀ wanted, versionId.elim map.normalizedCurrent
        (fun given => (validateVersionId given).toOption) = some wanted →
      (normalizeVersionHistory other.versionHistory).find? (·.versionId = wanted) =
        (normalizeVersionHistory map.versionHistory).find? (·.versionId = wanted)) :
    resolveBlobKey other versionId = resolveBlobKey map versionId := by
  cases versionId with
  | none =>
      cases active : map.normalizedCurrent with
      | none => simp only [resolveBlobKey, objectKey, current, active, bind, Except.bind, pure,
          Except.pure]
      | some wanted =>
          simp only [resolveBlobKey, objectKey, current, active, bind, Except.bind, pure,
            Except.pure, found wanted active]
  | some given =>
      cases validated : validateVersionId given with
      | error error => simp only [resolveBlobKey, validated, Except.map, bind, Except.bind]
      | ok wanted =>
          have same := found wanted (by simp only [Option.elim_some, validated, Except.toOption])
          simp only [resolveBlobKey, validated, Except.map, bind, Except.bind, objectKey, current,
            same]

section Rewritten

variable {map : StoredMindMap} {target current : String} {history : List VersionSnapshot}

/-- The row that is rewritten without the target has the current version it had. -/
theorem normalizedCurrent_deletion (stable : map.Stable)
    (written : deletionRow map target = .ok (current, history)) :
    (map.updateUpload current history).normalizedCurrent = map.normalizedCurrent := by
  obtain ⟨active, rfl⟩ := deletionRow_eq_ok.mp written
  have nonempty : current ≠ "" := by
    rintro rfl
    simp [StoredMindMap.normalizedCurrent, Option.filter_eq_some_iff] at active
  rw [active]
  simp [StoredMindMap.normalizedCurrent, stable current (mem_listVersions.mpr (.inr active)),
    nonempty]

/-- It lists everything but the target. -/
theorem mem_downloads_deletion (stable : map.Stable)
    (inactive : map.normalizedCurrent ≠ some target)
    (written : deletionRow map target = .ok (current, history)) {versionId : Option String} :
    versionId ∈ (map.updateUpload current history).downloads ↔
      versionId ∈ map.downloads ∧ versionId ≠ some target := by
  have same := normalizedCurrent_deletion stable written
  obtain ⟨active, rfl⟩ := deletionRow_eq_ok.mp written
  cases versionId with
  | none => simp [StoredMindMap.downloads]
  | some given =>
      have listed : ∀ other : StoredMindMap,
          some given ∈ other.downloads ↔ given ∈ other.listVersions := by
        intro other
        simp [StoredMindMap.downloads]
      rw [listed, listed, mem_listVersions, mem_listVersions, same, updateUpload_versionHistory,
        normalizeVersionHistory_filter stable target]
      have filtered : given ∈ versionIds ((normalizeVersionHistory map.versionHistory).filter
          (·.versionId ≠ target)) ↔
            given ∈ versionIds (normalizeVersionHistory map.versionHistory) ∧ given ≠ target := by
        simp only [versionIds, List.mem_map, List.mem_filter, decide_eq_true_eq]
        constructor
        · rintro ⟨snapshot, ⟨stored, differs⟩, rfl⟩
          exact ⟨⟨snapshot, stored, rfl⟩, differs⟩
        · rintro ⟨⟨snapshot, stored, rfl⟩, differs⟩
          exact ⟨snapshot, ⟨stored, differs⟩, rfl⟩
      rw [filtered]
      constructor
      · rintro (⟨present, differs⟩ | isCurrent)
        · exact ⟨.inl present, by simpa using differs⟩
        · refine ⟨.inr isCurrent, ?_⟩
          rintro ⟨⟩
          exact inactive isCurrent
      · rintro ⟨present | isCurrent, differs⟩
        · exact .inl ⟨present, by simpa using differs⟩
        · exact .inr isCurrent

/-- What it lists is read as it was. -/
theorem resolveBlobKey_deletion (stable : map.Stable)
    (inactive : map.normalizedCurrent ≠ some target)
    (written : deletionRow map target = .ok (current, history)) {versionId : Option String}
    (listed : versionId ∈ map.downloads) (differs : versionId ≠ some target) :
    resolveBlobKey (map.updateUpload current history) versionId = resolveBlobKey map versionId := by
  have same := normalizedCurrent_deletion stable written
  obtain ⟨active, rfl⟩ := deletionRow_eq_ok.mp written
  refine resolveBlobKey_congr rfl same fun wanted asked => ?_
  have other : wanted ≠ target := by
    rintro rfl
    cases versionId with
    | none => exact inactive asked
    | some given =>
        rw [Option.elim_some, Result.toOption_eq_some] at asked
        have isListed : given ∈ map.listVersions := by simpa [StoredMindMap.downloads] using listed
        have given_eq : given = wanted :=
          (stable given isListed).symm.trans (validateVersionId_eq_ok.mp asked).1
        exact differs (congrArg some given_eq)
  rw [updateUpload_versionHistory, normalizeVersionHistory_filter stable target, List.find?_filter]
  refine congrArg (List.find? · _) (funext fun snapshot => ?_)
  by_cases same : snapshot.versionId = wanted
  · simp [same, other]
  · simp [same]

/-- Where the row is rewritten and an object deleted, the downloads are kept exactly if no
version beside the target is stored there. -/
theorem keepsDownloads_deletion_iff {vault : VaultState} {objects : Objects}
    (stable : vault.row.Stable) (inactive : vault.row.normalizedCurrent ≠ some target)
    (written : deletionRow vault.row target = .ok (current, history)) :
    KeepsDownloads vault
        { row := vault.row.updateUpload current history, objects := objects } ↔
      ∀ versionId ∈ vault.row.downloads, versionId ≠ some target → ∀ objectKey body,
        resolveBlobKey vault.row versionId = .ok objectKey →
          vault.objects objectKey = some body → objects objectKey = some body := by
  constructor
  · intro keeps versionId listed differs objectKey body resolved stored
    obtain ⟨other, found, left⟩ := download_eq_some.mp (keeps.kept versionId
      ((mem_downloads_deletion stable inactive written).mpr ⟨listed, differs⟩) body
        (download_eq_some.mpr ⟨objectKey, resolved, stored⟩))
    rw [resolveBlobKey_deletion stable inactive written listed differs, resolved] at found
    cases found
    exact left
  · intro kept
    refine ⟨fun versionId listed body downloaded => ?_, fun versionId listed unlisted => ?_⟩
    · obtain ⟨before, differs⟩ := (mem_downloads_deletion stable inactive written).mp listed
      obtain ⟨objectKey, resolved, stored⟩ := download_eq_some.mp downloaded
      exact download_eq_some.mpr ⟨objectKey,
        (resolveBlobKey_deletion stable inactive written before differs).trans resolved,
        kept versionId before differs objectKey body resolved stored⟩
    · have before := (mem_downloads_deletion stable inactive written).mp
        (List.mem_cons_of_mem _ (List.mem_map_of_mem listed))
      exact absurd (by simpa [StoredMindMap.downloads] using before.1) unlisted

end Rewritten

end Keeps

section NoFailure

@[simp] theorem failureAt_none (step : HandlerStep) : failureAt none step = none := rfl

/-- With no failing step this is the upload handler. -/
theorem uploadBlobOr_none (vault : VaultState) (minted : String) (body : Bytes) (now : DateTime) :
    uploadBlobOr none vault minted body now = uploadBlob vault minted body now := by
  by_cases empty : body = []
  · simp only [uploadBlobOr, uploadBlob, empty, if_true]
  · simp only [uploadBlobOr, uploadBlob, empty, if_false, failureAt_none, saveVersionOr]

/-- With no failing step this is the confirmation handler. -/
theorem confirmUploadOr_none (vault : VaultState) (versionId : String) (now : DateTime) :
    confirmUploadOr none vault versionId now = confirmUpload vault versionId now := by
  unfold confirmUploadOr confirmUpload
  by_cases empty : versionId = ""
  · rw [if_pos empty, if_pos empty]
  · rw [if_neg empty, if_neg empty]
    cases validateVersionId versionId with
    | error error => rfl
    | ok verifiedVid =>
        cases vault.objects.headSize (versionKey vault.row.objectKey verifiedVid) with
        | error error => rfl
        | ok sizeBytes => rfl

/-- With no failing step this is the deletion handler. -/
theorem deleteVaultVersionOr_none (vault : VaultState) (versionId : String) :
    deleteVaultVersionOr none vault versionId = deleteVaultVersion vault versionId := by
  unfold deleteVaultVersionOr deleteVaultVersion
  cases deletionTarget vault.row versionId with
  | error error => rfl
  | ok target =>
      simp only [failureAt_none, writeRow]
      cases deletionKey vault.row target with
      | error error => rfl
      | ok objectKey =>
          cases deletionRow vault.row target with
          | error error => cases objectKey <;> rfl
          | ok row => cases objectKey <;> rfl

end NoFailure

section Failing

variable {failing : Option Failure} {vault : VaultState} {step : HandlerStep}

theorem outcomeAt_eq_done (succeeds : failureAt failing step = none) :
    outcomeAt failing step = .done := by
  rw [outcomeAt, succeeds]
  rfl

theorem outcomeAt_eq {failure : Failure} (fails : failureAt failing step = some failure) :
    outcomeAt failing step = failure.outcome := by
  rw [outcomeAt, fails]
  rfl

/-- A step that fails was refused, or its answer was lost. -/
theorem Failure.outcome_cases (failure : Failure) :
    failure.outcome = .refused ∨ failure.outcome = .unanswered := by
  have failed := failure.failed
  cases outcome : failure.outcome with
  | done => simp [outcome, Outcome.reported] at failed
  | refused => exact .inl rfl
  | unanswered => exact .inr rfl

theorem exists_failure (unanswered : outcomeAt failing step = .unanswered) :
    ∃ failure, failureAt failing step = some failure ∧ failure.outcome = .unanswered := by
  cases fails : failureAt failing step with
  | none => simp [outcomeAt_eq_done fails] at unanswered
  | some failure => exact ⟨failure, rfl, (outcomeAt_eq fails).symm.trans unanswered⟩

/-- Only one step fails. -/
theorem failureAt_other {failure : Failure} (fails : failureAt failing step = some failure)
    (other : HandlerStep) (differs : step ≠ other) : failureAt failing other = none := by
  obtain ⟨present, named⟩ := Option.filter_eq_some_iff.mp fails
  rw [decide_eq_true_eq] at named
  have spared : (failure.step = other) = False :=
    eq_false fun same => differs (named.symm.trans same)
  simp only [failureAt, present, Option.filter_some, spared, decide_false]
  rfl

theorem outcomeAt_other {failure : Failure} (fails : failureAt failing step = some failure)
    (other : HandlerStep) (differs : step ≠ other) : outcomeAt failing other = .done :=
  outcomeAt_eq_done (failureAt_other fails other differs)

/-- A request that is refused keeps everything. -/
theorem keepsOnError_refuse {α : Type} (vault : VaultState) (error : AppError) :
    (refuse vault error : Reply α).KeepsOnError vault :=
  fun _ _ => .refl vault

/-- An error is answered: what is left behind has to keep the downloads. -/
theorem keepsOnError_iff {α : Type} {reply : Reply α} {error : AppError}
    (answered : reply.result = .error error) :
    reply.KeepsOnError vault ↔ KeepsDownloads vault reply.vault :=
  ⟨fun keeps => keeps error answered, fun keeps _ _ => keeps⟩

/-- What a save leaves behind whose row write fails. -/
theorem saveVersionOr_fails {failure : Failure} (versionId : String) (now : DateTime)
    (sizeBytes : Int) (fails : failureAt failing .updateMindMapUpload = some failure) :
    saveVersionOr failing vault versionId now sizeBytes =
      { result := .error failure.error
        vault :=
          { row := failure.outcome.applied
              (·.updateUpload versionId (recordVersion vault.row versionId now sizeBytes).1)
              vault.row
            objects := vault.objects.delete (versionKey vault.row.objectKey versionId) }
        deleted := [versionKey vault.row.objectKey versionId] } := by
  simp only [saveVersionOr, fails]

/-- A save whose row write is not carried out unheard keeps the downloads unless it is refused
and one is stored under its key. -/
theorem keepsOnError_saveVersionOr_iff {before : VaultState} (versionId : String)
    (now : DateTime) (sizeBytes : Int)
    (answered : outcomeAt failing .updateMindMapUpload ≠ .unanswered) :
    (saveVersionOr failing vault versionId now sizeBytes).KeepsOnError before ↔
      (outcomeAt failing .updateMindMapUpload = .refused →
        KeepsDownloads before
          { vault with
            objects := vault.objects.delete (versionKey vault.row.objectKey versionId) }) := by
  cases fails : failureAt failing .updateMindMapUpload with
  | none =>
      rw [outcomeAt_eq_done fails]
      simp only [Reply.KeepsOnError, saveVersionOr, fails, saveVersion, reduceCtorEq,
        false_implies, implies_true]
  | some failure =>
      rw [outcomeAt_eq fails] at answered ⊢
      have refused : failure.outcome = .refused := failure.outcome_cases.resolve_right answered
      rw [saveVersionOr_fails versionId now sizeBytes fails, keepsOnError_iff rfl, refused]
      exact ⟨fun keeps _ => keeps, fun keeps => keeps rfl⟩

/-- Undoing an upload leaves the bucket without the object, whatever was there before. -/
theorem delete_put (objects : Objects) (objectKey : String) (body : Bytes) :
    (objects.put objectKey body).delete objectKey = objects.delete objectKey := by
  funext other
  by_cases same : other = objectKey
  · subst same
    simp only [Objects.delete_self]
  · simp only [Objects.delete_of_ne _ same, Objects.put_of_ne _ _ same]

variable (vault) in
/-- An upload whose row write is not carried out unheard. -/
theorem keepsOnError_uploadBlobOr_iff (minted : String) (body : Bytes) (now : DateTime)
    (answered : outcomeAt failing .updateMindMapUpload ≠ .unanswered) :
    (uploadBlobOr failing vault minted body now).KeepsOnError vault ↔
      SparesDownloads failing vault (.uploadBlob minted body) := by
  unfold uploadBlobOr
  simp only [SparesDownloads, ne_eq, answered, not_false_eq_true, and_true]
  by_cases empty : body = []
  · rw [if_pos empty]
    exact iff_of_true (keepsOnError_refuse vault _) fun nonempty => absurd empty nonempty
  · simp only [empty, if_false, not_false_eq_true, true_implies]
    cases read : failureAt failing .findOwned with
    | some failure =>
        simp only [outcomeAt_other read .storage (by decide),
          outcomeAt_other read .updateMindMapUpload (by decide), reduceCtorEq, false_implies,
          and_self, iff_true]
        exact keepsOnError_refuse vault failure.error
    | none =>
        cases stored : failureAt failing .storage with
        | some failure =>
            simp only [outcomeAt_other stored .updateMindMapUpload (by decide),
              outcomeAt_eq stored, reduceCtorEq, false_implies, and_true]
            rw [keepsOnError_iff rfl]
            rcases failure.outcome_cases with refused | unanswered
            · simp only [refused, Outcome.applied_refused, reduceCtorEq, false_implies, iff_true]
              exact .refl vault
            · simp only [unanswered, Outcome.applied_unanswered, true_implies]
              exact keepsDownloads_put_iff vault _ body
        | none =>
            simp only [outcomeAt_eq_done stored, reduceCtorEq, false_implies, true_and]
            rw [keepsOnError_saveVersionOr_iff _ _ _ answered]
            simp only [delete_put]
            rw [keepsDownloads_delete_iff]

variable (vault) in
/-- A confirmation whose row write is not carried out unheard. -/
theorem keepsOnError_confirmUploadOr_iff (versionId : String) (now : DateTime)
    (answered : outcomeAt failing .updateMindMapUpload ≠ .unanswered) :
    (confirmUploadOr failing vault versionId now).KeepsOnError vault ↔
      SparesDownloads failing vault (.confirmUpload versionId) := by
  unfold confirmUploadOr
  simp only [SparesDownloads, answered, false_implies, and_true]
  by_cases empty : versionId = ""
  · rw [if_pos empty]
    refine iff_of_true (keepsOnError_refuse vault _) fun verifiedVid validated => ?_
    obtain ⟨same, valid⟩ := validateVersionId_eq_ok.mp validated
    subst empty
    exact absurd same.symm valid.1
  · rw [if_neg empty]
    cases read : failureAt failing .findOwned with
    | some failure =>
        simp only [outcomeAt_other read .updateMindMapUpload (by decide), reduceCtorEq,
          false_implies, implies_true, iff_true]
        exact keepsOnError_refuse vault failure.error
    | none =>
        cases validated : validateVersionId versionId with
        | error error =>
            exact iff_of_true (keepsOnError_refuse vault error) fun _ accepted => by
              simp at accepted
        | ok verifiedVid =>
            simp only [Except.ok.injEq, forall_eq']
            cases asked : failureAt failing .storage with
            | some failure =>
                simp only [outcomeAt_other asked .updateMindMapUpload (by decide), reduceCtorEq,
                  false_implies, iff_true]
                exact keepsOnError_refuse vault failure.error
            | none =>
                simp only
                cases present : vault.objects (versionKey vault.row.objectKey verifiedVid) with
                | none =>
                    rw [Objects.headSize_eq_error present]
                    exact iff_of_true (keepsOnError_refuse vault _) fun _ holds => holds.1 present
                | some body =>
                    rw [Objects.headSize_eq_ok.mpr ⟨body, present, rfl⟩]
                    simp only
                    rw [keepsOnError_saveVersionOr_iff _ _ _ answered, keepsDownloads_delete_iff]

/-- What a deletion leaves of the row and answers, once its object has been dealt with. -/
theorem keepsOnError_writeRow_iff {objects : Objects} {target : String} {deleted : List String}
    (inactive : vault.row.normalizedCurrent ≠ some target)
    (stable : outcomeAt failing .updateMindMapUpload = .unanswered → vault.row.Stable) :
    (Reply.mk (writeRow failing vault.row target).2
        { row := (writeRow failing vault.row target).1, objects := objects }
        deleted).KeepsOnError vault ↔
      (vault.row.normalizedCurrent = none ∨
          outcomeAt failing .updateMindMapUpload = .refused →
        KeepsDownloads vault { vault with objects := objects }) ∧
      (vault.row.normalizedCurrent ≠ none →
        outcomeAt failing .updateMindMapUpload = .unanswered →
          ∀ versionId ∈ vault.row.downloads, versionId ≠ some target → ∀ objectKey body,
            resolveBlobKey vault.row versionId = .ok objectKey →
              vault.objects objectKey = some body → objects objectKey = some body) := by
  cases current : vault.row.normalizedCurrent with
  | none =>
      have refused : deletionRow vault.row target = .error (.badRequest
          "Current active version is missing from vault metadata.") := by
        simp only [deletionRow, current]
      simp only [writeRow, refused, true_or, true_implies, ne_eq, not_true_eq_false,
        false_implies, and_true]
      exact keepsOnError_iff rfl
  | some active =>
      have written : deletionRow vault.row target = .ok (active,
          (normalizeVersionHistory vault.row.versionHistory).filter (·.versionId ≠ target)) := by
        simp only [deletionRow, current]
      simp only [writeRow, written, reduceCtorEq, false_or, ne_eq, not_false_eq_true, true_implies]
      cases fails : failureAt failing .updateMindMapUpload with
      | none =>
          simp only [outcomeAt_eq_done fails, reduceCtorEq, false_implies, and_self, iff_true]
          exact fun _ failed => by cases failed
      | some failure =>
          simp only [outcomeAt_eq fails] at stable ⊢
          rw [keepsOnError_iff rfl]
          rcases failure.outcome_cases with refused | unanswered
          · simp only [refused, Outcome.applied_refused, true_implies, reduceCtorEq,
              false_implies, and_true]
          · simp only [unanswered, Outcome.applied_unanswered, reduceCtorEq, false_implies,
              true_implies, true_and]
            exact keepsDownloads_deletion_iff (stable unanswered) inactive written

/-- Without an object the other versions are downloaded as they were exactly if none of them is
stored there. -/
theorem others_delete_iff {target objectKey : String} :
    (∀ versionId ∈ vault.row.downloads, versionId ≠ some target → ∀ other body,
        resolveBlobKey vault.row versionId = .ok other → vault.objects other = some body →
          vault.objects.delete objectKey other = some body) ↔
      (vault.objects objectKey ≠ none → ¬ vault.HoldsOther target objectKey) := by
  constructor
  · rintro kept present ⟨versionId, listed, differs, resolved⟩
    obtain ⟨body, stored⟩ := Option.ne_none_iff_exists'.mp present
    have left := kept versionId listed differs objectKey body resolved stored
    simp at left
  · intro alone versionId listed differs other body resolved stored
    have elsewhere : other ≠ objectKey := by
      rintro rfl
      exact alone (by rw [stored]; simp) ⟨versionId, listed, differs, resolved⟩
    exact (vault.objects.delete_of_ne elsewhere).trans stored

variable (vault) in
/-- A deletion of a row whose ids are read back as they are written, where it may be written
unheard. -/
theorem keepsOnError_deleteVaultVersionOr_iff (versionId : String)
    (stable : ∀ target, deletionTarget vault.row versionId = .ok target →
      ∀ found, deletionKey vault.row target = .ok found →
        outcomeAt failing .updateMindMapUpload = .unanswered → vault.row.Stable) :
    (deleteVaultVersionOr failing vault versionId).KeepsOnError vault ↔
      SparesDownloads failing vault (.deleteVaultVersion versionId) := by
  unfold deleteVaultVersionOr
  cases read : failureAt failing .findOwned with
  | some failure =>
      refine iff_of_true (keepsOnError_refuse vault failure.error)
        fun target accepted found resolved => ⟨stable target accepted found resolved, ?_⟩
      intro _ _ _
      left
      rw [outcomeAt_eq read]
      rcases failure.outcome_cases with outcome | outcome <;> rw [outcome] <;> decide
  | none =>
      cases accepted : deletionTarget vault.row versionId with
      | error error =>
          exact iff_of_true (keepsOnError_refuse vault error) fun _ chosen => by
            simp [accepted] at chosen
      | ok target =>
          have inactive := (deletionTarget_eq_ok.mp accepted).2.2
          simp only [SparesDownloads, accepted, Except.ok.injEq, forall_eq']
          cases resolved : deletionKey vault.row target with
          | error error =>
              exact iff_of_true (keepsOnError_refuse vault error) fun _ named => by
                simp at named
          | ok found =>
              have stable := stable target accepted found resolved
              simp only [Except.ok.injEq, forall_eq', outcomeAt_eq_done read, ne_eq,
                not_true_eq_false, false_or]
              cases found with
              | none =>
                  refine iff_of_true ?_ ⟨stable, fun _ named => nomatch named⟩
                  refine (keepsOnError_writeRow_iff inactive stable).mpr
                    ⟨fun _ => .refl vault, fun _ _ _ _ _ _ _ _ => id⟩
              | some objectKey =>
                  simp only [Option.mem_def, Option.some.injEq, forall_eq', deleteTarget]
                  have held : ¬ vault.HoldsDownload objectKey ↔ vault.objects objectKey = none :=
                    ⟨fun spared => by_contra fun present =>
                      spared (holdsDownload_of_deletionKey resolved present),
                      fun missing holds => holds.1 missing⟩
                  cases fails : failureAt failing .storage with
                  | some failure =>
                      simp only [outcomeAt_eq fails,
                        outcomeAt_other fails .updateMindMapUpload (by decide)]
                      rw [keepsOnError_iff rfl]
                      rcases failure.outcome_cases with refused | unanswered
                      · simp only [refused, Outcome.applied_refused]
                        exact iff_of_true (.refl vault) (by simp)
                      · simp only [unanswered, Outcome.applied_unanswered]
                        rw [keepsDownloads_delete_iff, held]
                        simp
                  | none =>
                      simp only [outcomeAt_eq_done fails]
                      rw [keepsOnError_writeRow_iff inactive stable, keepsDownloads_delete_iff,
                        held, others_delete_iff]
                      simp only [reduceCtorEq, false_or, true_and]
                      by_cases missing : vault.objects objectKey = none
                      · exact iff_of_true ⟨fun _ => missing, fun _ _ present =>
                          absurd missing present⟩ ⟨stable, fun present => absurd missing present⟩
                      · simp only [missing, not_false_eq_true, true_implies, imp_false, not_or,
                          ne_eq]
                        constructor
                        · rintro ⟨⟨active, answered⟩, alone⟩
                          exact ⟨stable, active, answered, alone active⟩
                        · rintro ⟨-, active, answered, alone⟩
                          exact ⟨⟨active, answered⟩, fun _ => alone⟩

end Failing

section Recorded

variable {failing : Option Failure} {vault : VaultState} {versionId : String}

/-- A row the handlers have written lists what is in its history. -/
theorem Recorded.mem_listVersions_iff {map : StoredMindMap} (recorded : Recorded map) :
    versionId ∈ map.listVersions ↔ versionId ∈ versionIds map.versionHistory := by
  rw [mem_listVersions, recorded.mem_versionIds_normalized, recorded.normalizedCurrent_eq]
  exact ⟨fun either => either.elim id (recorded.current versionId), .inl⟩

theorem Recorded.stable {map : StoredMindMap} (recorded : Recorded map) : map.Stable :=
  fun _ listed =>
    (recorded.valid_of_mem_versionIds (recorded.mem_listVersions_iff.mp listed)).normalize

/-- A row that is written for a version whose object is deleted again lists what cannot be
downloaded: the version could be before, or was not listed. -/
theorem not_keepsDownloads_lostSave {after : StoredMindMap} {objects : Objects}
    (recorded : Recorded vault.row) (written : Recorded after)
    (sameKey : after.objectKey = vault.row.objectKey)
    (present : versionId ∈ versionIds after.versionHistory)
    (missing : objects (versionKey vault.row.objectKey versionId) = none)
    (lost : versionId ∈ versionIds vault.row.versionHistory →
      vault.objects (versionKey vault.row.objectKey versionId) ≠ none) :
    ¬ KeepsDownloads vault { row := after, objects := objects } := by
  intro keeps
  have valid := written.valid_of_mem_versionIds present
  have listed := written.mem_listVersions_iff.mpr present
  have resolves : ∀ {map : StoredMindMap}, Recorded map →
      versionId ∈ versionIds map.versionHistory →
        resolveBlobKey map (some versionId) = .ok (versionKey map.objectKey versionId) := by
    intro map recorded inHistory
    rw [recorded.resolveBlobKey_some, valid.validate]
    exact if_pos inHistory
  have gone : ∀ body, VaultState.download { row := after, objects := objects }
      (some versionId) ≠ some body := by
    intro body downloaded
    obtain ⟨objectKey, resolved, stored⟩ := download_eq_some.mp downloaded
    cases (resolves written present).symm.trans resolved
    rw [sameKey] at stored
    exact absurd (missing.symm.trans stored) nofun
  by_cases before : versionId ∈ versionIds vault.row.versionHistory
  · obtain ⟨body, stored⟩ := Option.ne_none_iff_exists'.mp (lost before)
    exact gone body (keeps.kept (some versionId)
      (List.mem_cons_of_mem _ (List.mem_map_of_mem listed)) body
        (download_eq_some.mpr ⟨_, resolves recorded before, stored⟩))
  · obtain ⟨body, downloaded⟩ := Option.ne_none_iff_exists'.mp (keeps.stored versionId listed
      fun unlisted => before (recorded.mem_listVersions_iff.mp unlisted))
    exact gone body downloaded

/-- The version that is saved is in the history that is written. -/
theorem mem_versionIds_recordVersion (map : StoredMindMap) (versionId : String)
    (now : DateTime) (sizeBytes : Int) :
    versionId ∈ versionIds (recordVersion map versionId now sizeBytes).1 := by
  rw [recordVersion_eq]
  simp

/-- An upload whose row is written unheard lists a version without its object. -/
theorem not_keepsOnError_uploadBlobOr {body : Bytes} (recorded : Recorded vault.row)
    (fresh : NewVersionId vault versionId) (nonempty : body ≠ []) (now : DateTime)
    (unanswered : outcomeAt failing .updateMindMapUpload = .unanswered) :
    ¬ (uploadBlobOr failing vault versionId body now).KeepsOnError vault := by
  obtain ⟨failure, fails, lost⟩ := exists_failure unanswered
  simp only [uploadBlobOr, nonempty, if_false, failureAt_other fails .findOwned (by decide),
    failureAt_other fails .storage (by decide)]
  rw [saveVersionOr_fails _ _ _ fails, keepsOnError_iff rfl, lost]
  exact not_keepsDownloads_lostSave recorded (recorded.recordVersion fresh.1 now _) rfl
    (mem_versionIds_recordVersion _ _ _ _) (Objects.delete_self _ _)
      fun present => absurd present fresh.2

/-- So does a confirmation that finds the object. -/
theorem not_keepsOnError_confirmUploadOr (recorded : Recorded vault.row) {verifiedVid : String}
    (validated : validateVersionId versionId = .ok verifiedVid)
    (present : vault.objects (versionKey vault.row.objectKey verifiedVid) ≠ none)
    (now : DateTime) (unanswered : outcomeAt failing .updateMindMapUpload = .unanswered) :
    ¬ (confirmUploadOr failing vault versionId now).KeepsOnError vault := by
  obtain ⟨failure, fails, lost⟩ := exists_failure unanswered
  obtain ⟨body, stored⟩ := Option.ne_none_iff_exists'.mp present
  obtain ⟨same, valid⟩ := validateVersionId_eq_ok.mp validated
  have nonempty : versionId ≠ "" := by
    rintro rfl
    exact valid.1 same.symm
  simp only [confirmUploadOr, nonempty, if_false, failureAt_other fails .findOwned (by decide),
    failureAt_other fails .storage (by decide), validated,
    Objects.headSize_eq_ok.mpr ⟨body, stored, rfl⟩]
  rw [saveVersionOr_fails _ _ _ fails, keepsOnError_iff rfl, lost]
  exact not_keepsDownloads_lostSave recorded (recorded.recordVersion valid now _) rfl
    (mem_versionIds_recordVersion _ _ _ _) (Objects.delete_self _ _) fun _ => present

end Recorded

/-- A confirmation that does not find the object keeps everything. -/
theorem keepsOnError_confirmUploadOr_missing {failing : Option Failure} {vault : VaultState}
    {versionId : String} (now : DateTime)
    (missing : ∀ verifiedVid, validateVersionId versionId = .ok verifiedVid →
      vault.objects (versionKey vault.row.objectKey verifiedVid) = none) :
    (confirmUploadOr failing vault versionId now).KeepsOnError vault := by
  unfold confirmUploadOr
  split_ifs
  · exact keepsOnError_refuse vault _
  · cases failureAt failing .findOwned with
    | some failure => exact keepsOnError_refuse vault failure.error
    | none =>
        cases validated : validateVersionId versionId with
        | error error => exact keepsOnError_refuse vault error
        | ok verifiedVid =>
            simp only [Objects.headSize_eq_error (missing verifiedVid validated)]
            cases failureAt failing .storage with
            | some failure => exact keepsOnError_refuse vault failure.error
            | none => exact keepsOnError_refuse vault _

/-- An upload mints an id that the history does not have. -/
def MintsNew (vault : VaultState) : VersionRequest → Prop
  | .uploadBlob minted _ => NewVersionId vault minted
  | .confirmUpload _ | .deleteVaultVersion _ => True

/-- When a request answers with an error, everything the row lists is downloaded as it was
before if the request survives the step that failed; in a row that the handlers have written it
has to. -/
theorem errorKeepsDownloads_of_spares (failing : Option Failure) (vault : VaultState)
    (now : DateTime) (request : VersionRequest) :
    (SparesDownloads failing vault request → ErrorKeepsDownloads failing vault now request) ∧
      (Recorded vault.row → MintsNew vault request →
        ErrorKeepsDownloads failing vault now request → SparesDownloads failing vault request) := by
  by_cases answered : outcomeAt failing .updateMindMapUpload = .unanswered
  · cases request with
    | uploadBlob minted body =>
        by_cases empty : body = []
        · refine ⟨fun _ => ?_, fun _ _ _ nonempty => absurd empty nonempty⟩
          simp only [ErrorKeepsDownloads, uploadBlobOr, empty, if_true]
          exact keepsOnError_refuse vault _
        · refine ⟨fun spares => absurd answered (spares empty).2.2, fun recorded fresh keeps => ?_⟩
          exact absurd keeps (not_keepsOnError_uploadBlobOr recorded fresh empty now answered)
    | confirmUpload versionId =>
        refine ⟨fun spares => keepsOnError_confirmUploadOr_missing now fun verifiedVid validated =>
          (spares verifiedVid validated).2 answered, fun recorded _ keeps verifiedVid validated =>
            ⟨fun refused => by simp [answered] at refused, fun _ => by_contra fun present => ?_⟩⟩
        exact not_keepsOnError_confirmUploadOr recorded validated present now answered keeps
    | deleteVaultVersion versionId =>
        refine ⟨fun spares => ?_, fun recorded _ keeps => ?_⟩
        · exact (keepsOnError_deleteVaultVersionOr_iff vault versionId
            fun target accepted found resolved => (spares target accepted found resolved).1).mpr
              spares
        · exact (keepsOnError_deleteVaultVersionOr_iff vault versionId
            fun _ _ _ _ _ => recorded.stable).mp keeps
  · cases request with
    | uploadBlob minted body =>
        have same := keepsOnError_uploadBlobOr_iff vault minted body now answered
        exact ⟨same.mpr, fun _ _ => same.mp⟩
    | confirmUpload versionId =>
        have same := keepsOnError_confirmUploadOr_iff vault versionId now answered
        exact ⟨same.mpr, fun _ _ => same.mp⟩
    | deleteVaultVersion versionId =>
        have same := keepsOnError_deleteVaultVersionOr_iff vault versionId
          fun _ _ _ _ unanswered => absurd unanswered answered
        exact ⟨same.mpr, fun _ _ => same.mp⟩

section Samples

/-- A vault whose only version has been uploaded and confirmed. -/
def confirmedVault : VaultState :=
  let row := createMindMap "m" "u" "key" ⟨"title", "eph", "pq", "dek"⟩ 0
  { row := row.updateUpload "v1" [newSnapshot row "v1" 1 1]
    objects := fun objectKey => if objectKey = "key/v/v1" then some [7] else none }

/-- Its confirmation is repeated and the row cannot be written: the object goes, and the
row still lists it. -/
theorem repeated_confirmation_deletes_object :
    ¬ ∀ failing vault now request, ErrorKeepsDownloads failing vault now request := by
  intro always
  have kept := always (some ⟨.updateMindMapUpload, .refused, rfl, .database "unavailable"⟩)
    confirmedVault 2 (.confirmUpload "v1")
  have spared := (keepsOnError_confirmUploadOr_iff _ _ _ (by decide)).mp kept "v1" (by decide)
  have current : confirmedVault.HoldsDownload "key/v/v1" :=
    ⟨by decide, none, List.mem_cons_self, rfl⟩
  exact spared.1 (by decide) current

end Samples

end Vault
end MindMapVault
