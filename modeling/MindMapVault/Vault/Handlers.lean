import MindMapVault.Foundations.Transition
import MindMapVault.Vault.Recorded

/-!
# The vault handlers, one request at a time

Each handler takes the row and the bucket as it finds them and answers with the
row and the bucket it leaves behind, together with the object keys it deleted.
Reads, storage calls and writes all succeed here and nothing else runs between
them; the interleaved handlers are built from the same parts.
-/

namespace MindMapVault
namespace Vault

/-- The objects of the bucket. -/
abbrev Objects := String → Option Bytes

namespace Objects

/-- `PutObject`. -/
def put (objects : Objects) (objectKey : String) (body : Bytes) : Objects :=
  fun other => if other = objectKey then some body else objects other

/-- `DeleteObject`; deleting what is not there succeeds. -/
def delete (objects : Objects) (objectKey : String) : Objects :=
  fun other => if other = objectKey then none else objects other

/-- `HeadObject`, answering with the content length. -/
def headSize (objects : Objects) (objectKey : String) : Except AppError Int :=
  match objects objectKey with
  | some body => .ok body.length
  | none => .error (.notFound s!"'{objectKey}' not found in storage")

@[simp] theorem put_self (objects : Objects) (objectKey : String) (body : Bytes) :
    objects.put objectKey body objectKey = some body := if_pos rfl

theorem put_of_ne (objects : Objects) {objectKey other : String} (body : Bytes)
    (differs : other ≠ objectKey) :
    objects.put objectKey body other = objects other := if_neg differs

@[simp] theorem delete_self (objects : Objects) (objectKey : String) :
    objects.delete objectKey objectKey = none := if_pos rfl

theorem delete_of_ne (objects : Objects) {objectKey other : String} (differs : other ≠ objectKey) :
    objects.delete objectKey other = objects other := if_neg differs

theorem headSize_eq_error {objects : Objects} {objectKey : String}
    (missing : objects objectKey = none) :
    objects.headSize objectKey = .error (.notFound s!"'{objectKey}' not found in storage") := by
  simp only [headSize, missing]

theorem headSize_eq_ok {objects : Objects} {objectKey : String} {size : Int} :
    objects.headSize objectKey = .ok size ↔
      ∃ body, objects objectKey = some body ∧ (body.length : Int) = size := by
  unfold headSize
  cases objects objectKey <;> simp

end Objects

/-- A vault: its row and the bucket that holds its objects. -/
structure VaultState where
  row : StoredMindMap
  objects : Objects

/-- What a request answers, and what it leaves behind. -/
structure Reply (α : Type) where
  result : Except AppError α
  vault : VaultState
  deleted : List String

/-- A request that changed nothing. -/
def refuse {α : Type} (vault : VaultState) (error : AppError) : Reply α where
  result := .error error
  vault := vault
  deleted := []

@[simp] theorem refuse_vault {α : Type} (vault : VaultState) (error : AppError) :
    (refuse vault error : Reply α).vault = vault := rfl

@[simp] theorem refuse_deleted {α : Type} (vault : VaultState) (error : AppError) :
    (refuse vault error : Reply α).deleted = [] := rfl

/-- Write the row for a version whose object is in place, then delete the
objects retention gave up. -/
def saveVersion (vault : VaultState) (versionId : String) (now : DateTime)
    (sizeBytes : Int) : Reply String :=
  let (versionHistory, prunedKeys) := recordVersion vault.row versionId now sizeBytes
  { result := .ok versionId
    vault :=
      { row := vault.row.updateUpload versionId versionHistory
        objects := prunedKeys.foldl Objects.delete vault.objects }
    deleted := prunedKeys }

/-- `POST /{id}/upload`: store the ciphertext under a newly minted version and
record it. -/
def uploadBlob (vault : VaultState) (minted : String) (body : Bytes)
    (now : DateTime) : Reply String :=
  if body = [] then
    refuse vault (.badRequest "blob is required")
  else
    let objectKey := versionKey vault.row.objectKey minted
    saveVersion { vault with objects := vault.objects.put objectKey body } minted now body.length

/-- `POST /{id}/confirm-upload`: record a version whose ciphertext the client has put
in place itself. -/
def confirmUpload (vault : VaultState) (versionId : String) (now : DateTime) : Reply String :=
  if versionId = "" then
    refuse vault (.badRequest "version_id is required")
  else
    match validateVersionId versionId with
    | .error error => refuse vault error
    | .ok verifiedVid =>
        match vault.objects.headSize (versionKey vault.row.objectKey verifiedVid) with
        | .error error => refuse vault error
        | .ok sizeBytes => saveVersion vault verifiedVid now sizeBytes

/-- A confirmation is refused unless the object it names is in place, and then
records it. -/
theorem confirmUpload_cases (vault : VaultState) (given : String) (now : DateTime) :
    ((∀ versionId, validateVersionId given = .ok versionId →
        vault.objects (versionKey vault.row.objectKey versionId) = none) ∧
      ∃ error, confirmUpload vault given now = refuse vault error) ∨
    ∃ versionId body, validateVersionId given = .ok versionId ∧
      vault.objects (versionKey vault.row.objectKey versionId) = some body ∧
        confirmUpload vault given now = saveVersion vault versionId now body.length := by
  by_cases empty : given = ""
  · refine .inl ⟨?_, .badRequest "version_id is required", if_pos empty⟩
    intro versionId validated
    obtain ⟨same, valid⟩ := validateVersionId_eq_ok.mp validated
    subst empty
    exact absurd same.symm valid.1
  · cases validated : validateVersionId given with
    | error error =>
        refine .inl ⟨fun versionId accepted => by simp at accepted, error, ?_⟩
        simp only [confirmUpload, empty, if_false, validated]
    | ok versionId =>
        cases stored : vault.objects (versionKey vault.row.objectKey versionId) with
        | none =>
            have missing := Objects.headSize_eq_error stored
            refine .inl ⟨?_, .notFound
              s!"'{versionKey vault.row.objectKey versionId}' not found in storage",
              ?_⟩
            · intro other accepted
              cases accepted
              exact stored
            · simp only [confirmUpload, empty, if_false, validated, missing]
        | some body =>
            refine .inr ⟨versionId, body, rfl, stored, ?_⟩
            simp only [confirmUpload, empty, if_false, validated, Objects.headSize, stored]

/-- `DELETE /{id}/versions/{version_id}`. The object goes before the row is
checked for a current version and written. -/
def deleteVaultVersion (vault : VaultState) (versionId : String) : Reply Unit :=
  match deletionTarget vault.row versionId with
  | .error error => refuse vault error
  | .ok target =>
      match deletionKey vault.row target with
      | .error error => refuse vault error
      | .ok objectKey =>
          let objects := objectKey.elim vault.objects vault.objects.delete
          match deletionRow vault.row target with
          | .error error =>
              { result := .error error
                vault := { vault with objects := objects }
                deleted := objectKey.toList }
          | .ok (current, filteredHistory) =>
              { result := .ok ()
                vault :=
                  { row := vault.row.updateUpload current filteredHistory, objects := objects }
                deleted := objectKey.toList }

/-- A deletion is refused before it touches storage, or removes the object of
its target and then writes the row where there is one to write. -/
theorem deleteVaultVersion_cases (vault : VaultState) (given : String) :
    ((∀ target objectKey, deletionTarget vault.row given = .ok target →
        deletionKey vault.row target ≠ .ok objectKey) ∧
      ∃ error, deleteVaultVersion vault given = refuse vault error) ∨
    ∃ target objectKey, deletionTarget vault.row given = .ok target ∧
      deletionKey vault.row target = .ok objectKey ∧
        (deleteVaultVersion vault given).deleted = objectKey.toList ∧
          ((vault.row.normalizedCurrent = none ∧
              (deleteVaultVersion vault given).vault.row = vault.row) ∨
            ∃ current history,
              deletionRow vault.row target = .ok (current, history) ∧
                (deleteVaultVersion vault given).vault.row =
                  vault.row.updateUpload current history) := by
  cases accepted : deletionTarget vault.row given with
  | error error =>
      refine .inl ⟨fun target objectKey other => by simp at other, error, ?_⟩
      simp only [deleteVaultVersion, accepted]
  | ok target =>
      cases resolved : deletionKey vault.row target with
      | error error =>
          refine .inl ⟨?_, error, ?_⟩
          · intro other objectKey same
            cases same
            simp [resolved]
          · simp only [deleteVaultVersion, accepted, resolved]
      | ok objectKey =>
          refine .inr ⟨target, objectKey, rfl, resolved, ?_⟩
          cases active : vault.row.normalizedCurrent with
          | none =>
              simp only [deleteVaultVersion, accepted, resolved, deletionRow, active]
              exact ⟨trivial, .inl ⟨trivial, trivial⟩⟩
          | some current =>
              have written : deletionRow vault.row target = .ok (current, _) :=
                deletionRow_eq_ok.mpr ⟨active, rfl⟩
              simp only [deleteVaultVersion, accepted, resolved, written]
              exact ⟨trivial, .inr ⟨_, _, rfl, rfl⟩⟩

/-- The columns `PUT /{id}/meta` writes: those of the request over those of
the row it read. -/
def metaUpdate (map : StoredMindMap) (body : UpdateVaultMetaRequest)
    (now : DateTime) : Except AppError MindMapMetaUpdate :=
  if body.maxVersions = some 0 then
    .error (.badRequest "max_versions must be >= 1")
  else
    .ok
      { titleEncrypted := body.titleEncrypted.getD map.titleEncrypted
        vaultColor := body.vaultColor.or map.vaultColor
        vaultNoteEncrypted := body.vaultNoteEncrypted.or map.vaultNoteEncrypted
        vaultEncryptionMode := body.vaultEncryptionMode.getD map.vaultEncryptionMode
        maxVersions := body.maxVersions.getD map.maxVersions
        vaultLabels := body.vaultLabels.getD map.vaultLabels
        updatedAt := if body.titleEncrypted.isSome then now else map.updatedAt }

/-- `PUT /{id}/meta`. -/
def updateVaultMeta (vault : VaultState) (body : UpdateVaultMetaRequest)
    (now : DateTime) : Reply Unit :=
  match metaUpdate vault.row body now with
  | .error error => refuse vault error
  | .ok update =>
      { result := .ok ()
        vault := { vault with row := vault.row.updateMeta update }
        deleted := [] }

/-- Every encrypted field of a create or content update is required. -/
def validateUpsert (body : UpsertMindMapRequest) : Except AppError Unit :=
  if body.titleEncrypted = "" ∨ body.ephClassicalPublic = "" ∨
      body.ephPqCiphertext = "" ∨ body.wrappedDek = "" then
    .error (.badRequest "missing required encrypted fields")
  else
    .ok ()

/-- The columns `PUT /{id}` writes. -/
def contentUpdate (body : UpsertMindMapRequest) (now : DateTime) : MindMapContentUpdate where
  titleEncrypted := body.titleEncrypted
  ephClassicalPublic := body.ephClassicalPublic
  ephPqCiphertext := body.ephPqCiphertext
  wrappedDek := body.wrappedDek
  updatedAt := now

/-- `PUT /{id}`: replace the title and the envelope, and mint the version the
client may now upload. -/
def updateMindMap (vault : VaultState) (body : UpsertMindMapRequest) (minted : String)
    (now : DateTime) : Reply String :=
  match validateUpsert body with
  | .error error => refuse vault error
  | .ok () =>
      { result := .ok minted
        vault := { vault with row := vault.row.updateContent (contentUpdate body now) }
        deleted := [] }

/-- The row `POST /` inserts. -/
def createMindMap (id userId objectKey : String) (body : UpsertMindMapRequest)
    (now : DateTime) : StoredMindMap where
  id := id
  userId := userId
  titleEncrypted := body.titleEncrypted
  objectKey := objectKey
  ephClassicalPublic := body.ephClassicalPublic
  ephPqCiphertext := body.ephPqCiphertext
  wrappedDek := body.wrappedDek
  createdAt := now
  updatedAt := now
  currentVersionId := none
  versionHistory := []
  vaultColor := none
  vaultNoteEncrypted := none
  vaultEncryptionMode := "standard"
  maxVersions := 50
  vaultLabels := []

/-- A vault that was just created lists nothing. -/
theorem recorded_createMindMap (id userId objectKey : String) (body : UpsertMindMapRequest)
    (now : DateTime) (maxVersions : Nat) :
    Recorded { createMindMap id userId objectKey body now with
      maxVersions := maxVersions } :=
  ⟨by simp [createMindMap], by simp [createMindMap], by simp [createMindMap],
    by simp [createMindMap]⟩

/-- A request on one vault. The label of an upload or a content update names
the version id it mints; `presignedPut` is the client writing to an upload URL
it was handed. -/
inductive VaultRequest
  | uploadBlob (minted : String) (body : Bytes) (now : DateTime)
  | presignedPut (versionId : String) (body : Bytes)
  | confirmUpload (versionId : String) (now : DateTime)
  | deleteVaultVersion (versionId : String)
  | updateVaultMeta (body : UpdateVaultMetaRequest) (now : DateTime)
  | updateMindMap (body : UpsertMindMapRequest) (minted : String) (now : DateTime)

/-- A minted id is well formed and names no version of the vault yet. -/
def NewVersionId (vault : VaultState) (minted : String) : Prop :=
  ValidVersionId minted ∧ minted ∉ versionIds vault.row.versionHistory

instance (vault : VaultState) (minted : String) :
    Decidable (NewVersionId vault minted) :=
  inferInstanceAs (Decidable (_ ∧ _))

/-- Whether a request can arrive: an upload mints a new id. -/
def Enabled (vault : VaultState) : VaultRequest → Prop
  | .uploadBlob minted _ _ => NewVersionId vault minted
  | _ => True

instance (vault : VaultState) (request : VaultRequest) :
    Decidable (Enabled vault request) :=
  match request with
  | .uploadBlob minted _ _ => inferInstanceAs (Decidable (NewVersionId vault minted))
  | .presignedPut _ _ | .confirmUpload _ _ | .deleteVaultVersion _
  | .updateVaultMeta _ _ | .updateMindMap _ _ _ => .isTrue trivial

/-- The vault a request leaves behind, and the keys it deleted. -/
def serve (vault : VaultState) : VaultRequest → VaultState × List String
  | .uploadBlob minted body now =>
      let reply := uploadBlob vault minted body now
      (reply.vault, reply.deleted)
  | .presignedPut versionId body =>
      let objectKey := versionKey vault.row.objectKey versionId
      ({ vault with objects := vault.objects.put objectKey body }, [])
  | .confirmUpload versionId now =>
      let reply := confirmUpload vault versionId now
      (reply.vault, reply.deleted)
  | .deleteVaultVersion versionId =>
      let reply := deleteVaultVersion vault versionId
      (reply.vault, reply.deleted)
  | .updateVaultMeta body now =>
      let reply := updateVaultMeta vault body now
      (reply.vault, reply.deleted)
  | .updateMindMap body minted now =>
      let reply := updateMindMap vault body minted now
      (reply.vault, reply.deleted)

/-- The vault as a transition system over its requests. -/
def requests : Transition.System VaultState VaultRequest :=
  fun vault request =>
    if Enabled vault request then some (serve vault request).1 else none

theorem requests_eq_some {vault next : VaultState} {request : VaultRequest} :
    requests vault request = some next ↔
      Enabled vault request ∧ (serve vault request).1 = next := by
  simp [requests]

/-- What a request does to the row: it leaves the versions alone, records one, or
deletes one. -/
theorem requests_row {vault next : VaultState} {request : VaultRequest}
    (taken : requests vault request = some next) :
    (next.row.objectKey = vault.row.objectKey ∧
        next.row.versionHistory = vault.row.versionHistory ∧
          next.row.currentVersionId = vault.row.currentVersionId) ∨
      (∃ versionId savedAt sizeBytes, ValidVersionId versionId ∧
        next.row = vault.row.updateUpload versionId
          (recordVersion vault.row versionId savedAt sizeBytes).1) ∨
      ∃ given target current history,
        deletionTarget vault.row given = .ok target ∧
          deletionRow vault.row target = .ok (current, history) ∧
            next.row = vault.row.updateUpload current history := by
  obtain ⟨enabled, rfl⟩ := requests_eq_some.mp taken
  cases request with
  | uploadBlob minted body now =>
      simp only [serve]
      unfold uploadBlob
      split_ifs
      · exact .inl ⟨rfl, rfl, rfl⟩
      · exact .inr (.inl ⟨minted, now, _, enabled.1, rfl⟩)
  | presignedPut versionId body => exact .inl ⟨rfl, rfl, rfl⟩
  | confirmUpload given now =>
      simp only [serve]
      rcases confirmUpload_cases vault given now with
        ⟨_, error, answer⟩ | ⟨versionId, body, validated, _, answer⟩
      · rw [answer]
        exact .inl ⟨rfl, rfl, rfl⟩
      · rw [answer]
        have valid := (validateVersionId_eq_ok.mp validated).2
        exact .inr (.inl ⟨versionId, now, _, valid, rfl⟩)
  | deleteVaultVersion given =>
      simp only [serve]
      rcases deleteVaultVersion_cases vault given with
        ⟨_, error, answer⟩ | ⟨target, objectKey, accepted, _, _, written⟩
      · rw [answer]
        exact .inl ⟨rfl, rfl, rfl⟩
      · rcases written with ⟨_, row⟩ | ⟨current, history, update, row⟩
        · rw [row]
          exact .inl ⟨rfl, rfl, rfl⟩
        · exact .inr (.inr ⟨given, target, current, history, accepted, update, row⟩)
  | updateVaultMeta body now =>
      simp only [serve]
      unfold updateVaultMeta
      split <;> exact .inl ⟨rfl, rfl, rfl⟩
  | updateMindMap body minted now =>
      simp only [serve]
      unfold updateMindMap
      split <;> exact .inl ⟨rfl, rfl, rfl⟩

end Vault
end MindMapVault
