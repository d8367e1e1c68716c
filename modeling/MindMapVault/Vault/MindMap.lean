import MindMapVault.AppError

/-!
# Vault rows, version snapshots and the requests that write them

The row of the `mind_maps` table as the store hands it to the handlers, the
entries of its version history, and the request bodies the vault handlers take.
Times are whole microseconds.
-/

namespace MindMapVault
namespace Vault

/-- A point in time, in microseconds. -/
abbrev DateTime := Int

/-- The contents of a stored object. -/
abbrev Bytes := List UInt8

/-- The KEM envelope that unwraps the key a blob was sealed with. -/
structure Envelope where
  ephClassicalPublic : String
  ephPqCiphertext : String
  wrappedDek : String
  deriving DecidableEq

/-- One saved version: its envelope and where its ciphertext lives. Entries
written before every version had a key of its own carry no `objectKey`. -/
structure VersionSnapshot where
  versionId : String
  ephClassicalPublic : String
  ephPqCiphertext : String
  wrappedDek : String
  savedAt : DateTime
  objectKey : Option String
  sizeBytes : Option Int
  deriving DecidableEq

/-- The envelope recorded with a version. -/
def VersionSnapshot.envelope (snapshot : VersionSnapshot) : Envelope where
  ephClassicalPublic := snapshot.ephClassicalPublic
  ephPqCiphertext := snapshot.ephPqCiphertext
  wrappedDek := snapshot.wrappedDek

/-- A row of the `mind_maps` table. -/
structure StoredMindMap where
  id : String
  userId : String
  titleEncrypted : String
  objectKey : String
  ephClassicalPublic : String
  ephPqCiphertext : String
  wrappedDek : String
  createdAt : DateTime
  updatedAt : DateTime
  currentVersionId : Option String
  versionHistory : List VersionSnapshot
  vaultColor : Option String
  vaultNoteEncrypted : Option String
  vaultEncryptionMode : String
  maxVersions : Nat
  vaultLabels : List String
  deriving DecidableEq

/-- The envelope on the row itself, which a client opens the current version
with. -/
def StoredMindMap.envelope (map : StoredMindMap) : Envelope where
  ephClassicalPublic := map.ephClassicalPublic
  ephPqCiphertext := map.ephPqCiphertext
  wrappedDek := map.wrappedDek

/-- The body of a create or content update. -/
structure UpsertMindMapRequest where
  titleEncrypted : String
  ephClassicalPublic : String
  ephPqCiphertext : String
  wrappedDek : String
  deriving DecidableEq

/-- The envelope a content update carries. -/
def UpsertMindMapRequest.envelope (body : UpsertMindMapRequest) : Envelope where
  ephClassicalPublic := body.ephClassicalPublic
  ephPqCiphertext := body.ephPqCiphertext
  wrappedDek := body.wrappedDek

/-- The body of a display metadata update; an absent field is left as it is. -/
structure UpdateVaultMetaRequest where
  vaultColor : Option String := none
  vaultNoteEncrypted : Option String := none
  vaultEncryptionMode : Option String := none
  maxVersions : Option Nat := none
  titleEncrypted : Option String := none
  vaultLabels : Option (List String) := none
  deriving DecidableEq

/-- The columns a metadata update writes. -/
structure MindMapMetaUpdate where
  titleEncrypted : String
  vaultColor : Option String
  vaultNoteEncrypted : Option String
  vaultEncryptionMode : String
  maxVersions : Nat
  vaultLabels : List String
  updatedAt : DateTime
  deriving DecidableEq

/-- The columns a content update writes. -/
structure MindMapContentUpdate where
  titleEncrypted : String
  ephClassicalPublic : String
  ephPqCiphertext : String
  wrappedDek : String
  updatedAt : DateTime
  deriving DecidableEq

/-- `UPDATE mind_maps SET current_version_id, version_history`. -/
def StoredMindMap.updateUpload (map : StoredMindMap) (currentVersionId : String)
    (versionHistory : List VersionSnapshot) : StoredMindMap :=
  { map with
    currentVersionId := some currentVersionId
    versionHistory := versionHistory }

/-- `UPDATE mind_maps SET title_encrypted, eph_*, wrapped_dek, updated_at`. -/
def StoredMindMap.updateContent (map : StoredMindMap)
    (update : MindMapContentUpdate) : StoredMindMap :=
  { map with
    titleEncrypted := update.titleEncrypted
    ephClassicalPublic := update.ephClassicalPublic
    ephPqCiphertext := update.ephPqCiphertext
    wrappedDek := update.wrappedDek
    updatedAt := update.updatedAt }

/-- `UPDATE mind_maps SET` of the display columns. -/
def StoredMindMap.updateMeta (map : StoredMindMap) (update : MindMapMetaUpdate) : StoredMindMap :=
  { map with
    vaultColor := update.vaultColor
    vaultNoteEncrypted := update.vaultNoteEncrypted
    vaultEncryptionMode := update.vaultEncryptionMode
    maxVersions := update.maxVersions
    titleEncrypted := update.titleEncrypted
    updatedAt := update.updatedAt
    vaultLabels := update.vaultLabels }

section Columns

variable (map : StoredMindMap)

@[simp] theorem updateUpload_objectKey (current : String)
    (history : List VersionSnapshot) :
    (map.updateUpload current history).objectKey = map.objectKey := rfl

@[simp] theorem updateUpload_versionHistory (current : String)
    (history : List VersionSnapshot) :
    (map.updateUpload current history).versionHistory = history := rfl

@[simp] theorem updateUpload_currentVersionId (current : String)
    (history : List VersionSnapshot) :
    (map.updateUpload current history).currentVersionId = some current := rfl

@[simp] theorem updateUpload_envelope (current : String)
    (history : List VersionSnapshot) :
    (map.updateUpload current history).envelope = map.envelope := rfl

@[simp] theorem updateContent_versionHistory (update : MindMapContentUpdate) :
    (map.updateContent update).versionHistory = map.versionHistory := rfl

@[simp] theorem updateContent_currentVersionId (update : MindMapContentUpdate) :
    (map.updateContent update).currentVersionId = map.currentVersionId := rfl

end Columns

end Vault
end MindMapVault
