import MindMapVault.Accounts.InFlight
import MindMapVault.Foundations.Remote
import Mathlib.Algebra.Group.Nat.Defs
import Mathlib.Algebra.Ring.Int.Defs
import Mathlib.Data.List.Sort

/-!
# Shares and the objects behind them

The rows of shares and of the attachments shared with them, beside the vaults, the
bucket, the settings and the time. A share is a second copy of a vault, sealed under
a key of its own, with objects of its own: a blob and one object an attachment.
Every statement that changes a row or an object is one `StoreWrite`.
-/

namespace MindMapVault
namespace Shares

open Accounts (Database AttachmentStatus)
open Vault (DateTime Bytes Objects)

inductive ShareStatus
  | pending
  | available
  | revoked
  deriving DecidableEq

inductive ShareScope
  | map
  | node
  | note
  deriving DecidableEq

/-- A row of `mind_map_shares`. -/
structure StoredMindMapShare where
  id : String
  mapId : String
  shareName : String
  scope : ShareScope
  s3Key : String
  s3VersionId : Option String
  createdBy : String
  createdAt : DateTime
  updatedAt : DateTime
  expiresAt : Option DateTime
  revoked : Bool
  includeAttachments : Bool
  passphraseHint : Option String
  contentType : String
  sizeBytes : Int
  encryptionMeta : Json
  checksumSha256 : Option String
  status : ShareStatus

/-- A row of `mind_map_share_attachments`. -/
structure StoredMindMapShareAttachment where
  id : String
  shareId : String
  sourceAttachmentId : Option String
  nodeId : Option String
  name : String
  sanitizedName : String
  contentType : String
  sizeBytes : Int
  s3Key : String
  s3VersionId : Option String
  uploadedAt : DateTime
  encryptionMeta : Json
  checksumSha256 : Option String
  status : AttachmentStatus

/-- The settings that limit storage; zero and below mean no limit. -/
structure InstanceSettings where
  userStorageLimitBytes : Int
  maxAttachmentSizeBytes : Int
  deriving DecidableEq

/-- `storage_limit`. -/
def InstanceSettings.storageLimit (settings : InstanceSettings) : Option Int :=
  if 0 < settings.userStorageLimitBytes then some settings.userStorageLimitBytes
  else none

/-- `attachment_limit`. -/
def InstanceSettings.attachmentLimit (settings : InstanceSettings) : Option Int :=
  if 0 < settings.maxAttachmentSizeBytes then some settings.maxAttachmentSizeBytes
  else none

/-- The server's tables and bucket, its settings and the time. -/
structure Store where
  db : Database
  shares : Table StoredMindMapShare.id
  shareAttachments : Table StoredMindMapShareAttachment.id
  objects : Objects
  settings : InstanceSettings
  clock : DateTime

/-- What the completion of an upload writes. -/
structure UploadUpdate where
  s3VersionId : String
  checksumSha256 : Option String
  deriving DecidableEq

/-- A statement that changes a row of a share, or a call that changes an object. -/
inductive StoreWrite
  | createMindMapShare (share : StoredMindMapShare)
  | completeMindMapShareUpload (mapId shareId : String) (update : UploadUpdate)
  | setMindMapShareRevoked (mapId shareId : String)
  | markMindMapSharePurged (shareId : String)
  | createMindMapShareAttachment (attachment : StoredMindMapShareAttachment)
  | completeMindMapShareAttachmentUpload (shareId attachmentId : String) (update : UploadUpdate)
  | uploadBlob (objectKey : String) (body : Bytes)
  | deleteObject (objectKey : String)

/-- `SET s3_version_id, checksum_sha256, status = 'available', updated_at = NOW()`. -/
def StoredMindMapShare.completed
    (update : UploadUpdate) (now : DateTime) (share : StoredMindMapShare) :
    StoredMindMapShare :=
  { share with
    s3VersionId := some update.s3VersionId
    checksumSha256 := update.checksumSha256
    status := .available
    updatedAt := now }

/-- `SET revoked = TRUE, status = 'revoked', updated_at = NOW()`. -/
def StoredMindMapShare.withdrawn
    (now : DateTime) (share : StoredMindMapShare) : StoredMindMapShare :=
  { share with revoked := true, status := .revoked, updatedAt := now }

/-- `SET status = 'revoked', revoked = TRUE, size_bytes = 0, updated_at = NOW()`. -/
def StoredMindMapShare.purged (now : DateTime) (share : StoredMindMapShare) : StoredMindMapShare :=
  { share with status := .revoked, revoked := true, sizeBytes := 0, updatedAt := now }

/-- `SET s3_version_id, checksum_sha256, status = 'available'`. -/
def StoredMindMapShareAttachment.completed
    (update : UploadUpdate) (attachment : StoredMindMapShareAttachment) :
    StoredMindMapShareAttachment :=
  { attachment with
    s3VersionId := some update.s3VersionId
    checksumSha256 := update.checksumSha256
    status := .available }

section Columns

@[simp] theorem StoredMindMapShare.completed_id
    (update : UploadUpdate) (now : DateTime) (share : StoredMindMapShare) :
    (share.completed update now).id = share.id := rfl

@[simp] theorem StoredMindMapShare.withdrawn_id
    (now : DateTime) (share : StoredMindMapShare) :
    (share.withdrawn now).id = share.id := rfl

@[simp] theorem StoredMindMapShare.purged_id
    (now : DateTime) (share : StoredMindMapShare) :
    (share.purged now).id = share.id := rfl

@[simp] theorem StoredMindMapShareAttachment.completed_id
    (update : UploadUpdate) (attachment : StoredMindMapShareAttachment) :
    (attachment.completed update).id = attachment.id := rfl

end Columns

namespace Store

/-- Run a statement or a call that goes through. An insert is refused where its id
is taken or the row it refers to is missing. -/
def execute (store : Store) : StoreWrite → Except AppError Store
  | .createMindMapShare share =>
      if new : share.id ∉ store.shares.rows.map StoredMindMapShare.id then
        if store.db.mindMaps.rows.any (·.id == share.mapId) then
          .ok { store with shares := store.shares.insert share new }
        else
          .error (.database "insert violates foreign key constraint")
      else
        .error (.database "duplicate key value violates unique constraint")
  | .completeMindMapShareUpload mapId shareId update =>
      .ok { store with
        shares := store.shares.update
          (fun share => share.mapId == mapId && share.id == shareId)
          (StoredMindMapShare.completed update store.clock)
          (StoredMindMapShare.completed_id update store.clock) }
  | .setMindMapShareRevoked mapId shareId =>
      .ok { store with
        shares := store.shares.update
          (fun share => share.mapId == mapId && share.id == shareId)
          (StoredMindMapShare.withdrawn store.clock)
          (StoredMindMapShare.withdrawn_id store.clock) }
  | .markMindMapSharePurged shareId =>
      .ok { store with
        shares := store.shares.update (fun share => share.id == shareId)
          (StoredMindMapShare.purged store.clock)
          (StoredMindMapShare.purged_id store.clock) }
  | .createMindMapShareAttachment attachment =>
      if new : attachment.id ∉
          store.shareAttachments.rows.map StoredMindMapShareAttachment.id then
        if store.shares.rows.any (·.id == attachment.shareId) then
          .ok { store with
            shareAttachments := store.shareAttachments.insert attachment new }
        else
          .error (.database "insert violates foreign key constraint")
      else
        .error (.database "duplicate key value violates unique constraint")
  | .completeMindMapShareAttachmentUpload shareId attachmentId update =>
      .ok { store with
        shareAttachments := store.shareAttachments.update
          (fun attachment => attachment.shareId == shareId &&
            attachment.id == attachmentId && attachment.status != .deleted)
          (StoredMindMapShareAttachment.completed update)
          (StoredMindMapShareAttachment.completed_id update) }
  | .uploadBlob objectKey body =>
      .ok { store with objects := store.objects.put objectKey body }
  | .deleteObject objectKey =>
      .ok { store with objects := store.objects.delete objectKey }

/-- `find_share`. -/
def findShare (store : Store) (mapId shareId : String) :
    Except AppError StoredMindMapShare :=
  match (store.shares.find? shareId).filter (·.mapId == mapId) with
  | some share => .ok share
  | none => .error (.notFound "share not found")

/-- `find_share_attachment`. -/
def findShareAttachment (store : Store) (shareId attachmentId : String) :
    Except AppError StoredMindMapShareAttachment :=
  match (store.shareAttachments.find? attachmentId).filter fun attachment =>
      attachment.shareId == shareId && attachment.status != .deleted with
  | some attachment => .ok attachment
  | none => .error (.notFound "share attachment not found")

/-- `list_mind_map_share_attachments`. -/
def listMindMapShareAttachments (store : Store) (shareId : String) :
    List StoredMindMapShareAttachment :=
  (store.shareAttachments.select fun attachment =>
    attachment.shareId == shareId && attachment.status != .deleted).insertionSort
      fun first second => second.uploadedAt ≤ first.uploadedAt

/-- `status = 'available' AND (revoked = TRUE OR (expires_at IS NOT NULL AND
expires_at < $1))`. -/
def purgeable (now : DateTime) (share : StoredMindMapShare) : Bool :=
  share.status == .available &&
    (share.revoked || share.expiresAt.any fun expiresAt => decide (expiresAt < now))

/-- `list_purgeable_mind_map_shares`. -/
def listPurgeableMindMapShares (store : Store) (now : DateTime) (limit : Nat) :
    List StoredMindMapShare :=
  ((store.shares.select (purgeable now)).insertionSort
    fun first second => first.updatedAt ≤ second.updatedAt).take limit

/-- The bytes of an account the database knows the size of: attachments, shares that
are not revoked, and what is shared with those. -/
def storedBytes (store : Store) (userId : String) : Int :=
  let ownsMap := fun mapId => store.db.mindMaps.rows.any fun map =>
    map.id == mapId && map.userId == userId
  let ownsShare := fun shareId => store.shares.rows.any fun share =>
    share.id == shareId && ownsMap share.mapId && !share.revoked
  ((store.db.attachments.select fun attachment =>
      ownsMap attachment.mapId && attachment.status == .available).map (·.sizeBytes)).sum +
    ((store.shares.select fun share =>
      ownsMap share.mapId && share.status == .available && !share.revoked).map (·.sizeBytes)).sum +
    ((store.shareAttachments.select fun attachment =>
      ownsShare attachment.shareId && attachment.status == .available).map (·.sizeBytes)).sum

/-- `sum_user_stored_bytes`, whose total is cast to 64 bits. -/
def sumUserStoredBytes (store : Store) (userId : String) : Except AppError Int :=
  let total := store.storedBytes userId
  if -2 ^ 63 ≤ total ∧ total < 2 ^ 63 then .ok total
  else .error (.database "bigint out of range")

/-- `enforce_storage_limits`. The sum is taken in 64 bits and wraps around. -/
def enforceStorageLimits (store : Store) (userId : String) (incomingBytes : Int) :
    Except AppError Unit := do
  if let some limit := store.settings.attachmentLimit.filter (· < incomingBytes) then
    throw (.planRestricted
      s!"this file is larger than the {limit} byte limit set on this server"
      { message := "attachment too large"
        code := "attachment_too_large"
        capability := "attachment_size"
        currentTier := "community"
        requiredTier := none
        currentValue := some incomingBytes
        limitValue := some limit })
  let some limit := store.settings.storageLimit | return ()
  let used ← store.sumUserStoredBytes userId
  let total := (used + incomingBytes).bmod (2 ^ 64)
  if limit < total then
    throw (.planRestricted
      "this upload would put the account over the storage limit set on this server"
      { message := "storage limit reached"
        code := "storage_limit_reached"
        capability := "storage"
        currentTier := "community"
        requiredTier := none
        currentValue := some total
        limitValue := some limit })

end Store

end Shares
end MindMapVault
