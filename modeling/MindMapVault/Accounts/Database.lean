import MindMapVault.Foundations.Json
import MindMapVault.Foundations.Table
import MindMapVault.Vault.MindMap

/-!
# The account tables

The rows of the relational store that belong to an account: the user and its
key material, its vaults, their attachments and the unlock methods of its
trusted devices.
-/

namespace MindMapVault
namespace Accounts

open Vault (StoredMindMap DateTime)

/-- The Argon2id cost parameters. -/
structure Argon2Params where
  mCost : UInt32
  tCost : UInt32
  pCost : UInt32
  deriving DecidableEq

/-- A row of `users`, as far as credentials go. -/
structure StoredUser where
  id : String
  username : String
  authHash : String
  argon2Salt : String
  argon2Params : Argon2Params
  classicalPublicKey : String
  pqPublicKey : String
  classicalPrivEncrypted : String
  pqPrivEncrypted : String
  keyVersion : UInt32
  createdAt : DateTime
  isLocked : Bool
  deriving DecidableEq

inductive AttachmentStatus
  | pending
  | available
  | deleted
  deriving DecidableEq

/-- A row of `mind_map_attachments`. -/
structure StoredMindMapAttachment where
  id : String
  mapId : String
  nodeId : Option String
  name : String
  sanitizedName : String
  contentType : String
  sizeBytes : Int
  s3Key : String
  s3VersionId : Option String
  uploadedBy : String
  uploadedAt : DateTime
  encrypted : Bool
  encryptionMeta : Option Json
  checksumSha256 : Option String
  status : AttachmentStatus

/-- A row of `unlock_methods`: the master key wrapped for one device. -/
structure UnlockMethod where
  id : String
  userId : String
  label : String
  wrappedMasterKey : String
  createdAt : DateTime
  lastUsedAt : Option DateTime
  deriving DecidableEq

/-- The tables. -/
structure Database where
  users : Table StoredUser.id
  mindMaps : Table StoredMindMap.id
  attachments : Table StoredMindMapAttachment.id
  unlockMethods : Table UnlockMethod.id

namespace Database

/-- `JOIN mind_maps m ON a.map_id = m.id WHERE m.user_id = $1`. -/
def ownsAttachment (db : Database) (userId : String)
    (attachment : StoredMindMapAttachment) : Bool :=
  db.mindMaps.rows.any fun map =>
    map.id == attachment.mapId && map.userId == userId

theorem ownsAttachment_iff
    {db : Database} {userId : String} {attachment : StoredMindMapAttachment} :
    db.ownsAttachment userId attachment = true ↔
      ∃ map ∈ db.mindMaps.rows, map.id = attachment.mapId ∧ map.userId = userId := by
  simp [ownsAttachment]

end Database

/-- The row carries a wrapped file key and is not deleted. -/
def StoredMindMapAttachment.needsRotation (attachment : StoredMindMapAttachment) : Bool :=
  attachment.status != .deleted &&
    (attachment.encryptionMeta.map (·.hasKey "wrapped_key_b64")).getD false

/-- `vault_note_encrypted IS NOT NULL AND vault_note_encrypted <> ''`. -/
def hasNote (map : StoredMindMap) : Bool :=
  match map.vaultNoteEncrypted with
  | some note => note != ""
  | none => false

end Accounts
end MindMapVault
