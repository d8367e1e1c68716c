import MindMapVault.Accounts.Database
import MindMapVault.AppError
import MindMapVault.Foundations.Result
import Mathlib.Data.List.Dedup

/-!
# Master-key rotation in the database

The transaction that replaces an account's credentials together with every title,
note and attachment key wrapped under the old master key, and the manifest a
client builds its bundle from. The statements run one by one and each of them may
fail; whatever fails, the transaction is rolled back.
-/

namespace MindMapVault
namespace Accounts

open Vault (StoredMindMap)

/-- A vault of the bundle. An absent note keeps the stored one, an empty one
clears it. -/
structure RotateVaultEntry where
  id : String
  titleEncrypted : String
  vaultNoteEncrypted : Option String
  deriving DecidableEq

/-- An attachment of the bundle, with its file key wrapped anew. -/
structure RotateAttachmentEntry where
  id : String
  wrappedKeyB64 : String
  deriving DecidableEq

/-- A rotation bundle. -/
structure RotateCredentialsUpdate where
  newAuthToken : String
  newArgon2Salt : String
  newArgon2Params : Argon2Params
  newClassicalPrivEncrypted : String
  newPqPrivEncrypted : String
  newKeyVersion : UInt32
  updatedVaults : List RotateVaultEntry
  updatedAttachments : List RotateAttachmentEntry
  deriving DecidableEq

/-- The statements of the transaction, in the order they are sent. -/
inductive Statement
  | begin
  | lockUser
  | selectVaults
  | selectAttachments
  | updateUser
  | updateVault (index : Nat)
  | updateAttachment (index : Nat)
  | commit
  deriving DecidableEq

/-- What the database driver reports for each statement. -/
abbrev Driver := Statement → Except AppError Unit

/-- `HashSet::difference(..).count()`. -/
def differenceCount (first second : List String) : Nat := (first.dedup.filter (· ∉ second)).length

theorem differenceCount_eq_zero {first second : List String} :
    differenceCount first second = 0 ↔ ∀ item ∈ first, item ∈ second := by
  simp [differenceCount, List.filter_eq_nil_iff]

/-- `load_user_by_id`, or the locking read of the transaction. -/
def findUser (db : Database) (userId : String) : Except AppError StoredUser :=
  match db.users.find? userId with
  | some user => .ok user
  | none => .error (.notFound "user not found")

theorem findUser_eq_ok {db : Database} {userId : String} {user : StoredUser} :
    findUser db userId = .ok user ↔ db.users.find? userId = some user := by
  unfold findUser
  cases db.users.find? userId <;> simp

/-- The submitted version must follow the stored one. -/
def checkKeyVersion (user : StoredUser) (update : RotateCredentialsUpdate) :
    Except AppError Unit :=
  if update.newKeyVersion ≠ user.keyVersion + 1 then
    .error (.badRequest
      s!"new_key_version must be {user.keyVersion + 1} (current {user.keyVersion} + 1)")
  else
    .ok ()

/-- The vaults of a user. -/
def ownedVaults (db : Database) (userId : String) : List StoredMindMap :=
  db.mindMaps.select (·.userId == userId)

/-- The attachments of a user whose file key is wrapped. -/
def rotationAttachments (db : Database) (userId : String) :
    List StoredMindMapAttachment :=
  db.attachments.select fun attachment =>
    db.ownsAttachment userId attachment && attachment.needsRotation

/-- `notes_by_id.get(id)`: of the entries of one id, the last one counts. -/
def lastEntry (updatedVaults : List RotateVaultEntry) (id : String) :
    Option RotateVaultEntry :=
  updatedVaults.reverse.find? (·.id = id)

/-- The entry for a vault carries a note that is not empty. -/
def carriesNote (updatedVaults : List RotateVaultEntry) (id : String) : Bool :=
  match (lastEntry updatedVaults id).bind RotateVaultEntry.vaultNoteEncrypted with
  | some note => note != ""
  | none => false

/-- The bundle must name exactly the user's vaults, with a note for every vault
that has one. -/
def checkVaults (vaultRows : List StoredMindMap) (update : RotateCredentialsUpdate) :
    Except AppError Unit :=
  let submittedVaults := update.updatedVaults.map RotateVaultEntry.id
  let ownedIds := vaultRows.map StoredMindMap.id
  let missing := differenceCount ownedIds submittedVaults
  let unknown := differenceCount submittedVaults ownedIds
  let strandedNotes := (vaultRows.filter fun row =>
    hasNote row && !carriesNote update.updatedVaults row.id).length
  if 0 < missing then
    .error (.badRequest s!"rotation bundle is incomplete — {missing} vault(s) missing")
  else if 0 < unknown then
    .error (.badRequest s!"rotation bundle references {unknown} unknown vault(s)")
  else if 0 < strandedNotes then
    .error (.badRequest s!"rotation bundle leaves {strandedNotes} vault note(s) under the old key")
  else
    .ok ()

/-- The bundle must name exactly the attachments with a wrapped key. -/
def checkAttachments (attachmentRows : List StoredMindMapAttachment)
    (update : RotateCredentialsUpdate) : Except AppError Unit :=
  let submittedAttachments := update.updatedAttachments.map RotateAttachmentEntry.id
  let ownedIds := attachmentRows.map StoredMindMapAttachment.id
  let missing := differenceCount ownedIds submittedAttachments
  let unknown := differenceCount submittedAttachments ownedIds
  if 0 < missing then
    .error (.badRequest s!"rotation bundle is incomplete — {missing} attachment(s) missing")
  else if 0 < unknown then
    .error (.badRequest s!"rotation bundle references {unknown} unknown attachment(s)")
  else
    .ok ()

/-- The columns of `users` a rotation replaces. -/
def StoredUser.rotate (update : RotateCredentialsUpdate) (newAuthHash : String)
    (user : StoredUser) : StoredUser :=
  { user with
    authHash := newAuthHash
    argon2Salt := update.newArgon2Salt
    argon2Params := update.newArgon2Params
    classicalPrivEncrypted := update.newClassicalPrivEncrypted
    pqPrivEncrypted := update.newPqPrivEncrypted
    keyVersion := update.newKeyVersion }

/-- The columns of `mind_maps` a rotation replaces. -/
def rotateVault (entry : RotateVaultEntry) (map : StoredMindMap) : StoredMindMap :=
  { map with
    titleEncrypted := entry.titleEncrypted
    vaultNoteEncrypted :=
      if entry.vaultNoteEncrypted.isSome then
        entry.vaultNoteEncrypted.filter (· ≠ "")
      else
        map.vaultNoteEncrypted }

/-- `jsonb_build_object('wrapped_key_b64', $1, 'key_wrap', 'hkdf-attachment-v1')`. -/
def rewrappedKey (wrappedKeyB64 : String) : Json :=
  .object [("wrapped_key_b64", .string wrappedKeyB64), ("key_wrap", .string "hkdf-attachment-v1")]

/-- The metadata of an attachment with its key wrapped anew. -/
def StoredMindMapAttachment.rewrap (entry : RotateAttachmentEntry)
    (attachment : StoredMindMapAttachment) : StoredMindMapAttachment :=
  { attachment with
    encryptionMeta := attachment.encryptionMeta.map fun stored =>
      stored.concat (rewrappedKey entry.wrappedKeyB64) }

/-- `UPDATE users`. -/
def writeUser (db : Database) (userId : String)
    (update : RotateCredentialsUpdate) (newAuthHash : String) : Database :=
  { db with
    users := db.users.update (·.id == userId) (StoredUser.rotate update newAuthHash) fun _ => rfl }

/-- `UPDATE mind_maps`. -/
def writeVault (userId : String) (db : Database) (entry : RotateVaultEntry) : Database :=
  { db with
    mindMaps := db.mindMaps.update
      (fun map => map.id == entry.id && map.userId == userId)
      (rotateVault entry) fun _ => rfl }

/-- `UPDATE mind_map_attachments`. -/
def writeAttachment (userId : String) (db : Database) (entry : RotateAttachmentEntry) : Database :=
  { db with
    attachments := db.attachments.update
      (fun attachment =>
        attachment.id == entry.id && db.ownsAttachment userId attachment)
      (StoredMindMapAttachment.rewrap entry) fun _ => rfl }

/-- The body of the transaction, up to its commit. -/
def rotationTransaction (driver : Driver) (db : Database) (userId : String)
    (update : RotateCredentialsUpdate) (newAuthHash : String) :
    Except AppError Database := do
  driver .begin
  driver .lockUser
  let user ← findUser db userId
  checkKeyVersion user update
  driver .selectVaults
  checkVaults (ownedVaults db userId) update
  driver .selectAttachments
  checkAttachments (rotationAttachments db userId) update
  driver .updateUser
  let withUser := writeUser db userId update newAuthHash
  let withVaults ← update.updatedVaults.zipIdx.foldlM
    (fun db item => do
      driver (.updateVault item.2)
      pure (writeVault userId db item.1)) withUser
  let withAttachments ← update.updatedAttachments.zipIdx.foldlM
    (fun db item => do
      driver (.updateAttachment item.2)
      pure (writeAttachment userId db item.1)) withVaults
  driver .commit
  return withAttachments

/-- `rotate_user_credentials`: hash the new token, run the transaction, and keep
its writes only if it committed. -/
def rotateUserCredentials (hashToken : String → Except AppError String)
    (driver : Driver) (db : Database) (userId : String)
    (update : RotateCredentialsUpdate) : Except AppError Unit × Database :=
  match hashToken update.newAuthToken with
  | .error error => (.error error, db)
  | .ok newAuthHash =>
      match rotationTransaction driver db userId update newAuthHash with
      | .error error => (.error error, db)
      | .ok committed => (.ok (), committed)

/-- A vault as the manifest lists it. -/
structure ManifestVault where
  id : String
  titleEncrypted : String
  vaultNoteEncrypted : Option String
  deriving DecidableEq

/-- An attachment as the manifest lists it. -/
structure ManifestAttachment where
  id : String
  mapId : String
  encryptionMeta : Option Json

/-- Everything a client needs to build a bundle. -/
structure RotationManifest where
  keyVersion : UInt32
  argon2Salt : String
  argon2Params : Argon2Params
  classicalPrivEncrypted : String
  pqPrivEncrypted : String
  vaults : List ManifestVault
  attachments : List ManifestAttachment

/-- `list_mind_maps`, newest first. -/
def listMindMaps (db : Database) (userId : String) : List StoredMindMap :=
  (db.mindMaps.select (·.userId == userId)).mergeSort
    fun first second => decide (second.updatedAt ≤ first.updatedAt)

/-- `list_rotation_attachments`, oldest first. -/
def listRotationAttachments (db : Database) (userId : String) :
    List StoredMindMapAttachment :=
  (db.attachments.select fun attachment =>
    db.ownsAttachment userId attachment && attachment.needsRotation).mergeSort
      fun first second => decide (first.uploadedAt ≤ second.uploadedAt)

/-- `GET /api/auth/rotation-manifest`. -/
def rotationManifest (db : Database) (userId : String) :
    Except AppError RotationManifest :=
  (findUser db userId).map fun user =>
    { keyVersion := user.keyVersion
      argon2Salt := user.argon2Salt
      argon2Params := user.argon2Params
      classicalPrivEncrypted := user.classicalPrivEncrypted
      pqPrivEncrypted := user.pqPrivEncrypted
      vaults := (listMindMaps db userId).map fun map =>
        { id := map.id
          titleEncrypted := map.titleEncrypted
          vaultNoteEncrypted := map.vaultNoteEncrypted }
      attachments := (listRotationAttachments db userId).map fun attachment =>
        { id := attachment.id
          mapId := attachment.mapId
          encryptionMeta := attachment.encryptionMeta } }

end Accounts
end MindMapVault
