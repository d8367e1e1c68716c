import MindMapVault.Accounts.RotateCredentials
import MindMapVault.Crypto.Cipher

/-!
# A password change, from the client to the database and back

The client fetches the manifest, opens every item with the key of the old
password, seals it again with the key of the new one and sends the bundle; the
server checks the old password and runs the rotation. One item that does not open
stops the client before anything is sent.
-/

namespace MindMapVault
namespace Crypto

open Accounts
open Vault (Bytes StoredMindMap)

/-- The random draws of a rotation: the new salt, and a nonce for every item, by
its id. -/
structure Randomness where
  newSalt : { bytes : Bytes // bytes.length = 32 }
  classicalNonce : Nonce
  pqNonce : Nonce
  titleNonce : String → Nonce
  noteNonce : String → Nonce
  attachmentNonce : String → Nonce

/-- The key bundle of an account as the client holds it. -/
structure LocalProfileForRotation where
  argon2Salt : String
  argon2Params : Argon2Params
  classicalPrivEncrypted : String
  pqPrivEncrypted : String
  keyVersion : Nat
  deriving DecidableEq

/-- `PasswordRotationBundle`. -/
structure PasswordRotationBundle where
  newProfile : LocalProfileForRotation
  updatedVaults : List RotateVaultEntry
  updatedAttachments : List RotateAttachmentEntry
  newMasterKey : Key256
  currentAuthToken : String
  newAuthToken : String
  deriving DecidableEq

/-- `DEFAULT_ARGON2_PARAMS`. -/
def defaultArgon2Params : Argon2Params where
  mCost := 65536
  tCost := 3
  pCost := 4

section Client

variable (prims : Primitives) (random : Randomness)

/-- Both private keys, or the answer to a wrong password. -/
def openPrivateKeys (oldMasterKey : Key256) (profile : LocalProfileForRotation) :
    Except String (Bytes × Bytes) :=
  Except.mapError (fun _ => "Current password is incorrect") do
    let classicalPriv ← decryptPrivateKey prims oldMasterKey profile.classicalPrivEncrypted
    let pqPriv ← decryptPrivateKey prims oldMasterKey profile.pqPrivEncrypted
    return (classicalPriv, pqPriv)

/-- Open a text with one key and seal it with another. -/
def reencrypt (oldKey newKey : CryptoKey) (nonce : Nonce) (text : String) :
    Except String String :=
  (openText prims oldKey text).map (sealText prims newKey nonce)

/-- The note of a vault sealed anew; an empty or absent one stays absent. -/
def reencryptNote (oldMasterKey newMasterKey : Key256) (vault : ManifestVault) :
    Except String (Option String) :=
  match vault.vaultNoteEncrypted.filter (· ≠ "") with
  | none => .ok none
  | some rawNote =>
      Except.mapError
        (fun _ => s!"Failed to re-encrypt note for vault {vault.id}")
        ((reencrypt prims (deriveTitleKey prims oldMasterKey)
          (deriveTitleKey prims newMasterKey) (random.noteNonce vault.id)
          rawNote).map some)

/-- One vault of the bundle. -/
def reencryptVault (oldMasterKey newMasterKey : Key256) (vault : ManifestVault) :
    Except String RotateVaultEntry := do
  let newTitleEncrypted ←
    Except.mapError
      (fun _ => s!"Failed to re-encrypt title for vault {vault.id}")
      (reencrypt prims (deriveTitleKey prims oldMasterKey)
        (deriveTitleKey prims newMasterKey) (random.titleNonce vault.id)
        vault.titleEncrypted)
  let newNoteEncrypted ← reencryptNote prims random oldMasterKey newMasterKey vault
  return {
    id := vault.id
    titleEncrypted := newTitleEncrypted
    vaultNoteEncrypted := newNoteEncrypted }

/-- One attachment of the bundle. -/
def rewrapAttachment (oldMasterKey newMasterKey : Key256) (attachment : ManifestAttachment) :
    Except String RotateAttachmentEntry :=
  match wrappedKeyB64 attachment.encryptionMeta with
  | none =>
      .error s!"Attachment {attachment.id} has no wrapped key to rotate"
  | some wrappedB64 =>
      (Except.mapError
        (fun _ => s!"Failed to unwrap the file key for attachment {attachment.id}")
        (openText prims
          (attachmentWrapKey prims oldMasterKey attachment.encryptionMeta)
          wrappedB64)).map fun fileKey =>
        { id := attachment.id
          wrappedKeyB64 :=
            sealText prims (deriveAttachmentWrapKey prims newMasterKey)
              (random.attachmentNonce attachment.id) fileKey }

/-- `buildPasswordRotationBundle`. Of several items that fail, the first one
reports. -/
def buildPasswordRotationBundle (oldPassword newPassword : String)
    (currentProfile : LocalProfileForRotation) (vaults : List ManifestVault)
    (attachments : List ManifestAttachment) :
    Except String PasswordRotationBundle := do
  let oldMasterKey ← deriveMasterKey prims oldPassword
    currentProfile.argon2Salt currentProfile.argon2Params
  let privateKeys ← openPrivateKeys prims oldMasterKey currentProfile
  let newMasterKey ← deriveMasterKey prims newPassword
    (toBase64 random.newSalt.1) defaultArgon2Params
  let updatedVaults ← vaults.mapM (reencryptVault prims random oldMasterKey newMasterKey)
  let updatedAttachments ← attachments.mapM
    (rewrapAttachment prims random oldMasterKey newMasterKey)
  return {
    newProfile :=
      { argon2Salt := toBase64 random.newSalt.1
        argon2Params := defaultArgon2Params
        classicalPrivEncrypted :=
          sealText prims (deriveMasterAesKey newMasterKey) random.classicalNonce privateKeys.1
        pqPrivEncrypted :=
          sealText prims (deriveMasterAesKey newMasterKey) random.pqNonce privateKeys.2
        keyVersion := currentProfile.keyVersion + 1 }
    updatedVaults := updatedVaults
    updatedAttachments := updatedAttachments
    newMasterKey := newMasterKey
    currentAuthToken := deriveAuthToken prims oldMasterKey
    newAuthToken := deriveAuthToken prims newMasterKey }

end Client

/-- What the server is told by its password hash, its database, and its token
issuer. -/
structure Services where
  hashToken : String → Except AppError String
  verifyToken : String → String → Except AppError Unit
  driver : Driver
  clearsDevices : Bool
  issueTokens : Except AppError Unit

/-- What a rotation request is checked for before its transaction. -/
def admitRotation (services : Services) (db : Database) (userId : String)
    (body : RotateCredentialsRequest) : Except AppError Unit := do
  checkNewCredentials body.update
  let user ← findUser db userId
  services.verifyToken body.currentAuthToken user.authHash
  checkRotatedAttachments body.update.updatedAttachments

/-- `POST /api/auth/rotate-credentials`. Once the rotation has committed, only
the tokens of the answer can still fail. -/
def rotateCredentials (services : Services) (db : Database) (userId : String)
    (body : RotateCredentialsRequest) : Except AppError Unit × Database :=
  match admitRotation services db userId body with
  | .error error => (.error error, db)
  | .ok () =>
      match rotateUserCredentials services.hashToken services.driver db userId body.update with
      | (.error error, after) => (.error error, after)
      | (.ok (), rotated) =>
          (services.issueTokens,
            if services.clearsDevices then
              deleteAllUnlockMethods rotated userId
            else
              rotated)

/-- How a password change fails: in the client, or with an answer of the
server. -/
inductive ChangeError
  | thrown (text : String)
  | answered (error : AppError)
  deriving DecidableEq

/-- The profile the form hands to the bundle builder. -/
def profileOf (manifest : RotationManifest) :
    LocalProfileForRotation where
  argon2Salt := manifest.argon2Salt
  argon2Params := manifest.argon2Params
  classicalPrivEncrypted := manifest.classicalPrivEncrypted
  pqPrivEncrypted := manifest.pqPrivEncrypted
  keyVersion := manifest.keyVersion.toNat

/-- The request the form sends for a bundle, as the server reads it: the number of the key
version is to be a `u32`. -/
def PasswordRotationBundle.request (bundle : PasswordRotationBundle) :
    Except AppError RotateCredentialsRequest :=
  if 4294967296 ≤ bundle.newProfile.keyVersion then
    .error (.badRequest "new_key_version: invalid value, expected u32")
  else
    .ok
      { currentAuthToken := bundle.currentAuthToken
        update :=
          { newAuthToken := bundle.newAuthToken
            newArgon2Salt := bundle.newProfile.argon2Salt
            newArgon2Params := bundle.newProfile.argon2Params
            newClassicalPrivEncrypted := bundle.newProfile.classicalPrivEncrypted
            newPqPrivEncrypted := bundle.newProfile.pqPrivEncrypted
            newKeyVersion := .ofNat bundle.newProfile.keyVersion
            updatedVaults := bundle.updatedVaults
            updatedAttachments := bundle.updatedAttachments } }

/-- The bundle for what a manifest lists. -/
def bundleFor (prims : Primitives) (random : Randomness)
    (oldPassword newPassword : String) (manifest : RotationManifest) :
    Except String PasswordRotationBundle :=
  buildPasswordRotationBundle prims random oldPassword newPassword
    (profileOf manifest) manifest.vaults manifest.attachments

/-- A password change: manifest, bundle, rotation. -/
def changePassword (prims : Primitives) (random : Randomness) (services : Services)
    (db : Database) (userId oldPassword newPassword : String) :
    Except ChangeError Unit × Database :=
  match rotationManifest db userId with
  | .error error => (.error (.answered error), db)
  | .ok manifest =>
      match bundleFor prims random oldPassword newPassword manifest with
      | .error text => (.error (.thrown text), db)
      | .ok bundle =>
          match bundle.request with
          | .error error => (.error (.answered error), db)
          | .ok body =>
              match rotateCredentials services db userId body with
              | (.error error, after) => (.error (.answered error), after)
              | (.ok (), rotated) => (.ok (), rotated)

end Crypto
end MindMapVault
