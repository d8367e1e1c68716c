import MindMapVault.Crypto.Kem
import MindMapVault.Crypto.KeyRotation
import MindMapVault.Crypto.Suite

/-!
# The client over bytes

Read over bytes, the functions of the client are those that sign-ins, saves and password changes
are proved right with: what one of them makes, the other makes too, and where one throws the
other gives nothing.
-/

namespace Except

universe u v

variable {ε : Type u} {α β : Type v}

theorem ok_bind (value : α) (next : α → Except ε β) : (ok value >>= next) = next value := rfl

theorem toOption_bind (result : Except ε α) (next : α → Except ε β) :
    (result >>= next).toOption = result.toOption >>= fun value => (next value).toOption := by
  cases result <;> rfl

theorem toOption_map (result : Except ε α) (f : α → β) :
    (result.map f).toOption = result.toOption.map f := by
  cases result <;> rfl

theorem toOption_mapError {ε' : Type u} (result : Except ε α) (f : ε → ε') :
    (result.mapError f).toOption = result.toOption := by
  cases result <;> rfl

theorem toOption_mapM {Item Item' Result Result' : Type} {f : Item → Except ε Result}
    {f' : Item' → Option Result'} {readItem : Item → Item'} {read : Result → Result'}
    (agree : ∀ item, (f item).toOption.map read = f' (readItem item)) (items : List Item) :
    (items.map readItem).mapM f' = (items.mapM f).toOption.map (List.map read) := by
  induction items with
  | nil => rfl
  | cons item items ih =>
      rw [List.map_cons, List.mapM_cons, List.mapM_cons, ← agree, ih]
      cases f item with
      | error => rfl
      | ok first => cases items.mapM f <;> rfl

end Except

namespace MindMapVault
namespace Crypto

open Accounts (Argon2Params ManifestVault ManifestAttachment RotateVaultEntry RotateAttachmentEntry)
open Vault (Bytes)

section Reading

variable (prims : Primitives) (kem : KemPrimitives)

/-- The operations over bytes. -/
def bytes : Suite String String Bytes Nonce where
  toBase64 := toBase64
  fromBase64 := fun text => (fromBase64 text).toOption
  toHex := toHex
  isEmpty := fun text => text == ""
  argon2id := fun password salt params =>
    (prims.argon2id password salt params).toOption.map Subtype.val
  hkdfSha256 := fun ikm info => (prims.hkdfSha256 ikm info).1
  concat := fun first second => first ++ second
  aesEncrypt := fun keyBytes nonce plaintext =>
    (importAesKey keyBytes).toOption.map fun key => aesEncrypt prims key nonce plaintext
  aesDecrypt := fun keyBytes data =>
    (importAesKey keyBytes).toOption.bind fun key => (aesDecrypt prims key data).toOption
  x25519Public := kem.x25519Public
  x25519Shared := fun own other => (kem.x25519Shared own other).toOption
  mlKemPublic := kem.mlKemPublic
  mlKemEncapsulate := fun recipient seed => some (kem.mlKemEncapsulate recipient seed)

variable {prims kem}

theorem importAesKey_val (key : CryptoKey) : importAesKey key.1 = .ok key := dif_pos key.2

theorem bytes_deriveMasterKey (password saltB64 : String) (params : Argon2Params) :
    (bytes prims kem).deriveMasterKey password saltB64 params =
      (deriveMasterKey prims password saltB64 params).toOption.map Subtype.val := by
  rw [Suite.deriveMasterKey, deriveMasterKey]
  simp only [bytes]
  cases fromBase64 saltB64 <;> rfl

theorem bytes_deriveAuthToken (masterKey : Key256) :
    (bytes prims kem).deriveAuthToken masterKey.1 = deriveAuthToken prims masterKey :=
  rfl

theorem bytes_deriveTitleKey (masterKey : Key256) :
    (bytes prims kem).deriveTitleKey masterKey.1 = (deriveTitleKey prims masterKey).1 :=
  rfl

theorem bytes_deriveAttachmentWrapKey (masterKey : Key256) :
    (bytes prims kem).deriveAttachmentWrapKey masterKey.1 =
      (deriveAttachmentWrapKey prims masterKey).1 :=
  rfl

theorem bytes_aesEncrypt (key : CryptoKey) (nonce : Nonce) (plaintext : Bytes) :
    (bytes prims kem).aesEncrypt key.1 nonce plaintext =
      some (aesEncrypt prims key nonce plaintext) := by
  simp only [bytes, importAesKey_val]
  rfl

theorem bytes_sealText (key : CryptoKey) (nonce : Nonce) (plaintext : Bytes) :
    (bytes prims kem).sealText key.1 nonce plaintext =
      some (sealText prims key nonce plaintext) := by
  rw [Suite.sealText, bytes_aesEncrypt]
  rfl

theorem bytes_openText (key : CryptoKey) (text : String) :
    (bytes prims kem).openText key.1 text = (openText prims key text).toOption := by
  rw [Suite.openText, openText, Except.toOption_bind]
  simp only [bytes, importAesKey_val]
  rfl

/-- A title is sealed as it is everywhere. -/
theorem bytes_encryptTitle (title : Bytes) (masterKey : Key256) (nonce : Nonce) :
    (bytes prims kem).encryptTitle title masterKey.1 nonce =
      some (sealText prims (deriveTitleKey prims masterKey) nonce title) := by
  rw [Suite.encryptTitle, bytes_deriveTitleKey, bytes_sealText]

/-- A map is sealed as it is everywhere. -/
theorem bytes_encryptTree {Tree : Type} (codec : MapCodec Tree) (tree : Tree) (dek : Bytes)
    (nonce : Nonce) :
    (bytes prims kem).encryptTree (codec.stringify tree) dek nonce =
      (encryptTree prims codec tree dek nonce).toOption := by
  rw [Suite.encryptTree, encryptTree]
  simp only [bytes]
  cases importAesKey dek <;> rfl

/-- The draws of an encapsulation, as bytes. -/
def EncapDraws.read (draws : EncapDraws) : EncapsulationDraws Bytes Nonce where
  ephPrivate := draws.ephPrivate
  pqSeed := draws.pqSeed
  dek := draws.dek.1
  nonce := draws.nonce

/-- The result of an encapsulation, as bytes. -/
def HybridEncapResult.read (result : HybridEncapResult) : Encapsulated Bytes where
  ephClassicalPublic := result.ephClassicalPublic
  ephPqCiphertext := result.ephPqCiphertext
  wrappedDek := result.wrappedDek
  dek := result.dek.1

/-- An encapsulation is the one that maps are opened after. -/
theorem bytes_hybridEncap (classicalPub pqPub : Bytes) (draws : EncapDraws) :
    (bytes prims kem).hybridEncap classicalPub pqPub draws.read =
      (hybridEncap prims kem classicalPub pqPub draws).toOption.map HybridEncapResult.read := by
  rw [Suite.hybridEncap, hybridEncap, Except.toOption_bind]
  have agrees : (bytes prims kem).x25519Shared draws.read.ephPrivate classicalPub =
      (kem.x25519Shared draws.ephPrivate classicalPub).toOption := rfl
  rw [agrees]
  cases kem.x25519Shared draws.ephPrivate classicalPub with
  | error => rfl
  | ok shared =>
      have wraps : (bytes prims kem).aesEncrypt
          (deriveCombinedKey prims shared (kem.mlKemEncapsulate pqPub draws.pqSeed).2).1
          draws.nonce draws.dek.1 = _ := bytes_aesEncrypt _ _ _
      exact congrArg (fun wrapped => wrapped.bind fun wrappedDek => some
        (Encapsulated.mk (kem.x25519Public draws.ephPrivate)
          (kem.mlKemEncapsulate pqPub draws.pqSeed).1 wrappedDek draws.dek.1)) wraps

/-! ### A password change -/

/-- The metadata of an attachment, as the client reads it. -/
def readMeta (encryptionMeta : Option Json) : AttachmentMeta String where
  wrappedKeyB64 := wrappedKeyB64 encryptionMeta
  hkdfWrap := wrappedWithHkdf encryptionMeta

def readProfile (profile : LocalProfileForRotation) : RotationProfile String where
  argon2Salt := profile.argon2Salt
  argon2Params := profile.argon2Params
  classicalPrivEncrypted := profile.classicalPrivEncrypted
  pqPrivEncrypted := profile.pqPrivEncrypted
  keyVersion := profile.keyVersion

def readVault (vault : ManifestVault) : VaultTexts String where
  id := vault.id
  titleEncrypted := vault.titleEncrypted
  vaultNoteEncrypted := vault.vaultNoteEncrypted

def readAttachment (attachment : ManifestAttachment) : AttachmentEntry String where
  id := attachment.id
  encryptionMeta := readMeta attachment.encryptionMeta

def readRotatedVault (vault : RotateVaultEntry) : VaultTexts String where
  id := vault.id
  titleEncrypted := vault.titleEncrypted
  vaultNoteEncrypted := vault.vaultNoteEncrypted

def readRotatedAttachment (attachment : RotateAttachmentEntry) : RotatedAttachment String where
  id := attachment.id
  wrappedKeyB64 := attachment.wrappedKeyB64

def readBundle (bundle : PasswordRotationBundle) : RotationBundle String Bytes where
  newProfile := readProfile bundle.newProfile
  updatedVaults := bundle.updatedVaults.map readRotatedVault
  updatedAttachments := bundle.updatedAttachments.map readRotatedAttachment
  newMasterKey := bundle.newMasterKey.1
  currentAuthToken := bundle.currentAuthToken
  newAuthToken := bundle.newAuthToken

def Randomness.read (random : Randomness) : RotationDraws Bytes Nonce where
  newSalt := random.newSalt.1
  classicalNonce := random.classicalNonce
  pqNonce := random.pqNonce
  titleNonce := random.titleNonce
  noteNonce := random.noteNonce
  attachmentNonce := random.attachmentNonce

variable (random : Randomness) (oldMasterKey newMasterKey : Key256)

theorem bytes_reencrypt (oldKey newKey : CryptoKey) (nonce : Nonce) (text : String) :
    (bytes prims kem).reencrypt oldKey.1 newKey.1 nonce text =
      (reencrypt prims oldKey newKey nonce text).toOption := by
  rw [Suite.reencrypt, bytes_openText, reencrypt, Except.toOption_map]
  simp only [bytes_sealText]
  cases (openText prims oldKey text).toOption <;> rfl

theorem bytes_reencryptNote (vault : ManifestVault) :
    (bytes prims kem).reencryptNote random.read oldMasterKey.1 newMasterKey.1
        (readVault vault) =
      (reencryptNote prims random oldMasterKey newMasterKey vault).toOption := by
  rw [Suite.reencryptNote, reencryptNote]
  have filters : (readVault vault).vaultNoteEncrypted.filter
      (fun note => !(bytes prims kem).isEmpty note) = vault.vaultNoteEncrypted.filter (· ≠ "") := by
    refine congrArg (fun keep => vault.vaultNoteEncrypted.filter keep) ?_
    funext note
    exact (decide_not).symm
  rw [filters]
  cases vault.vaultNoteEncrypted.filter (· ≠ "") with
  | none => rfl
  | some rawNote =>
      simp only [bytes_deriveTitleKey, bytes_reencrypt, Except.toOption_mapError,
        Except.toOption_map]
      rfl

theorem bytes_reencryptVault (vault : ManifestVault) :
    (reencryptVault prims random oldMasterKey newMasterKey vault).toOption.map
        readRotatedVault =
      (bytes prims kem).reencryptVault random.read oldMasterKey.1 newMasterKey.1
        (readVault vault) := by
  rw [Suite.reencryptVault, reencryptVault, bytes_reencryptNote, bytes_deriveTitleKey,
    bytes_deriveTitleKey, bytes_reencrypt]
  simp only [Except.toOption_bind, Except.toOption_mapError, Randomness.read, readVault]
  cases reencrypt prims (deriveTitleKey prims oldMasterKey)
    (deriveTitleKey prims newMasterKey) (random.titleNonce vault.id) vault.titleEncrypted with
  | error => rfl
  | ok title => cases reencryptNote prims random oldMasterKey newMasterKey vault <;> rfl

theorem bytes_unwrapFileKey (masterKey : Key256) (encryptionMeta : Option Json) :
    (bytes prims kem).unwrapFileKey (readMeta encryptionMeta) masterKey.1 =
      (unwrapFileKey prims masterKey encryptionMeta).toOption := by
  have wrapKey : (bytes prims kem).attachmentWrapKey masterKey.1 (readMeta encryptionMeta) =
      (attachmentWrapKey prims masterKey encryptionMeta).1 := by
    rw [Suite.attachmentWrapKey, attachmentWrapKey, readMeta]
    cases wrappedWithHkdf encryptionMeta <;> rfl
  rw [Suite.unwrapFileKey, unwrapFileKey, wrapKey]
  simp only [bytes_openText, readMeta]
  cases wrappedKeyB64 encryptionMeta <;> rfl

theorem bytes_rewrapAttachment (attachment : ManifestAttachment) :
    (rewrapAttachment prims random oldMasterKey newMasterKey attachment).toOption.map
        readRotatedAttachment =
      (bytes prims kem).rewrapAttachment random.read oldMasterKey.1 newMasterKey.1
        (readAttachment attachment) := by
  rw [Suite.rewrapAttachment, readAttachment, bytes_unwrapFileKey, unwrapFileKey,
    rewrapAttachment, bytes_deriveAttachmentWrapKey]
  simp only [bytes_sealText]
  cases wrappedKeyB64 attachment.encryptionMeta with
  | none => rfl
  | some wrapped =>
      simp only [Except.toOption_map, Except.toOption_mapError]
      cases openText prims
        (attachmentWrapKey prims oldMasterKey attachment.encryptionMeta) wrapped <;> rfl

/-- A password change makes the bundle that rotations are proved right with. -/
theorem bytes_buildPasswordRotationBundle (oldPassword newPassword : String)
    (profile : LocalProfileForRotation) (vaults : List ManifestVault)
    (attachments : List ManifestAttachment) :
    (bytes prims kem).buildPasswordRotationBundle random.read oldPassword newPassword
        (readProfile profile) (vaults.map readVault) (attachments.map readAttachment) =
      (buildPasswordRotationBundle prims random oldPassword newPassword profile vaults
        attachments).toOption.map readBundle := by
  rw [Suite.buildPasswordRotationBundle, buildPasswordRotationBundle, bytes_deriveMasterKey]
  simp only [readProfile]
  cases deriveMasterKey prims oldPassword profile.argon2Salt profile.argon2Params with
  | error => rfl
  | ok oldMasterKey =>
      have opens : ∀ text, (bytes prims kem).openText oldMasterKey.1 text =
          (decryptPrivateKey prims oldMasterKey text).toOption := fun text =>
        bytes_openText (deriveMasterAesKey oldMasterKey) text
      have seals : ∀ (key : Key256) nonce plain, (bytes prims kem).sealText key.1 nonce plain =
          some (sealText prims (deriveMasterAesKey key) nonce plain) :=
        fun key nonce plain => bytes_sealText (deriveMasterAesKey key) nonce plain
      have newKey : deriveMasterKey prims newPassword
          ((bytes prims kem).toBase64 random.read.newSalt) argon2Defaults =
            deriveMasterKey prims newPassword (toBase64 random.newSalt.1) defaultArgon2Params :=
        rfl
      simp only [Except.toOption, Option.map_some, Option.bind_eq_bind, Option.bind_some,
        openPrivateKeys, opens, bytes_deriveMasterKey, newKey, Except.ok_bind]
      cases decryptPrivateKey prims oldMasterKey profile.classicalPrivEncrypted with
      | error => rfl
      | ok classicalPriv =>
          cases decryptPrivateKey prims oldMasterKey profile.pqPrivEncrypted with
          | error => rfl
          | ok pqPriv =>
              cases deriveMasterKey prims newPassword (toBase64 random.newSalt.1)
                defaultArgon2Params with
              | error => rfl
              | ok newMasterKey =>
                  simp only [Option.map_some, Option.bind_some, seals, Except.ok_bind, pure,
                    Except.pure, Except.mapError,
                    Except.toOption_mapM (bytes_reencryptVault random oldMasterKey newMasterKey),
                    Except.toOption_mapM (bytes_rewrapAttachment random oldMasterKey newMasterKey)]
                  cases vaults.mapM (reencryptVault prims random oldMasterKey newMasterKey) with
                  | error => rfl
                  | ok updatedVaults =>
                      cases attachments.mapM
                        (rewrapAttachment prims random oldMasterKey newMasterKey) <;> rfl

end Reading

end Crypto
end MindMapVault
