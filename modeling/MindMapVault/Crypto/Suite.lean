import MindMapVault.Accounts.Database

/-!
# What the client computes with keys, whatever its messages are

The functions of the client that make or open what it exchanges with a server, written once
over the operations they use. Read over bytes they are the functions the rest of the development
is about; read over terms they say what a server gets to see. A draw of the platform is an
argument, and whatever throws gives `none`.
-/

namespace MindMapVault
namespace Crypto

open Accounts (Argon2Params)

/-- The operations of the platform and the libraries. Keys and what is sealed under them are
data; the fields of a request are texts. -/
structure Suite (Password Text Data Nonce : Type) where
  toBase64 : Data → Text
  fromBase64 : Text → Option Data
  toHex : Data → Text
  isEmpty : Text → Bool
  argon2id : Password → Data → Argon2Params → Option Data
  hkdfSha256 : Data → String → Data
  concat : Data → Data → Data
  aesEncrypt : Data → Nonce → Data → Option Data
  aesDecrypt : Data → Data → Option Data
  x25519Public : Data → Data
  x25519Shared : Data → Data → Option Data
  mlKemPublic : Data → Data
  mlKemEncapsulate : Data → Data → Option (Data × Data)

/-- `SessionKeys`, with the public halves. -/
structure Session (Data : Type) where
  masterKey : Data
  classicalPrivKey : Data
  classicalPubKey : Data
  pqPrivKey : Data
  pqPubKey : Data
  deriving DecidableEq

/-- The key material of an account, as requests and answers carry it. -/
structure AccountKeys (Text : Type) where
  argon2Salt : Text
  argon2Params : Argon2Params
  classicalPublicKey : Text
  pqPublicKey : Text
  classicalPrivEncrypted : Text
  pqPrivEncrypted : Text
  deriving DecidableEq

/-- The body of `POST /auth/register`. -/
structure RegisterRequest (Text : Type) where
  username : String
  authToken : Text
  keys : AccountKeys Text
  inviteCode : Option String

/-- The draws of a new account. -/
structure AccountDraws (Data Nonce : Type) where
  salt : Data
  classicalPriv : Data
  pqPriv : Data
  classicalNonce : Nonce
  pqNonce : Nonce

/-- The draws of an encapsulation. -/
structure EncapsulationDraws (Data Nonce : Type) where
  ephPrivate : Data
  pqSeed : Data
  dek : Data
  nonce : Nonce

/-- `HybridEncapResult`. -/
structure Encapsulated (Data : Type) where
  ephClassicalPublic : Data
  ephPqCiphertext : Data
  wrappedDek : Data
  dek : Data

/-- What a save sends: the fields of the row, and the blob. -/
structure SavedVault (Text Data : Type) where
  titleEncrypted : Text
  ephClassicalPublic : Text
  ephPqCiphertext : Text
  wrappedDek : Text
  blob : Data

/-- The encryption metadata of an attachment: the wrapped file key, and whether `key_wrap` says
`hkdf-attachment-v1`. -/
structure AttachmentMeta (Text : Type) where
  wrappedKeyB64 : Option Text
  hkdfWrap : Bool
  deriving DecidableEq

/-- `EncryptedAttachmentBundle`. -/
structure AttachmentBundle (Text Data : Type) where
  ciphertext : Data
  encryptionMeta : AttachmentMeta Text

/-- `ShareCipherBundle`, with the salt of its metadata. -/
structure ShareBundle (Text Data : Type) where
  ciphertext : Data
  saltB64 : Text
  shareKey : Data

/-- The profile a rotation starts from. -/
structure RotationProfile (Text : Type) where
  argon2Salt : Text
  argon2Params : Argon2Params
  classicalPrivEncrypted : Text
  pqPrivEncrypted : Text
  keyVersion : Nat
  deriving DecidableEq

/-- A vault of the rotation manifest, and one of the bundle. -/
structure VaultTexts (Text : Type) where
  id : String
  titleEncrypted : Text
  vaultNoteEncrypted : Option Text
  deriving DecidableEq

/-- An attachment of the rotation manifest. -/
structure AttachmentEntry (Text : Type) where
  id : String
  encryptionMeta : AttachmentMeta Text
  deriving DecidableEq

/-- An attachment of the bundle. -/
structure RotatedAttachment (Text : Type) where
  id : String
  wrappedKeyB64 : Text
  deriving DecidableEq

/-- The draws of a rotation. -/
structure RotationDraws (Data Nonce : Type) where
  newSalt : Data
  classicalNonce : Nonce
  pqNonce : Nonce
  titleNonce : String → Nonce
  noteNonce : String → Nonce
  attachmentNonce : String → Nonce

/-- `PasswordRotationBundle`. -/
structure RotationBundle (Text Data : Type) where
  newProfile : RotationProfile Text
  updatedVaults : List (VaultTexts Text)
  updatedAttachments : List (RotatedAttachment Text)
  newMasterKey : Data
  currentAuthToken : Text
  newAuthToken : Text

/-- `DEFAULT_ARGON2_PARAMS`, which shares are made with too. -/
def argon2Defaults : Argon2Params where
  mCost := 65536
  tCost := 3
  pCost := 4

namespace Suite

variable {Password Text Data Nonce : Type} (suite : Suite Password Text Data Nonce)

/-! ### Keys -/

/-- `deriveMasterKey`. -/
def deriveMasterKey (password : Password) (saltB64 : Text) (params : Argon2Params) :
    Option Data := do
  let salt ← suite.fromBase64 saltB64
  suite.argon2id password salt params

/-- `deriveAuthToken`. -/
def deriveAuthToken (masterKey : Data) : Text :=
  suite.toHex (suite.hkdfSha256 masterKey "crypt-mind-auth-v1")

/-- `deriveTitleKey`. -/
def deriveTitleKey (masterKey : Data) : Data := suite.hkdfSha256 masterKey "crypt-mind-title-v1"

/-- `deriveAttachmentWrapKey`. -/
def deriveAttachmentWrapKey (masterKey : Data) : Data :=
  suite.hkdfSha256 masterKey "crypt-mind-attachment-wrap-v1"

/-- `toBase64(aesEncrypt(key, plaintext))`. -/
def sealText (key : Data) (nonce : Nonce) (plaintext : Data) : Option Text :=
  (suite.aesEncrypt key nonce plaintext).map suite.toBase64

/-- `aesDecrypt(key, fromBase64(text))`. -/
def openText (key : Data) (text : Text) : Option Data := do
  let data ← suite.fromBase64 text
  suite.aesDecrypt key data

/-! ### Accounts -/

/-- What a registration and an enrolment make of a password: the session, and what the account
is to keep. -/
def newAccount (password : Password) (draws : AccountDraws Data Nonce) :
    Option (Session Data × AccountKeys Text) := do
  let saltB64 := suite.toBase64 draws.salt
  let masterKey ← suite.deriveMasterKey password saltB64 argon2Defaults
  let classPrivEnc ← suite.sealText masterKey draws.classicalNonce draws.classicalPriv
  let pqPrivEnc ← suite.sealText masterKey draws.pqNonce draws.pqPriv
  let classicalPub := suite.x25519Public draws.classicalPriv
  let pqPub := suite.mlKemPublic draws.pqPriv
  return (
    { masterKey := masterKey
      classicalPrivKey := draws.classicalPriv
      classicalPubKey := classicalPub
      pqPrivKey := draws.pqPriv
      pqPubKey := pqPub },
    { argon2Salt := saltB64
      argon2Params := argon2Defaults
      classicalPublicKey := suite.toBase64 classicalPub
      pqPublicKey := suite.toBase64 pqPub
      classicalPrivEncrypted := classPrivEnc
      pqPrivEncrypted := pqPrivEnc })

/-- The request of the registration form. -/
def registerRequest (username : String) (inviteCode : Option String)
    (account : Session Data × AccountKeys Text) : RegisterRequest Text where
  username := username
  authToken := suite.deriveAuthToken account.1.masterKey
  keys := account.2
  inviteCode := inviteCode

/-- `openWithMasterKey`, with which a sign-in ends too. -/
def openWithMasterKey (masterKey : Data) (bundle : AccountKeys Text) : Option (Session Data) := do
  let classicalPrivKey ← suite.openText masterKey bundle.classicalPrivEncrypted
  let pqPrivKey ← suite.openText masterKey bundle.pqPrivEncrypted
  let classicalPubKey ← suite.fromBase64 bundle.classicalPublicKey
  let pqPubKey ← suite.fromBase64 bundle.pqPublicKey
  return {
    masterKey := masterKey
    classicalPrivKey := classicalPrivKey
    classicalPubKey := classicalPubKey
    pqPrivKey := pqPrivKey
    pqPubKey := pqPubKey }

/-- `trustThisDevice`: what the server is to store. -/
def trustThisDevice (masterKey key : Data) (nonce : Nonce) : Option Text :=
  suite.sealText key nonce masterKey

/-- `unwrapWithDevice`. -/
def unwrapWithDevice (key : Data) (wrappedMasterKey : Text) : Option Data :=
  suite.openText key wrappedMasterKey

/-! ### Vaults -/

/-- `deriveCombinedKey`. -/
def deriveCombinedKey (classicalShared pqShared : Data) : Data :=
  suite.hkdfSha256 (suite.concat classicalShared pqShared) "crypt-mind-dek-v1"

/-- `hybridEncap`. -/
def hybridEncap (recipientClassicalPub recipientPqPub : Data)
    (draws : EncapsulationDraws Data Nonce) : Option (Encapsulated Data) := do
  let ephPublic := suite.x25519Public draws.ephPrivate
  let classicalShared ← suite.x25519Shared draws.ephPrivate recipientClassicalPub
  let (pqCiphertext, pqShared) ← suite.mlKemEncapsulate recipientPqPub draws.pqSeed
  let combinedKey := suite.deriveCombinedKey classicalShared pqShared
  let wrappedDek ← suite.aesEncrypt combinedKey draws.nonce draws.dek
  return {
    ephClassicalPublic := ephPublic
    ephPqCiphertext := pqCiphertext
    wrappedDek := wrappedDek
    dek := draws.dek }

/-- `encryptTitle`, which notes are sealed with too. -/
def encryptTitle (title masterKey : Data) (nonce : Nonce) : Option Text :=
  suite.sealText (suite.deriveTitleKey masterKey) nonce title

/-- `encryptTree`, and `encryptBoard`, of what the map is written as. -/
def encryptTree (tree dek : Data) (nonce : Nonce) : Option Data := suite.aesEncrypt dek nonce tree

/-- `handleSave`, and the creation of a vault. -/
def handleSave (session : Session Data) (title tree : Data)
    (draws : EncapsulationDraws Data Nonce) (titleNonce treeNonce : Nonce) :
    Option (SavedVault Text Data) := do
  let titleEnc ← suite.encryptTitle title session.masterKey titleNonce
  let encap ← suite.hybridEncap session.classicalPubKey session.pqPubKey draws
  let encBlob ← suite.encryptTree tree encap.dek treeNonce
  return {
    titleEncrypted := titleEnc
    ephClassicalPublic := suite.toBase64 encap.ephClassicalPublic
    ephPqCiphertext := suite.toBase64 encap.ephPqCiphertext
    wrappedDek := suite.toBase64 encap.wrappedDek
    blob := encBlob }

/-! ### Attachments and shares -/

/-- `encryptAttachmentForOwner`. -/
def encryptAttachmentForOwner (plaintext masterKey fileKey : Data) (fileNonce wrapNonce : Nonce) :
    Option (AttachmentBundle Text Data) := do
  let ciphertext ← suite.aesEncrypt fileKey fileNonce plaintext
  let wrappedKey ← suite.sealText (suite.deriveAttachmentWrapKey masterKey) wrapNonce fileKey
  return {
    ciphertext := ciphertext
    encryptionMeta := { wrappedKeyB64 := some wrappedKey, hkdfWrap := true } }

/-- The key an attachment's file key is unwrapped with. -/
def attachmentWrapKey (masterKey : Data) (encryptionMeta : AttachmentMeta Text) : Data :=
  if encryptionMeta.hkdfWrap then suite.deriveAttachmentWrapKey masterKey else masterKey

/-- The first half of `decryptAttachmentForOwner`. -/
def unwrapFileKey (encryptionMeta : AttachmentMeta Text) (masterKey : Data) : Option Data := do
  let wrapped ← encryptionMeta.wrappedKeyB64
  suite.openText (suite.attachmentWrapKey masterKey encryptionMeta) wrapped

/-- `decryptAttachmentForOwner`. -/
def decryptAttachmentForOwner (ciphertext : Data) (encryptionMeta : AttachmentMeta Text)
    (masterKey : Data) : Option Data := do
  let fileKey ← suite.unwrapFileKey encryptionMeta masterKey
  suite.aesDecrypt fileKey ciphertext

/-- The bytes of an attachment that `handleCreateShare` shares; where the download says that they
are not encrypted there is no metadata. -/
def attachmentBytes (ciphertext : Data) (encryptionMeta : Option (AttachmentMeta Text))
    (masterKey : Data) : Option Data :=
  match encryptionMeta with
  | some encryptionMeta => suite.decryptAttachmentForOwner ciphertext encryptionMeta masterKey
  | none => some ciphertext

/-- `encryptBytesForShare`. -/
def encryptBytesForShare (bytes shareKey : Data) (nonce : Nonce) : Option Data :=
  suite.aesEncrypt shareKey nonce bytes

/-- `decryptBytesForShare`. -/
def decryptBytesForShare (ciphertext shareKey : Data) : Option Data :=
  suite.aesDecrypt shareKey ciphertext

/-- `createEncryptedShareBundle`, of what the payload is written as. -/
def createEncryptedShareBundle (payload : Data) (passphrase : Password) (salt : Data)
    (nonce : Nonce) : Option (ShareBundle Text Data) := do
  let key ← suite.argon2id passphrase salt argon2Defaults
  let ciphertext ← suite.encryptBytesForShare payload key nonce
  return { ciphertext := ciphertext, saltB64 := suite.toBase64 salt, shareKey := key }

/-- The key `unlockEncryptedShareBundle` derives from the metadata of a share. -/
def shareKeyOf (passphrase : Password) (saltB64 : Text) (params : Argon2Params) : Option Data :=
  suite.deriveMasterKey passphrase saltB64 params

/-! ### Rotation -/

section Rotation

variable (draws : RotationDraws Data Nonce) (oldMasterKey newMasterKey : Data)

/-- Open a text with one key and seal it with another. -/
def reencrypt (oldKey newKey : Data) (nonce : Nonce) (text : Text) : Option Text := do
  let plaintext ← suite.openText oldKey text
  suite.sealText newKey nonce plaintext

/-- The note of a vault sealed anew; an empty or absent one stays absent. -/
def reencryptNote (vault : VaultTexts Text) : Option (Option Text) :=
  match vault.vaultNoteEncrypted.filter fun note => !suite.isEmpty note with
  | none => some none
  | some rawNote =>
      (suite.reencrypt (suite.deriveTitleKey oldMasterKey) (suite.deriveTitleKey newMasterKey)
        (draws.noteNonce vault.id) rawNote).map some

/-- One vault of the bundle. -/
def reencryptVault (vault : VaultTexts Text) : Option (VaultTexts Text) := do
  let newTitleEncrypted ←
    suite.reencrypt (suite.deriveTitleKey oldMasterKey) (suite.deriveTitleKey newMasterKey)
      (draws.titleNonce vault.id) vault.titleEncrypted
  let newNoteEncrypted ← suite.reencryptNote draws oldMasterKey newMasterKey vault
  return {
    id := vault.id
    titleEncrypted := newTitleEncrypted
    vaultNoteEncrypted := newNoteEncrypted }

/-- One attachment of the bundle. -/
def rewrapAttachment (attachment : AttachmentEntry Text) : Option (RotatedAttachment Text) := do
  let fileKey ← suite.unwrapFileKey attachment.encryptionMeta oldMasterKey
  let rewrapped ← suite.sealText (suite.deriveAttachmentWrapKey newMasterKey)
    (draws.attachmentNonce attachment.id) fileKey
  return { id := attachment.id, wrappedKeyB64 := rewrapped }

end Rotation

/-- `buildPasswordRotationBundle`. -/
def buildPasswordRotationBundle (draws : RotationDraws Data Nonce)
    (oldPassword newPassword : Password) (currentProfile : RotationProfile Text)
    (vaults : List (VaultTexts Text)) (attachments : List (AttachmentEntry Text)) :
    Option (RotationBundle Text Data) := do
  let oldMasterKey ← suite.deriveMasterKey oldPassword currentProfile.argon2Salt
    currentProfile.argon2Params
  let classicalPriv ← suite.openText oldMasterKey currentProfile.classicalPrivEncrypted
  let pqPriv ← suite.openText oldMasterKey currentProfile.pqPrivEncrypted
  let newSaltB64 := suite.toBase64 draws.newSalt
  let newMasterKey ← suite.deriveMasterKey newPassword newSaltB64 argon2Defaults
  let newClassicalPrivEnc ← suite.sealText newMasterKey draws.classicalNonce classicalPriv
  let newPqPrivEnc ← suite.sealText newMasterKey draws.pqNonce pqPriv
  let updatedVaults ← vaults.mapM (suite.reencryptVault draws oldMasterKey newMasterKey)
  let updatedAttachments ← attachments.mapM (suite.rewrapAttachment draws oldMasterKey newMasterKey)
  return {
    newProfile :=
      { argon2Salt := newSaltB64
        argon2Params := argon2Defaults
        classicalPrivEncrypted := newClassicalPrivEnc
        pqPrivEncrypted := newPqPrivEnc
        keyVersion := currentProfile.keyVersion + 1 }
    updatedVaults := updatedVaults
    updatedAttachments := updatedAttachments
    newMasterKey := newMasterKey
    currentAuthToken := suite.deriveAuthToken oldMasterKey
    newAuthToken := suite.deriveAuthToken newMasterKey }

end Suite

end Crypto
end MindMapVault
