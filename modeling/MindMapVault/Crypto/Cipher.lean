import MindMapVault.Accounts.Database
import MindMapVault.Foundations.Base64
import MindMapVault.Foundations.Result

/-!
# Keys, ciphertexts and the functions that read them

What the client derives from a password, what it wraps under which key, and the
functions it reads titles, notes, private keys and attachments with. The
primitives come from the browser and from libraries; all that is asked of them
is that decryption undoes encryption.
-/

namespace MindMapVault
namespace Crypto

open Accounts (Argon2Params)
open Vault (Bytes StoredMindMap)

/-- The output of a key derivation. -/
abbrev Key256 := { bytes : Bytes // bytes.length = 32 }

/-- An AES key as the browser imports it. -/
abbrev CryptoKey := { bytes : Bytes // bytes.length = 16 ∨ bytes.length = 24 ∨ bytes.length = 32 }

/-- A nonce drawn for one encryption. -/
abbrev Nonce := { bytes : Bytes // bytes.length = 12 }

/-- Argon2id, HKDF-SHA256 and AES-GCM as the platform offers them, and its text
decoder. -/
structure Primitives where
  argon2id : String → Bytes → Argon2Params → Except String Key256
  hkdfSha256 : Bytes → String → Key256
  gcmEncrypt : CryptoKey → Bytes → Bytes → Bytes
  gcmDecrypt : CryptoKey → Bytes → Bytes → Option Bytes
  decodeText : Bytes → String

/-- What is encrypted can be decrypted with the same key and nonce. -/
structure Primitives.Ideal (prims : Primitives) : Prop where
  decrypt_encrypt : ∀ key nonce plaintext,
    prims.gcmDecrypt key nonce (prims.gcmEncrypt key nonce plaintext) = some plaintext

/-- `toBase64`. -/
def toBase64 (bytes : Bytes) : String := Base64.encode bytes

/-- `fromBase64`. -/
def fromBase64 (text : String) : Except String Bytes :=
  match Base64.decode text with
  | some bytes => .ok bytes
  | none => .error "InvalidCharacterError"

@[simp] theorem fromBase64_toBase64 (bytes : Bytes) :
    fromBase64 (toBase64 bytes) = .ok bytes := by
  rw [fromBase64, toBase64, Base64.decode_encode]

/-- `importAesKey`. -/
def importAesKey (keyBytes : Bytes) : Except String CryptoKey :=
  if valid : keyBytes.length = 16 ∨ keyBytes.length = 24 ∨ keyBytes.length = 32 then
    .ok ⟨keyBytes, valid⟩
  else
    .error "DataError"

/-- A derived key as an AES key. -/
def Key256.toCryptoKey (key : Key256) : CryptoKey := ⟨key.1, .inr (.inr key.2)⟩

/-- `toHex`, of one byte. -/
def hexByte (byte : UInt8) : List Char :=
  let digits := "0123456789abcdef".toList
  [digits.getD (byte.toNat / 16) '0', digits.getD (byte.toNat % 16) '0']

/-- `toHex`. -/
def toHex (bytes : Bytes) : String := String.ofList (bytes.flatMap hexByte)

section Keys

variable (prims : Primitives)

/-- `aesEncrypt`: the nonce, then the ciphertext. -/
def aesEncrypt (key : CryptoKey) (nonce : Nonce) (plaintext : Bytes) : Bytes :=
  nonce.1 ++ prims.gcmEncrypt key nonce.1 plaintext

/-- `aesDecrypt`. -/
def aesDecrypt (key : CryptoKey) (data : Bytes) : Except String Bytes :=
  match prims.gcmDecrypt key (data.take 12) (data.drop 12) with
  | some plaintext => .ok plaintext
  | none => .error "OperationError"

variable {prims} in
/-- What was encrypted is read back. -/
theorem aesDecrypt_aesEncrypt (ideal : prims.Ideal) (key : CryptoKey) (nonce : Nonce)
    (plaintext : Bytes) :
    aesDecrypt prims key (aesEncrypt prims key nonce plaintext) = .ok plaintext := by
  have split : (aesEncrypt prims key nonce plaintext).take 12 = nonce.1 ∧
      (aesEncrypt prims key nonce plaintext).drop 12 = prims.gcmEncrypt key nonce.1 plaintext :=
    ⟨List.take_left' nonce.2, List.drop_left' nonce.2⟩
  rw [aesDecrypt, split.1, split.2, ideal.decrypt_encrypt]

/-- `deriveMasterKey`. -/
def deriveMasterKey (password saltB64 : String) (params : Argon2Params) : Except String Key256 := do
  let salt ← fromBase64 saltB64
  prims.argon2id password salt params

/-- `deriveAuthToken`. -/
def deriveAuthToken (masterKey : Key256) : String :=
  toHex (prims.hkdfSha256 masterKey.1 "crypt-mind-auth-v1").1

/-- `deriveTitleKey`. -/
def deriveTitleKey (masterKey : Key256) : CryptoKey :=
  (prims.hkdfSha256 masterKey.1 "crypt-mind-title-v1").toCryptoKey

/-- `deriveMasterAesKey`, and `importAesKey` of a master key. -/
def deriveMasterAesKey (masterKey : Key256) : CryptoKey := masterKey.toCryptoKey

/-- `deriveAttachmentWrapKey`. -/
def deriveAttachmentWrapKey (masterKey : Key256) : CryptoKey :=
  (prims.hkdfSha256 masterKey.1 "crypt-mind-attachment-wrap-v1").toCryptoKey

/-- `aesDecrypt(key, fromBase64(text))`. -/
def openText (key : CryptoKey) (text : String) : Except String Bytes := do
  let data ← fromBase64 text
  aesDecrypt prims key data

/-- `toBase64(aesEncrypt(key, plaintext))`. -/
def sealText (key : CryptoKey) (nonce : Nonce) (plaintext : Bytes) : String :=
  toBase64 (aesEncrypt prims key nonce plaintext)

variable {prims} in
theorem openText_sealText (ideal : prims.Ideal) (key : CryptoKey) (nonce : Nonce)
    (plaintext : Bytes) :
    openText prims key (sealText prims key nonce plaintext) = .ok plaintext := by
  rw [openText, sealText, fromBase64_toBase64]
  exact aesDecrypt_aesEncrypt ideal key nonce plaintext

end Keys

/-- `encryption_meta?.wrapped_key_b64`, where the script takes it for true. -/
def wrappedKeyB64 (encryptionMeta : Option Json) : Option String :=
  ((encryptionMeta.bind (·.get? "wrapped_key_b64")).filter (·.truthy)).map Json.toText

/-- `encryption_meta?.key_wrap === 'hkdf-attachment-v1'`. -/
def wrappedWithHkdf (encryptionMeta : Option Json) : Bool :=
  match encryptionMeta.bind (·.get? "key_wrap") with
  | some (.string wrap) => wrap == "hkdf-attachment-v1"
  | _ => false

section Readers

variable (prims : Primitives) (masterKey : Key256)

/-- `decryptTitle`, which notes are read with too. -/
def decryptTitle (titleB64 : String) : Except String String :=
  (openText prims (deriveTitleKey prims masterKey) titleB64).map prims.decodeText

/-- The note of a vault as the vault list reads it. -/
def decryptNote (note : Option String) : Except String String :=
  match note.filter (· ≠ "") with
  | none => .ok ""
  | some text => decryptTitle prims masterKey text

/-- A private key as a sign-in reads it. -/
def decryptPrivateKey (encrypted : String) : Except String Bytes :=
  openText prims (deriveMasterAesKey masterKey) encrypted

/-- The key an attachment's file key is wrapped with. -/
def attachmentWrapKey (encryptionMeta : Option Json) : CryptoKey :=
  if wrappedWithHkdf encryptionMeta then
    deriveAttachmentWrapKey prims masterKey
  else
    deriveMasterAesKey masterKey

/-- The first half of `decryptAttachmentForOwner`: the file key. -/
def unwrapFileKey (encryptionMeta : Option Json) : Except String Bytes :=
  match wrappedKeyB64 encryptionMeta with
  | none => .error "Attachment is missing owner-side encryption metadata"
  | some wrapped =>
      openText prims (attachmentWrapKey prims masterKey encryptionMeta) wrapped

/-- `decryptAttachmentForOwner`. -/
def decryptAttachmentForOwner
    (ciphertext : Bytes) (encryptionMeta : Option Json) : Except String Bytes := do
  let fileKey ← unwrapFileKey prims masterKey encryptionMeta
  let fileCryptoKey ← importAesKey fileKey
  aesDecrypt prims fileCryptoKey ciphertext

end Readers

end Crypto
end MindMapVault
