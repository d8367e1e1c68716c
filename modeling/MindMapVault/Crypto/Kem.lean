import MindMapVault.Crypto.Cipher

/-!
# The envelope of a map

A map is sealed with a key of its own, and that key is wrapped for the key pair of the
user: under a key that both an X25519 agreement and an ML-KEM encapsulation go into. The
wrap and the two public parts of it are the envelope. All that is asked of the two
schemes is that the recipient gets the shared secrets the sender got.
-/

namespace MindMapVault
namespace Crypto

open Vault (Bytes Envelope)

/-- X25519 and ML-KEM-768 as the libraries offer them. A seed stands for the randomness
of one encapsulation. -/
structure KemPrimitives where
  x25519Public : Bytes → Bytes
  x25519Shared : Bytes → Bytes → Except String Bytes
  mlKemPublic : Bytes → Bytes
  mlKemEncapsulate : Bytes → Bytes → Bytes × Bytes
  mlKemDecapsulate : Bytes → Bytes → Except String Bytes

/-- Both sides of an exchange get the same secrets. -/
structure KemPrimitives.Ideal (kem : KemPrimitives) : Prop where
  agreement : ∀ own other shared,
    kem.x25519Shared own (kem.x25519Public other) = .ok shared →
      kem.x25519Shared other (kem.x25519Public own) = .ok shared
  decapsulate_encapsulate : ∀ priv seed,
    kem.mlKemDecapsulate (kem.mlKemEncapsulate (kem.mlKemPublic priv) seed).1 priv =
      .ok (kem.mlKemEncapsulate (kem.mlKemPublic priv) seed).2

/-- The private keys of a session. -/
structure SessionKeys where
  masterKey : Key256
  classicalPrivKey : Bytes
  pqPrivKey : Bytes

/-- The random draws of one encapsulation. -/
structure EncapDraws where
  ephPrivate : Bytes
  pqSeed : Bytes
  dek : Key256
  nonce : Nonce

/-- `HybridEncapResult`. -/
structure HybridEncapResult where
  ephClassicalPublic : Bytes
  ephPqCiphertext : Bytes
  wrappedDek : Bytes
  dek : Key256

/-- The envelope a request carries. -/
def HybridEncapResult.envelope (result : HybridEncapResult) : Envelope where
  ephClassicalPublic := toBase64 result.ephClassicalPublic
  ephPqCiphertext := toBase64 result.ephPqCiphertext
  wrappedDek := toBase64 result.wrappedDek

section Hybrid

variable (prims : Primitives) (kem : KemPrimitives)

/-- `deriveCombinedKey`. -/
def deriveCombinedKey (classicalShared pqShared : Bytes) : CryptoKey :=
  (prims.hkdfSha256 (classicalShared ++ pqShared) "crypt-mind-dek-v1").toCryptoKey

/-- `hybridEncap`. -/
def hybridEncap (recipientClassicalPub recipientPqPub : Bytes) (draws : EncapDraws) :
    Except String HybridEncapResult := do
  let ephPublic := kem.x25519Public draws.ephPrivate
  let classicalShared ← kem.x25519Shared draws.ephPrivate recipientClassicalPub
  let (pqCiphertext, pqShared) := kem.mlKemEncapsulate recipientPqPub draws.pqSeed
  let combinedKey := deriveCombinedKey prims classicalShared pqShared
  return {
    ephClassicalPublic := ephPublic
    ephPqCiphertext := pqCiphertext
    wrappedDek := aesEncrypt prims combinedKey draws.nonce draws.dek.1
    dek := draws.dek }

/-- `hybridDecap`. -/
def hybridDecap
    (userClassicalPriv userPqPriv ephClassicalPublic ephPqCiphertext wrappedDek : Bytes) :
    Except String Bytes := do
  let classicalShared ← kem.x25519Shared userClassicalPriv ephClassicalPublic
  let pqShared ← kem.mlKemDecapsulate ephPqCiphertext userPqPriv
  aesDecrypt prims (deriveCombinedKey prims classicalShared pqShared) wrappedDek

/-- `hybridDecap` of the envelope of a row. -/
def openEnvelope (session : SessionKeys) (envelope : Envelope) : Except String Bytes := do
  let ephClassicalPublic ← fromBase64 envelope.ephClassicalPublic
  let ephPqCiphertext ← fromBase64 envelope.ephPqCiphertext
  let wrappedDek ← fromBase64 envelope.wrappedDek
  hybridDecap prims kem session.classicalPrivKey session.pqPrivKey
    ephClassicalPublic ephPqCiphertext wrappedDek

/-- `hybridEncap` to the key pair of a session. -/
def sealEnvelope (session : SessionKeys) (draws : EncapDraws) :
    Except String HybridEncapResult :=
  hybridEncap prims kem (kem.x25519Public session.classicalPrivKey)
    (kem.mlKemPublic session.pqPrivKey) draws

variable {prims kem} in
/-- The recipient of an envelope gets the key that was wrapped. -/
theorem openEnvelope_sealEnvelope (ideal : prims.Ideal) (kemIdeal : kem.Ideal)
    {session : SessionKeys} {draws : EncapDraws} {result : HybridEncapResult}
    (done : sealEnvelope prims kem session draws = .ok result) :
    result.dek = draws.dek ∧ openEnvelope prims kem session result.envelope = .ok draws.dek.1 := by
  unfold sealEnvelope hybridEncap at done
  cases shared : kem.x25519Shared draws.ephPrivate (kem.x25519Public session.classicalPrivKey) with
  | error error => simp [shared, bind, Except.bind] at done
  | ok classicalShared =>
      simp only [shared, bind, Except.bind, pure, Except.pure, Except.ok.injEq] at done
      subst done
      refine ⟨rfl, ?_⟩
      have agreed := kemIdeal.agreement _ _ _ shared
      have decapsulated := kemIdeal.decapsulate_encapsulate session.pqPrivKey draws.pqSeed
      simp only [openEnvelope, HybridEncapResult.envelope, fromBase64_toBase64,
        hybridDecap, bind, Except.bind, agreed, decapsulated]
      exact aesDecrypt_aesEncrypt ideal _ _ _

end Hybrid

/-- How maps are written as text and read back: the JSON of a map and its UTF-8 bytes. -/
structure MapCodec (Tree : Type) where
  stringify : Tree → Bytes
  parse : Bytes → Except String Tree
  parse_stringify : ∀ tree, parse (stringify tree) = .ok tree

section Trees

variable {Tree : Type} (prims : Primitives) (codec : MapCodec Tree)

/-- `encryptTree`. -/
def encryptTree (tree : Tree) (dek : Bytes) (nonce : Nonce) : Except String Bytes := do
  let key ← importAesKey dek
  return aesEncrypt prims key nonce (codec.stringify tree)

/-- `decryptTree`. -/
def decryptTree (blob dek : Bytes) : Except String Tree := do
  let key ← importAesKey dek
  let plaintext ← aesDecrypt prims key blob
  codec.parse plaintext

@[simp] theorem importAesKey_key256 (key : Key256) :
    importAesKey key.1 = .ok key.toCryptoKey :=
  dif_pos (.inr (.inr key.2))

variable {prims codec} in
/-- What was sealed with a key opens with it. -/
theorem decryptTree_encryptTree
    (ideal : prims.Ideal) {tree : Tree} {dek : Bytes} {nonce : Nonce} {blob : Bytes}
    (done : encryptTree prims codec tree dek nonce = .ok blob) :
    decryptTree prims codec blob dek = .ok tree := by
  unfold encryptTree at done
  unfold decryptTree
  cases imported : importAesKey dek with
  | error error => simp [imported, bind, Except.bind] at done
  | ok key =>
      simp only [imported, bind, Except.bind, pure, Except.pure, Except.ok.injEq] at done
      subst done
      simp only [bind, Except.bind, aesDecrypt_aesEncrypt ideal, codec.parse_stringify]

end Trees

end Crypto
end MindMapVault
