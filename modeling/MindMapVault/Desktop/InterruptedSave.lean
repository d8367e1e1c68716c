import MindMapVault.Crypto.SameReads
import MindMapVault.Desktop.VaultFiles

/-!
# A local save that stops halfway

A save brings a fresh envelope, which goes into the index, and the map sealed under it,
which goes into the blob file: two commands, two files. A save that stops between the
two leaves the new envelope beside the old blob, and no history to fall back on.
-/

namespace MindMapVault
namespace Desktop

open Crypto Result
open Vault (Bytes Envelope Objects)

/-- `TextEncoder.encode`. -/
def encodeText (text : String) : Bytes := text.toUTF8.data.toList

section Open

variable {Tree : Type} (prims : Primitives) (kem : KemPrimitives)
variable (codec : MapCodec Tree) (session : SessionKeys)

/-- A local vault as the editor opens it: its title and its map. -/
def openLocalVault (files : VaultFiles) (id : String) : Option (String × Tree) := do
  let detail ← (getLocalVaultDetail files id).toOption
  let title ← (decryptTitle prims session.masterKey detail.titleEncrypted).toOption
  let dek ← (openEnvelope prims kem session detail.envelope).toOption
  let blob ← (getLocalVaultBlob files id).toOption
  let tree ← (decryptTree prims codec blob dek).toOption
  return (title, tree)

/-- The random draws of a save. -/
structure SaveDraws where
  titleNonce : Nonce
  encap : EncapDraws
  treeNonce : Nonce

/-- What `handleSave` seals before it stores anything. -/
def sealSave (draws : SaveDraws) (title : String) (tree : Tree) :
    Except String (LocalVaultUpdate × Bytes) := do
  let titleEnc := sealText prims (deriveTitleKey prims session.masterKey)
    draws.titleNonce (encodeText title)
  let encapsulated ← sealEnvelope prims kem session draws.encap
  let encBlob ← encryptTree prims codec tree encapsulated.dek.1 draws.treeNonce
  return (contentUpdate titleEnc encapsulated.envelope, encBlob)

end Open

/-- The writes of a local save: `updateVault`, then `uploadBlob`. -/
def localSaveWrites (mac : String → String) (files : VaultFiles) (id : String)
    (sealed : LocalVaultUpdate × Bytes) (now later : String) : List VaultWrite :=
  match updateMetaWrites mac files id sealed.1 now with
  | .error _ => []
  | .ok writes =>
      writes ++ saveBlobWrites mac (VaultWrite.performAll files writes) id sealed.2 later

section Opens

variable {Tree : Type} {prims : Primitives} {kem : KemPrimitives}
variable {codec : MapCodec Tree} {session : SessionKeys}
variable {files : VaultFiles} {id : String} {opened : String × Tree}

theorem getLocalVaultDetail_eq_ok {detail : LocalVaultMeta} :
    getLocalVaultDetail files id = .ok detail ↔ files.index.listed? id = some detail := by
  unfold getLocalVaultDetail File.listed?
  cases readIndex files.index with
  | error error => simp [bind, Except.bind, Except.toOption]
  | ok index =>
      simp only [bind, Except.bind, Except.toOption, Option.bind_some]
      cases index.find? id with
      | none => simp [throw, throwThe, MonadExceptOf.throw]
      | some vault => simp [pure, Except.pure]

theorem getLocalVaultBlob_eq_ok {blob : Bytes} :
    getLocalVaultBlob files id = .ok blob ↔ files.blobs id = some blob := by
  unfold getLocalVaultBlob
  cases files.blobs id <;> simp

/-- A vault opens exactly if every step of opening it succeeds. -/
theorem openLocalVault_eq_some :
    openLocalVault prims kem codec session files id = some opened ↔
      ∃ detail dek blob, files.index.listed? id = some detail ∧
        decryptTitle prims session.masterKey detail.titleEncrypted = .ok opened.1 ∧
        openEnvelope prims kem session detail.envelope = .ok dek ∧
        files.blobs id = some blob ∧
        decryptTree prims codec blob dek = .ok opened.2 := by
  simp only [openLocalVault, bind, Option.bind_eq_some_iff, toOption_eq_some,
    getLocalVaultDetail_eq_ok, getLocalVaultBlob_eq_ok, pure, Option.some.injEq]
  constructor
  · rintro ⟨detail, listed, title, titled, dek, enveloped, blob, stored, tree, read, rfl⟩
    exact ⟨detail, dek, blob, listed, titled, enveloped, stored, read⟩
  · rintro ⟨detail, dek, blob, listed, titled, enveloped, stored, read⟩
    exact ⟨detail, listed, opened.1, titled, dek, enveloped, blob, stored, opened.2, read, rfl⟩

end Opens

section Stopped

variable {Tree : Type} {prims : Primitives} {kem : KemPrimitives}
variable {codec : MapCodec Tree} {session : SessionKeys}
variable {mac : String → String} {files : VaultFiles} {id : String}

variable (mac) in
/-- A save of a listed vault writes the index, the blob and the index again. -/
theorem localSaveWrites_eq {vault : LocalVaultMeta} (listed : files.index.listed? id = some vault)
    (sealed : LocalVaultUpdate × Bytes) (now later : String) :
    ∃ updated, updated.find? id = some (sealed.1.apply now vault) ∧
      localSaveWrites mac files id sealed now later =
        [.writeIndex (stampIndexForWrite mac updated), .writeBlob id sealed.2,
          .writeIndex (stampIndexForWrite mac
            (touchLocalVault (stampIndexForWrite mac updated) id later))] := by
  obtain ⟨index, read, found⟩ := Option.bind_eq_some_iff.mp listed
  have accepted : updateLocalVaultMeta index id sealed.1 now =
      .ok { vaults := modifyVault id (sealed.1.apply now) index.vaults } := by
    rw [updateLocalVaultMeta, found]
  obtain ⟨_, same, changed⟩ := updateLocalVaultMeta_eq_ok accepted
  rw [found] at same
  cases same
  refine ⟨_, changed, ?_⟩
  have metaWrites : updateMetaWrites mac files id sealed.1 now =
      .ok [.writeIndex (stampIndexForWrite mac
        { vaults := modifyVault id (sealed.1.apply now) index.vaults })] := by
    simp only [updateMetaWrites, toOption_eq_some.mp read, accepted, bind,
      Except.bind, pure, Except.pure]
  rw [localSaveWrites, metaWrites]
  rfl

variable (mac) in
/-- The entry of a vault after its index was stamped and written. -/
theorem listed?_stamped {index : VaultIndex} {vault : LocalVaultMeta}
    (found : index.find? id = some vault) :
    (File.holds (stampIndexForWrite mac index)).listed? id =
      some { vault with
        vaultColor := none
        entryMac := some (computeEntryMac mac vault) } := by
  have read : (File.holds (stampIndexForWrite mac index)).listed? id =
      (stampIndexForWrite mac index).find? id := rfl
  rw [read, find?_stampIndexForWrite, found, Option.map_some]

/-- A vault whose entry and blob come from one save opens as that save. -/
theorem openLocalVault_of_saved (ideal : prims.Ideal) (kemIdeal : kem.Ideal)
    (decodes : ∀ text, prims.decodeText (encodeText text) = text)
    {draws : SaveDraws} {title : String} {tree : Tree} {sealed : LocalVaultUpdate × Bytes}
    (done : sealSave prims kem codec session draws title tree = .ok sealed)
    (vault : LocalVaultMeta) (now : String) {detail : LocalVaultMeta}
    (listed : files.index.listed? id = some detail)
    (sameTitle : detail.titleEncrypted = (sealed.1.apply now vault).titleEncrypted)
    (sameEnvelope : detail.envelope = (sealed.1.apply now vault).envelope)
    (stored : files.blobs id = some sealed.2) :
    openLocalVault prims kem codec session files id = some (title, tree) := by
  obtain ⟨encapsulated, wrapped, done⟩ := bind_eq_ok.mp done
  obtain ⟨encBlob, encrypted, same⟩ := bind_eq_ok.mp done
  cases same
  obtain ⟨sameKey, unwrapped⟩ := openEnvelope_sealEnvelope ideal kemIdeal wrapped
  refine openLocalVault_eq_some.mpr ⟨detail, draws.encap.dek.1, encBlob, listed, ?_, ?_, stored, ?_⟩
  · rw [sameTitle, decryptTitle]
    simp only [LocalVaultUpdate.apply, contentUpdate, Option.getD_some,
      openText_sealText ideal, Except.map, decodes]
  · rw [sameEnvelope]
    exact unwrapped
  · rw [sameKey] at encrypted
    exact decryptTree_encryptTree ideal encrypted

/-- The envelope of a save brings the key it was drawn with. -/
theorem opensUnder_savedKey (ideal : prims.Ideal) (kemIdeal : kem.Ideal)
    {draws : SaveDraws} {title : String} {tree : Tree} {sealed : LocalVaultUpdate × Bytes}
    (done : sealSave prims kem codec session draws title tree = .ok sealed)
    (vault : LocalVaultMeta) (now : String) :
    openEnvelope prims kem session (sealed.1.apply now vault).envelope = .ok draws.encap.dek.1 := by
  obtain ⟨encapsulated, wrapped, done⟩ := bind_eq_ok.mp done
  obtain ⟨encBlob, -, sealedAs⟩ := bind_eq_ok.mp done
  cases sealedAs
  exact (openEnvelope_sealEnvelope ideal kemIdeal wrapped).2

/-- A blob that the key of a save does not open gives no map. -/
theorem decryptTree_foreign {dek : Key256} {blob : Bytes} {tree : Tree}
    (foreign : (aesDecrypt prims dek.toCryptoKey blob).toOption = none) :
    decryptTree prims codec blob dek.1 ≠ .ok tree := by
  intro opens
  obtain ⟨key, imported, opens⟩ := bind_eq_ok.mp opens
  rw [importAesKey_key256] at imported
  cases imported
  obtain ⟨plaintext, decrypted, -⟩ := bind_eq_ok.mp opens
  rw [toOption_eq_some.mpr decrypted] at foreign
  contradiction

variable (mac) in
/-- A new envelope beside a blob that its key does not open opens nothing. -/
theorem openLocalVault_between (ideal : prims.Ideal) (kemIdeal : kem.Ideal)
    {vault : LocalVaultMeta} (listed : files.index.listed? id = some vault)
    {draws : SaveDraws} {title : String} {tree : Tree} {sealed : LocalVaultUpdate × Bytes}
    (done : sealSave prims kem codec session draws title tree = .ok sealed)
    (foreign : ∀ blob, files.blobs id = some blob →
      (aesDecrypt prims draws.encap.dek.toCryptoKey blob).toOption = none)
    (now later : String) :
    openLocalVault prims kem codec session
      (VaultWrite.performAll files
        ((localSaveWrites mac files id sealed now later).take 1)) id = none := by
  obtain ⟨updated, changed, writes⟩ := localSaveWrites_eq mac listed sealed now later
  have stamped := listed?_stamped mac changed
  rw [writes]
  refine Option.eq_none_iff_forall_ne_some.mpr fun opened opens => ?_
  obtain ⟨detail, dek, blob, written, -, unwrapped, stillStored, decrypted⟩ :=
    openLocalVault_eq_some.mp opens
  rw [show detail = _ from (Option.some.inj (stamped.symm.trans written)).symm] at unwrapped
  have unwraps := opensUnder_savedKey ideal kemIdeal done vault now
  cases Except.ok.inj (unwraps.symm.trans unwrapped)
  exact decryptTree_foreign (foreign blob stillStored) decrypted

variable (mac) in
/-- A save that may stop anywhere leaves a vault that opens as before it or as after it,
exactly unless it stops after the new envelope was written and before the blob was. The
blob from before the save does not open with a key that was drawn for it. -/
theorem save_opensEither_iff (ideal : prims.Ideal) (kemIdeal : kem.Ideal)
    (decodes : ∀ text, prims.decodeText (encodeText text) = text) {before : String × Tree}
    (opened : openLocalVault prims kem codec session files id = some before)
    {draws : SaveDraws} {title : String} {tree : Tree} {sealed : LocalVaultUpdate × Bytes}
    (done : sealSave prims kem codec session draws title tree = .ok sealed)
    (foreign : ∀ blob, files.blobs id = some blob →
      (aesDecrypt prims draws.encap.dek.toCryptoKey blob).toOption = none)
    (now later : String) (stopped : Nat) :
    (openLocalVault prims kem codec session
          (VaultWrite.performAll files
            ((localSaveWrites mac files id sealed now later).take stopped)) id =
        some before ∨
      openLocalVault prims kem codec session
          (VaultWrite.performAll files
            ((localSaveWrites mac files id sealed now later).take stopped)) id =
        some (title, tree)) ↔ stopped ≠ 1 := by
  obtain ⟨vault, _, oldBlob, listed, -, -, stored, -⟩ := openLocalVault_eq_some.mp opened
  obtain ⟨updated, changed, writes⟩ := localSaveWrites_eq mac listed sealed now later
  have stamped := listed?_stamped mac changed
  rw [writes]
  match stopped with
  | 0 => exact iff_of_true (.inl opened) (by simp)
  | 1 =>
      refine iff_of_false ?_ (by simp)
      have shut := openLocalVault_between mac ideal kemIdeal listed done foreign now later
      rw [writes] at shut
      rw [shut]
      simp
  | 2 =>
      refine iff_of_true (.inr ?_) (by simp)
      exact openLocalVault_of_saved ideal kemIdeal decodes done vault now
        stamped rfl rfl (Objects.put_self _ _ _)
  | more + 3 =>
      refine iff_of_true (.inr ?_) (by simp)
      rw [List.take_of_length_le (by simp)]
      have touched := find?_touchLocalVault (stampIndexForWrite mac updated) id later
      rw [find?_stampIndexForWrite, changed] at touched
      exact openLocalVault_of_saved ideal kemIdeal decodes done vault now
        (listed?_stamped mac touched) rfl rfl (Objects.put_self _ _ _)

end Stopped

section Samples

/-- Primitives that read text back. -/
def textPrimitives : Primitives :=
  { keyedPrimitives with
    decodeText := fun bytes => (String.fromUTF8? ⟨bytes.toArray⟩).getD "" }

theorem textPrimitives_ideal : textPrimitives.Ideal := ⟨keyedPrimitives_ideal.decrypt_encrypt⟩

theorem textPrimitives_decodes (text : String) :
    textPrimitives.decodeText (encodeText text) = text := by
  have same : (⟨(encodeText text).toArray⟩ : ByteArray) = text.toByteArray := rfl
  have valid : text.toByteArray.IsValidUTF8 := text.isValidUTF8
  simp only [textPrimitives, same, String.fromUTF8?, valid, dif_pos, Option.getD_some]
  rfl

/-- Exchanges that add the two keys up. -/
def addingKem : KemPrimitives where
  x25519Public priv := priv
  x25519Shared own other := .ok (List.zipWith (· + ·) own other)
  mlKemPublic priv := priv
  mlKemEncapsulate pub seed := (seed, List.zipWith (· + ·) pub seed)
  mlKemDecapsulate ciphertext priv := .ok (List.zipWith (· + ·) priv ciphertext)

theorem addingKem_ideal : addingKem.Ideal where
  agreement own other shared agreed := by
    rw [← agreed]
    exact congrArg Except.ok (List.zipWith_comm_of_comm fun x y => UInt8.add_comm x y)
  decapsulate_encapsulate _ _ := rfl

/-- Maps that are their own text. -/
def bytesCodec : MapCodec Bytes where
  stringify := fun tree => tree
  parse := .ok
  parse_stringify _ := rfl

/-- A session. -/
def sampleSession : SessionKeys where
  masterKey := exampleKey
  classicalPrivKey := [1, 2, 3]
  pqPrivKey := [4, 5, 6]

/-- Draws with a key of this number. -/
def sampleDraws (number : UInt8) : SaveDraws where
  titleNonce := exampleNonce
  encap :=
    { ephPrivate := [7, 8, 9]
      pqSeed := [10, 11, 12]
      dek := fillKey [number]
      nonce := exampleNonce }
  treeNonce := exampleNonce

/-- A save of a map under a key of this number. -/
def sampleSealed (number : UInt8) (tree : Bytes) : LocalVaultUpdate × Bytes :=
  ((sealSave textPrimitives addingKem bytesCodec sampleSession (sampleDraws number) "Map"
    tree).toOption).getD ({}, [])

theorem sampleSealed_eq (number : UInt8) (tree : Bytes) :
    sealSave textPrimitives addingKem bytesCodec sampleSession (sampleDraws number) "Map"
      tree = .ok (sampleSealed number tree) := rfl

/-- A vault that was saved under a key of this number, and nothing else. -/
def savedFiles (number : UInt8) (tree : Bytes) : VaultFiles where
  index := .holds
    { vaults := (sampleIndex "").vaults.map ((sampleSealed number tree).1.apply "2025-02-02") }
  blobs := Objects.put (fun _ => none) "v" (sampleSealed number tree).2
  attachments := fun _ _ => none

theorem savedFiles_blobs (number : UInt8) (tree : Bytes) :
    (savedFiles number tree).blobs "v" = some (sampleSealed number tree).2 :=
  Objects.put_self (fun _ => none) "v" (sampleSealed number tree).2

/-- The saved vault opens as it was saved. -/
theorem openLocalVault_sample (number : UInt8) (tree : Bytes) :
    openLocalVault textPrimitives addingKem bytesCodec sampleSession
      (savedFiles number tree) "v" = some ("Map", tree) := by
  have listed : (savedFiles number tree).index.listed? "v" =
      ((sampleIndex "").vaults.map ((sampleSealed number tree).1.apply "2025-02-02")).head? := by
    simp [savedFiles, File.listed?, readIndex, Except.toOption, VaultIndex.find?,
      sampleIndex, LocalVaultUpdate.apply]
  exact openLocalVault_of_saved textPrimitives_ideal addingKem_ideal
    textPrimitives_decodes (sampleSealed_eq number tree) _ "2025-02-02" listed rfl rfl
    (savedFiles_blobs number tree)

/-- The key of the second save does not open the blob of the first. -/
theorem savedFiles_foreign (blob : Bytes) (stored : (savedFiles 1 [1]).blobs "v" = some blob) :
    (aesDecrypt textPrimitives (sampleDraws 2).encap.dek.toCryptoKey blob).toOption = none := by
  cases (savedFiles_blobs 1 [1]).symm.trans stored
  decide +kernel

/-- A second save that stops once the blob is written. -/
theorem save_opensEither_iff_blobWritten :
    openLocalVault textPrimitives addingKem bytesCodec sampleSession
          (VaultWrite.performAll (savedFiles 1 [1])
            ((localSaveWrites (·) (savedFiles 1 [1]) "v" (sampleSealed 2 [2])
              "2025-03-03" "2025-03-04").take 2)) "v" = some ("Map", [1]) ∨
      openLocalVault textPrimitives addingKem bytesCodec sampleSession
          (VaultWrite.performAll (savedFiles 1 [1])
            ((localSaveWrites (·) (savedFiles 1 [1]) "v" (sampleSealed 2 [2])
              "2025-03-03" "2025-03-04").take 2)) "v" = some ("Map", [2]) :=
  (save_opensEither_iff (·) textPrimitives_ideal addingKem_ideal textPrimitives_decodes
    (openLocalVault_sample 1 [1]) (sampleSealed_eq 2 [2]) savedFiles_foreign
    "2025-03-03" "2025-03-04" 2).mpr (by decide)

/-- A second save that stops between the index and the blob: the vault does not open. -/
theorem stopped_save_shuts_vault :
    ¬ ∀ (prims : Primitives) (kem : KemPrimitives) (codec : MapCodec Bytes)
        (session : SessionKeys) (mac : String → String) (files : VaultFiles)
        (id : String) (before : String × Bytes) (draws : SaveDraws) (title : String)
        (tree : Bytes) (sealed : LocalVaultUpdate × Bytes) (now later : String)
        (stopped : Nat),
      prims.Ideal → kem.Ideal →
      openLocalVault prims kem codec session files id = some before →
      sealSave prims kem codec session draws title tree = .ok sealed →
        openLocalVault prims kem codec session
            (VaultWrite.performAll files
              ((localSaveWrites mac files id sealed now later).take stopped)) id =
          some before ∨
        openLocalVault prims kem codec session
            (VaultWrite.performAll files
              ((localSaveWrites mac files id sealed now later).take stopped)) id =
          some (title, tree) := by
  intro always
  have either := always textPrimitives addingKem bytesCodec sampleSession (·)
    (savedFiles 1 [1]) "v" ("Map", [1]) (sampleDraws 2) "Map" [2] (sampleSealed 2 [2])
    "2025-03-03" "2025-03-04" 1 textPrimitives_ideal addingKem_ideal
    (openLocalVault_sample 1 [1]) (sampleSealed_eq 2 [2])
  obtain ⟨vault, _, _, listed, -⟩ := openLocalVault_eq_some.mp (openLocalVault_sample 1 [1])
  rw [openLocalVault_between (·) textPrimitives_ideal addingKem_ideal listed
    (sampleSealed_eq 2 [2]) savedFiles_foreign] at either
  simp at either

end Samples

end Desktop
end MindMapVault
