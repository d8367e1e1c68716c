import MindMapVault.Crypto.KeyRotation

/-!
# What stays readable across a password change

Every item of a manifest is opened with the old key and sealed with the new one,
and the rotation puts it back where it came from. So whatever the reading
functions made of the account with the old key, they make of it with the new one.
-/

namespace MindMapVault
namespace Crypto

open Accounts Result
open Vault (Bytes StoredMindMap)

variable {prims : Primitives} {random : Randomness}

section Items

variable {oldMasterKey newMasterKey : Key256}

/-- A sealed text is never empty. -/
theorem sealText_ne_empty (key : CryptoKey) (nonce : Nonce) (plaintext : Bytes) :
    sealText prims key nonce plaintext ≠ "" := by
  intro empty
  have decoded := fromBase64_toBase64 (aesEncrypt prims key nonce plaintext)
  rw [sealText] at empty
  rw [empty] at decoded
  have none_left : aesEncrypt prims key nonce plaintext = [] := (Except.ok.inj decoded).symm
  have start : nonce.1 = [] := (List.append_eq_nil_iff.mp none_left).1
  have length := nonce.2
  simp [start] at length

theorem reencrypt_eq_ok {oldKey newKey : CryptoKey} {nonce : Nonce} {text result : String} :
    reencrypt prims oldKey newKey nonce text = .ok result ↔
      ∃ plaintext, openText prims oldKey text = .ok plaintext ∧
        sealText prims newKey nonce plaintext = result :=
  map_eq_ok

/-- What the client does to a note. -/
theorem reencryptNote_eq_ok {vault : ManifestVault} {note : Option String}
    (done : reencryptNote prims random oldMasterKey newMasterKey vault = .ok note) :
    (vault.vaultNoteEncrypted.filter (· ≠ "") = none ∧ note = none) ∨
      ∃ rawNote plaintext, vault.vaultNoteEncrypted.filter (· ≠ "") = some rawNote ∧
        openText prims (deriveTitleKey prims oldMasterKey) rawNote = .ok plaintext ∧
        note = some (sealText prims (deriveTitleKey prims newMasterKey)
          (random.noteNonce vault.id) plaintext) := by
  unfold reencryptNote at done
  cases stored : vault.vaultNoteEncrypted.filter (· ≠ "") with
  | none =>
      simp only [stored] at done
      exact .inl ⟨rfl, (Except.ok.inj done).symm⟩
  | some rawNote =>
      simp only [stored] at done
      obtain ⟨sealed, resealed, same⟩ := map_eq_ok.mp (mapError_eq_ok.mp done)
      obtain ⟨plaintext, opened, rfl⟩ := reencrypt_eq_ok.mp resealed
      exact .inr ⟨rawNote, plaintext, rfl, opened, same.symm⟩

/-- What the client does to a vault. -/
theorem reencryptVault_eq_ok {vault : ManifestVault} {entry : RotateVaultEntry}
    (done : reencryptVault prims random oldMasterKey newMasterKey vault = .ok entry) :
    entry.id = vault.id ∧
      (∃ plaintext,
        openText prims (deriveTitleKey prims oldMasterKey)
            vault.titleEncrypted = .ok plaintext ∧
          entry.titleEncrypted =
            sealText prims (deriveTitleKey prims newMasterKey)
              (random.titleNonce vault.id) plaintext) ∧
        reencryptNote prims random oldMasterKey newMasterKey vault =
          .ok entry.vaultNoteEncrypted := by
  unfold reencryptVault at done
  obtain ⟨title, retitled, done⟩ := bind_eq_ok.mp done
  obtain ⟨note, renoted, done⟩ := bind_eq_ok.mp done
  obtain ⟨plaintext, opened, rfl⟩ := reencrypt_eq_ok.mp (mapError_eq_ok.mp retitled)
  cases Except.ok.inj done
  exact ⟨rfl, ⟨plaintext, opened, rfl⟩, renoted⟩

/-- What the client does to an attachment. -/
theorem rewrapAttachment_eq_ok {attachment : ManifestAttachment} {entry : RotateAttachmentEntry}
    (done : rewrapAttachment prims random oldMasterKey newMasterKey attachment = .ok entry) :
    entry.id = attachment.id ∧
      ∃ fileKey, unwrapFileKey prims oldMasterKey attachment.encryptionMeta =
          .ok fileKey ∧
        entry.wrappedKeyB64 =
          sealText prims (deriveAttachmentWrapKey prims newMasterKey)
            (random.attachmentNonce attachment.id) fileKey := by
  unfold rewrapAttachment at done
  cases wrapped : wrappedKeyB64 attachment.encryptionMeta with
  | none => simp [wrapped] at done
  | some wrappedB64 =>
      simp only [wrapped] at done
      obtain ⟨fileKey, unwrapped, same⟩ := map_eq_ok.mp done
      cases same
      refine ⟨rfl, fileKey, ?_, rfl⟩
      rw [unwrapFileKey, wrapped]
      exact mapError_eq_ok.mp unwrapped

/-- A title sealed anew reads as before. -/
theorem decryptTitle_sealText (ideal : prims.Ideal) {text title : String} {plaintext : Bytes}
    (opened : openText prims (deriveTitleKey prims oldMasterKey) text = .ok plaintext)
    (read : decryptTitle prims oldMasterKey text = .ok title) (nonce : Nonce) :
    decryptTitle prims newMasterKey
        (sealText prims (deriveTitleKey prims newMasterKey) nonce plaintext) = .ok title := by
  rw [decryptTitle, opened] at read
  rw [decryptTitle, openText_sealText ideal]
  exact read

end Items

/-- The client has opened and sealed everything a manifest lists. -/
structure Built
    (prims : Primitives) (random : Randomness)
    (oldPassword newPassword : String) (manifest : RotationManifest)
    (bundle : PasswordRotationBundle)
    (oldMasterKey newMasterKey : Key256) (classicalPriv pqPriv : Bytes) : Prop where
  oldKey : deriveMasterKey prims oldPassword manifest.argon2Salt
    manifest.argon2Params = .ok oldMasterKey
  newKey : deriveMasterKey prims newPassword bundle.newProfile.argon2Salt
    bundle.newProfile.argon2Params = .ok newMasterKey
  classical : decryptPrivateKey prims oldMasterKey
    manifest.classicalPrivEncrypted = .ok classicalPriv
  pq : decryptPrivateKey prims oldMasterKey manifest.pqPrivEncrypted = .ok pqPriv
  newClassical : bundle.newProfile.classicalPrivEncrypted =
    sealText prims (deriveMasterAesKey newMasterKey) random.classicalNonce classicalPriv
  newPq : bundle.newProfile.pqPrivEncrypted =
    sealText prims (deriveMasterAesKey newMasterKey) random.pqNonce pqPriv
  vaults : manifest.vaults.mapM
    (reencryptVault prims random oldMasterKey newMasterKey) = .ok bundle.updatedVaults
  attachments : manifest.attachments.mapM
    (rewrapAttachment prims random oldMasterKey newMasterKey) = .ok bundle.updatedAttachments

/-- A bundle that comes about is complete. -/
theorem bundleFor_eq_ok {oldPassword newPassword : String} {manifest : RotationManifest}
    {bundle : PasswordRotationBundle}
    (done : bundleFor prims random oldPassword newPassword manifest = .ok bundle) :
    ∃ oldMasterKey newMasterKey classicalPriv pqPriv,
      Built prims random oldPassword newPassword manifest bundle oldMasterKey
        newMasterKey classicalPriv pqPriv := by
  unfold bundleFor buildPasswordRotationBundle at done
  obtain ⟨oldMasterKey, oldKey, done⟩ := bind_eq_ok.mp done
  obtain ⟨⟨classicalPriv, pqPriv⟩, opened, done⟩ := bind_eq_ok.mp done
  obtain ⟨newMasterKey, newKey, done⟩ := bind_eq_ok.mp done
  obtain ⟨updatedVaults, vaults, done⟩ := bind_eq_ok.mp done
  obtain ⟨updatedAttachments, attachments, done⟩ := bind_eq_ok.mp done
  obtain ⟨classical, classicalRead, opened⟩ := bind_eq_ok.mp (mapError_eq_ok.mp opened)
  obtain ⟨pq, pqRead, opened⟩ := bind_eq_ok.mp opened
  cases Except.ok.inj opened
  cases Except.ok.inj done
  exact ⟨oldMasterKey, newMasterKey, classicalPriv, pqPriv, oldKey, newKey,
    classicalRead, pqRead, rfl, rfl, vaults, attachments⟩

/-- What a manifest says of the account. -/
theorem rotationManifest_eq_ok {db : Database} {userId : String} {manifest : RotationManifest}
    (listed : rotationManifest db userId = .ok manifest) :
    ∃ user, db.users.find? userId = some user ∧
      manifest.argon2Salt = user.argon2Salt ∧
      manifest.argon2Params = user.argon2Params ∧
      manifest.classicalPrivEncrypted = user.classicalPrivEncrypted ∧
      manifest.pqPrivEncrypted = user.pqPrivEncrypted ∧
      (∀ vault ∈ manifest.vaults, ∃ map ∈ ownedVaults db userId,
        vault = ⟨map.id, map.titleEncrypted, map.vaultNoteEncrypted⟩) ∧
      (∀ map ∈ ownedVaults db userId,
        ⟨map.id, map.titleEncrypted, map.vaultNoteEncrypted⟩ ∈ manifest.vaults) ∧
      (∀ item ∈ manifest.attachments, ∃ attachment ∈ rotationAttachments db userId,
        item = ⟨attachment.id, attachment.mapId, attachment.encryptionMeta⟩) ∧
      ∀ attachment ∈ rotationAttachments db userId,
        ⟨attachment.id, attachment.mapId, attachment.encryptionMeta⟩ ∈ manifest.attachments := by
  obtain ⟨user, found, rfl⟩ := map_eq_ok.mp listed
  refine ⟨user, findUser_eq_ok.mp found, rfl, rfl, rfl, rfl, ?_, ?_, ?_, ?_⟩
  · intro vault present
    obtain ⟨map, sorted, rfl⟩ := List.mem_map.mp present
    exact ⟨map, List.mem_mergeSort.mp sorted, rfl⟩
  · intro map present
    exact List.mem_map.mpr ⟨map, List.mem_mergeSort.mpr present, rfl⟩
  · intro item present
    obtain ⟨attachment, sorted, rfl⟩ := List.mem_map.mp present
    exact ⟨attachment, List.mem_mergeSort.mp sorted, rfl⟩
  · intro attachment present
    exact List.mem_map.mpr ⟨attachment, List.mem_mergeSort.mpr present, rfl⟩

/-- Everything of the account opens with the key of a password. -/
structure OpensAll
    (prims : Primitives) (db : Database) (userId password : String)
    (user : StoredUser) (masterKey : Key256) : Prop where
  found : db.users.find? userId = some user
  key : deriveMasterKey prims password user.argon2Salt user.argon2Params = .ok masterKey
  classical : ∃ privateKey, decryptPrivateKey prims masterKey
    user.classicalPrivEncrypted = .ok privateKey
  pq : ∃ privateKey, decryptPrivateKey prims masterKey user.pqPrivEncrypted = .ok privateKey
  titles : ∀ map ∈ ownedVaults db userId,
    ∃ title, decryptTitle prims masterKey map.titleEncrypted = .ok title
  notes : ∀ map ∈ ownedVaults db userId,
    ∃ note, decryptNote prims masterKey map.vaultNoteEncrypted = .ok note
  attachments : ∀ attachment ∈ rotationAttachments db userId,
    ∃ fileKey, unwrapFileKey prims masterKey attachment.encryptionMeta = .ok fileKey

/-- A bundle comes about only if everything opens with the old key. -/
theorem Built.opensAll {db : Database} {userId oldPassword newPassword : String}
    {manifest : RotationManifest} {bundle : PasswordRotationBundle}
    {oldMasterKey newMasterKey : Key256} {classicalPriv pqPriv : Bytes}
    (built : Built prims random oldPassword newPassword manifest bundle
      oldMasterKey newMasterKey classicalPriv pqPriv)
    (listed : rotationManifest db userId = .ok manifest) :
    ∃ user, OpensAll prims db userId oldPassword user oldMasterKey := by
  obtain ⟨user, found, salt, params, classical, pq, -, vaults, -, attachments⟩ :=
    rotationManifest_eq_ok listed
  have vaultOpens : ∀ map ∈ ownedVaults db userId,
      (∃ title, decryptTitle prims oldMasterKey map.titleEncrypted = .ok title) ∧
      ∃ note, decryptNote prims oldMasterKey map.vaultNoteEncrypted = .ok note := by
    intro map present
    obtain ⟨entry, _, done⟩ := (Result.mapM_mem built.vaults).1 _ (vaults map present)
    obtain ⟨-, ⟨plaintext, opened, -⟩, renoted⟩ := reencryptVault_eq_ok done
    refine ⟨⟨_, map_eq_ok.mpr ⟨plaintext, opened, rfl⟩⟩, ?_⟩
    rcases reencryptNote_eq_ok renoted with
      ⟨absent, -⟩ | ⟨rawNote, notePlaintext, stored, noteOpened, -⟩
    · refine ⟨"", ?_⟩
      simp only [decryptNote, absent]
    · refine ⟨prims.decodeText notePlaintext, ?_⟩
      simp only [decryptNote, stored]
      exact map_eq_ok.mpr ⟨notePlaintext, noteOpened, rfl⟩
  refine ⟨user, found, ?_, ⟨classicalPriv, ?_⟩, ⟨pqPriv, ?_⟩,
    fun map present => (vaultOpens map present).1,
    fun map present => (vaultOpens map present).2, ?_⟩
  · rw [← salt, ← params]
    exact built.oldKey
  · rw [← classical]
    exact built.classical
  · rw [← pq]
    exact built.pq
  · intro attachment present
    obtain ⟨entry, _, done⟩ :=
      (Result.mapM_mem built.attachments).1 _ (attachments attachment present)
    obtain ⟨-, fileKey, opened, -⟩ := rewrapAttachment_eq_ok done
    exact ⟨fileKey, opened⟩

/-- What the old key reads of the account, the new key reads of what a rotation
left. -/
structure SameReads
    (prims : Primitives) (db : Database) (userId : String)
    (rotated : Database) (oldMasterKey newMasterKey : Key256) : Prop where
  vaults : ∀ map ∈ db.mindMaps.rows, map.userId = userId →
    ∃ after, rotated.mindMaps.find? map.id = some after ∧
      (∀ title, decryptTitle prims oldMasterKey map.titleEncrypted =
          .ok title →
        decryptTitle prims newMasterKey after.titleEncrypted = .ok title) ∧
      ∀ note, decryptNote prims oldMasterKey map.vaultNoteEncrypted =
          .ok note →
        decryptNote prims newMasterKey after.vaultNoteEncrypted = .ok note
  attachments : ∀ attachment ∈ db.attachments.rows,
    db.ownsAttachment userId attachment = true → attachment.status ≠ .deleted →
      ∃ after, rotated.attachments.find? attachment.id = some after ∧
        (∀ fileKey,
          unwrapFileKey prims oldMasterKey attachment.encryptionMeta =
              .ok fileKey →
            unwrapFileKey prims newMasterKey after.encryptionMeta = .ok fileKey) ∧
        ∀ ciphertext plaintext,
          decryptAttachmentForOwner prims oldMasterKey ciphertext
              attachment.encryptionMeta = .ok plaintext →
            decryptAttachmentForOwner prims newMasterKey ciphertext
              after.encryptionMeta = .ok plaintext

section Committed

variable {db : Database} {userId oldPassword newPassword : String}
variable {manifest : RotationManifest} {bundle : PasswordRotationBundle}
variable {oldMasterKey newMasterKey : Key256} {classicalPriv pqPriv : Bytes}
variable {update : RotateCredentialsUpdate} {newAuthHash : String}

/-- An entry of the bundle comes from the vault of its id. -/
theorem Built.vault_of_entry
    (built : Built prims random oldPassword newPassword manifest bundle
      oldMasterKey newMasterKey classicalPriv pqPriv)
    (listed : rotationManifest db userId = .ok manifest)
    {map : StoredMindMap} (present : map ∈ db.mindMaps.rows)
    {entry : RotateVaultEntry} (given : entry ∈ bundle.updatedVaults)
    (named : entry.id = map.id) :
    reencryptVault prims random oldMasterKey newMasterKey
      ⟨map.id, map.titleEncrypted, map.vaultNoteEncrypted⟩ = .ok entry := by
  obtain ⟨_, _, _, _, _, _, vaults, _⟩ := rotationManifest_eq_ok listed
  obtain ⟨vault, inManifest, done⟩ := (Result.mapM_mem built.vaults).2 entry given
  obtain ⟨other, owned, rfl⟩ := vaults vault inManifest
  have sameId : other.id = map.id := (reencryptVault_eq_ok done).1.symm.trans named
  have same := db.mindMaps.eq_of_key_eq (Table.mem_select.mp owned).1 present sameId
  rw [← same]
  exact done

/-- An entry of the bundle comes from the attachment of its id. -/
theorem Built.attachment_of_entry
    (built : Built prims random oldPassword newPassword manifest bundle
      oldMasterKey newMasterKey classicalPriv pqPriv)
    (listed : rotationManifest db userId = .ok manifest)
    {attachment : StoredMindMapAttachment}
    (present : attachment ∈ db.attachments.rows)
    {entry : RotateAttachmentEntry} (given : entry ∈ bundle.updatedAttachments)
    (named : entry.id = attachment.id) :
    rewrapAttachment prims random oldMasterKey newMasterKey
      ⟨attachment.id, attachment.mapId, attachment.encryptionMeta⟩ = .ok entry := by
  obtain ⟨_, _, _, _, _, _, _, _, attachments, _⟩ := rotationManifest_eq_ok listed
  obtain ⟨item, inManifest, done⟩ := (Result.mapM_mem built.attachments).2 entry given
  obtain ⟨other, selected, rfl⟩ := attachments item inManifest
  have sameId : other.id = attachment.id := (rewrapAttachment_eq_ok done).1.symm.trans named
  have same := db.attachments.eq_of_key_eq (Table.mem_select.mp selected).1 present sameId
  rw [← same]
  exact done

/-- A vault of the user reads as before. -/
theorem Built.sameVault (ideal : prims.Ideal)
    (built : Built prims random oldPassword newPassword manifest bundle
      oldMasterKey newMasterKey classicalPriv pqPriv)
    (listed : rotationManifest db userId = .ok manifest)
    (sent : update.updatedVaults = bundle.updatedVaults)
    {map : StoredMindMap} (present : map ∈ db.mindMaps.rows)
    (owned : map.userId = userId)
    (covered : map.id ∈ update.updatedVaults.map RotateVaultEntry.id) :
    (∀ title, decryptTitle prims oldMasterKey map.titleEncrypted = .ok title →
      decryptTitle prims newMasterKey
        (update.updatedVaults.foldl (vaultStep userId) map).titleEncrypted = .ok title) ∧
    ∀ note, decryptNote prims oldMasterKey map.vaultNoteEncrypted = .ok note →
      decryptNote prims newMasterKey
        (update.updatedVaults.foldl (vaultStep userId) map).vaultNoteEncrypted = .ok note := by
  obtain ⟨entry, last⟩ := lastEntry_isSome covered
  obtain ⟨given, named⟩ := lastEntry_eq_some last
  obtain ⟨note, folded, carried⟩ := foldl_vaultStep userId owned update.updatedVaults last
  have done := built.vault_of_entry listed present (sent ▸ given) named
  obtain ⟨-, ⟨plaintext, opened, titled⟩, renoted⟩ := reencryptVault_eq_ok done
  constructor
  · intro title read
    rw [folded, titled]
    exact decryptTitle_sealText ideal opened read _
  · intro text read
    rcases reencryptNote_eq_ok renoted with
      ⟨absent, -⟩ | ⟨rawNote, notePlaintext, stored, noteOpened, sealed⟩
    · -- no entry of this vault carries a note, so there still is none
      have still : (update.updatedVaults.foldl (vaultStep userId)
          map).vaultNoteEncrypted.filter (· ≠ "") = none := by
        rcases foldl_vaultStep_note userId update.updatedVaults map with
          kept | ⟨other, otherGiven, otherNamed, set⟩
        · rw [kept]
          exact absent
        · have otherDone :=
            built.vault_of_entry listed present (sent ▸ otherGiven) otherNamed
          rcases reencryptNote_eq_ok (reencryptVault_eq_ok otherDone).2.2 with
            ⟨-, none⟩ | ⟨_, _, some, -, -⟩
          · rw [set, none]
            rfl
          · rw [absent] at some
            cases some
      simp only [decryptNote, absent] at read
      simp only [decryptNote, still]
      exact read
    · have written : note = some (sealText prims
          (deriveTitleKey prims newMasterKey) (random.noteNonce map.id) notePlaintext) :=
        carried _ sealed (sealText_ne_empty _ _ _)
      have full : sealText prims (deriveTitleKey prims newMasterKey)
          (random.noteNonce map.id) notePlaintext ≠ "" :=
        sealText_ne_empty _ _ _
      simp only [decryptNote, stored] at read
      rw [folded]
      simp only [decryptNote, written, Option.filter_some, full, ne_eq,
        not_false_eq_true, decide_true, if_true]
      exact decryptTitle_sealText ideal noteOpened read _

/-- An attachment that had a wrapped file key reads as before. -/
theorem Built.sameAttachment (ideal : prims.Ideal)
    (built : Built prims random oldPassword newPassword manifest bundle
      oldMasterKey newMasterKey classicalPriv pqPriv)
    (listed : rotationManifest db userId = .ok manifest)
    {attachment : StoredMindMapAttachment}
    (present : attachment ∈ db.attachments.rows)
    {entry : RotateAttachmentEntry} (given : entry ∈ bundle.updatedAttachments)
    (named : entry.id = attachment.id)
    {stored rewrapped : Json} (metadata : attachment.encryptionMeta = some stored)
    (wrapped : stored.isObject = true → Rewrapped stored entry.wrappedKeyB64 rewrapped)
    {fileKey : Bytes}
    (read : unwrapFileKey prims oldMasterKey attachment.encryptionMeta = .ok fileKey) :
    unwrapFileKey prims newMasterKey (some rewrapped) = .ok fileKey := by
  have done := built.attachment_of_entry listed present given named
  obtain ⟨-, otherKey, opened, sealed⟩ := rewrapAttachment_eq_ok done
  have sameKey : otherKey = fileKey := Except.ok.inj (opened.symm.trans read)
  have object : stored.isObject = true := by
    rw [unwrapFileKey, metadata] at read
    cases stored with
    | object fields => rfl
    | _ => simp [wrappedKeyB64, Json.get?] at read
  have fields := (wrapped object).2
  have newWrap : rewrapped.get? "wrapped_key_b64" =
      some (.string entry.wrappedKeyB64) :=
    fields "wrapped_key_b64"
  have newKind : rewrapped.get? "key_wrap" = some (.string "hkdf-attachment-v1") :=
    fields "key_wrap"
  have full : (entry.wrappedKeyB64 != "") = true := by
    rw [sealed, bne_iff_ne]
    exact sealText_ne_empty _ _ _
  have wrap : wrappedKeyB64 (some rewrapped) = some entry.wrappedKeyB64 := by
    simp only [wrappedKeyB64, Option.bind_some, newWrap, Option.filter_some,
      Json.truthy, full, if_true, Option.map_some, Json.toText]
  have kind : wrappedWithHkdf (some rewrapped) = true := by
    simp only [wrappedWithHkdf, Option.bind_some, newKind, beq_self_eq_true]
  simp only [unwrapFileKey, wrap, attachmentWrapKey, kind, if_true]
  rw [sealed, openText_sealText ideal, sameKey]

/-- A file key that opens is one the rotation takes care of. -/
theorem needsRotation_of_unwrapFileKey
    {masterKey : Key256} {attachment : StoredMindMapAttachment} {fileKey : Bytes}
    (alive : attachment.status ≠ .deleted)
    (read : unwrapFileKey prims masterKey attachment.encryptionMeta = .ok fileKey) :
    attachment.needsRotation = true := by
  cases metadata : attachment.encryptionMeta with
  | none => simp [unwrapFileKey, wrappedKeyB64, metadata] at read
  | some stored =>
      cases stored with
      | object fields =>
          cases wrapped : fields.lookup "wrapped_key_b64" with
          | none =>
              simp [unwrapFileKey, wrappedKeyB64, metadata, Json.get?, wrapped] at read
          | some value =>
              simp [StoredMindMapAttachment.needsRotation, alive, metadata, Json.hasKey, wrapped]
      | _ => simp [unwrapFileKey, wrappedKeyB64, metadata, Json.get?] at read

/-- A committed rotation of the client's bundle reads as before. -/
theorem Built.sameReads (ideal : prims.Ideal)
    (built : Built prims random oldPassword newPassword manifest bundle
      oldMasterKey newMasterKey classicalPriv pqPriv)
    (listed : rotationManifest db userId = .ok manifest)
    (sentVaults : update.updatedVaults = bundle.updatedVaults)
    (sentAttachments : update.updatedAttachments = bundle.updatedAttachments)
    {user : StoredUser} (accepted : Accepted db userId update user) :
    SameReads prims db userId (writeBundle db userId update newAuthHash)
      oldMasterKey newMasterKey := by
  have rotated : Rotated db userId update newAuthHash
      (writeBundle db userId update newAuthHash) :=
    accepted.rotated
  constructor
  · intro map present owned
    have listedMap : map ∈ ownedVaults db userId :=
      Table.mem_select.mpr ⟨present, beq_iff_eq.mpr owned⟩
    have covered := ((checkVaults_eq_ok.mp accepted.vaults).1 map.id).mp
      (List.mem_map_of_mem listedMap)
    refine ⟨_, ?_, built.sameVault ideal listed sentVaults present owned covered⟩
    rw [writeBundle_vault, Table.find?_eq_some.mpr ⟨present, rfl⟩, Option.map_some]
  · intro attachment present owned alive
    by_cases needs : attachment.needsRotation = true
    · obtain ⟨entry, given, named, stored, rewrapped, metadata, found, wrapped⟩ :=
        rotated.attachments attachment present owned needs
      have keys : ∀ fileKey,
          unwrapFileKey prims oldMasterKey attachment.encryptionMeta =
              .ok fileKey →
            unwrapFileKey prims newMasterKey (some rewrapped) = .ok fileKey :=
        fun _ read => built.sameAttachment ideal listed present
          (sentAttachments ▸ given) named metadata wrapped read
      refine ⟨_, found, keys, ?_⟩
      intro ciphertext plaintext read
      obtain ⟨fileKey, unwrapped, rest⟩ := bind_eq_ok.mp read
      exact bind_eq_ok.mpr ⟨fileKey, keys fileKey unwrapped, rest⟩
    · have unread : ∀ fileKey,
          unwrapFileKey prims oldMasterKey attachment.encryptionMeta ≠ .ok fileKey :=
        fun _ read => needs (needsRotation_of_unwrapFileKey alive read)
      refine ⟨_, rotated.otherAttachments attachment present
        (fun both => needs both.2), fun fileKey read => absurd read (unread fileKey),
        ?_⟩
      intro ciphertext plaintext read
      obtain ⟨fileKey, unwrapped, _⟩ := bind_eq_ok.mp read
      exact absurd unwrapped (unread fileKey)

end Committed

/-- The server rotates with what the bundle says. -/
theorem request_eq_ok {bundle : PasswordRotationBundle} {body : RotateCredentialsRequest}
    (read : bundle.request = .ok body) :
    body.update.newArgon2Salt = bundle.newProfile.argon2Salt ∧
      body.update.newArgon2Params = bundle.newProfile.argon2Params ∧
      body.update.newClassicalPrivEncrypted = bundle.newProfile.classicalPrivEncrypted ∧
      body.update.newPqPrivEncrypted = bundle.newProfile.pqPrivEncrypted ∧
      body.update.updatedVaults = bundle.updatedVaults ∧
      body.update.updatedAttachments = bundle.updatedAttachments := by
  unfold PasswordRotationBundle.request at read
  split_ifs at read
  cases Except.ok.inj read
  exact ⟨rfl, rfl, rfl, rfl, rfl, rfl⟩

/-- A rotation request that succeeds has committed its bundle; after that only
trusted devices are touched. -/
theorem rotateCredentials_eq_ok {services : Services} {db rotated : Database} {userId : String}
    {body : RotateCredentialsRequest}
    (done : rotateCredentials services db userId body = (.ok (), rotated)) :
    ∃ newAuthHash user, Accepted db userId body.update user ∧
      rotated.users = (writeBundle db userId body.update newAuthHash).users ∧
      rotated.mindMaps = (writeBundle db userId body.update newAuthHash).mindMaps ∧
      rotated.attachments = (writeBundle db userId body.update newAuthHash).attachments := by
  unfold rotateCredentials at done
  cases admitted : admitRotation services db userId body with
  | error error => simp [admitted] at done
  | ok nothing =>
      simp only [admitted] at done
      cases run : rotateUserCredentials services.hashToken services.driver db userId
          body.update with
      | mk answer committed =>
          cases answer with
          | error error => simp [run] at done
          | ok answered =>
              obtain ⟨newAuthHash, _, ⟨user, accepted⟩, rfl⟩ := rotateUserCredentials_eq_ok run
              simp only [run, Prod.mk.injEq] at done
              obtain ⟨_, rfl⟩ := done
              refine ⟨newAuthHash, user, accepted, ?_⟩
              split_ifs <;> exact ⟨rfl, rfl, rfl⟩

/-- A password change that succeeds has gone through all of its stages. -/
theorem changePassword_eq_ok {services : Services} {db rotated : Database}
    {userId oldPassword newPassword : String}
    (done : changePassword prims random services db userId oldPassword
      newPassword = (.ok (), rotated)) :
    ∃ manifest bundle body, rotationManifest db userId = .ok manifest ∧
      bundleFor prims random oldPassword newPassword manifest = .ok bundle ∧
      bundle.request = .ok body ∧
      rotateCredentials services db userId body = (.ok (), rotated) := by
  unfold changePassword at done
  cases listed : rotationManifest db userId with
  | error error => simp [listed] at done
  | ok manifest =>
      simp only [listed] at done
      cases built : bundleFor prims random oldPassword newPassword manifest with
      | error text => simp [built] at done
      | ok bundle =>
          simp only [built] at done
          cases read : bundle.request with
          | error error => simp [read] at done
          | ok body =>
              simp only [read] at done
              refine ⟨manifest, bundle, body, rfl, built, read, ?_⟩
              cases run : rotateCredentials services db userId body with
              | mk answer after =>
                  cases answer with
                  | error error => simp [run] at done
                  | ok answered =>
                      simp only [run, Prod.mk.injEq, true_and] at done
                      rw [done]

/-- What a password change leaves: both private keys, every vault and every
attachment read with the new password as with the old one. -/
def ReadsWithNewPassword (prims : Primitives) (db : Database)
    (userId oldPassword newPassword : String) (rotated : Database) : Prop :=
  ∃ user after oldMasterKey newMasterKey,
    db.users.find? userId = some user ∧ rotated.users.find? userId = some after ∧
    deriveMasterKey prims oldPassword user.argon2Salt user.argon2Params = .ok oldMasterKey ∧
    deriveMasterKey prims newPassword after.argon2Salt after.argon2Params = .ok newMasterKey ∧
    (∃ privateKey,
      decryptPrivateKey prims oldMasterKey user.classicalPrivEncrypted =
          .ok privateKey ∧
        decryptPrivateKey prims newMasterKey after.classicalPrivEncrypted = .ok privateKey) ∧
    (∃ privateKey,
      decryptPrivateKey prims oldMasterKey user.pqPrivEncrypted =
          .ok privateKey ∧
        decryptPrivateKey prims newMasterKey after.pqPrivEncrypted = .ok privateKey) ∧
    SameReads prims db userId rotated oldMasterKey newMasterKey

/-- A successful password change leaves everything readable. -/
theorem readsWithNewPassword_of_ok (ideal : prims.Ideal)
    {services : Services} {db rotated : Database} {userId oldPassword newPassword : String}
    (done : changePassword prims random services db userId oldPassword
      newPassword = (.ok (), rotated)) :
    ReadsWithNewPassword prims db userId oldPassword newPassword rotated := by
  obtain ⟨manifest, bundle, body, listed, bundled, read, run⟩ := changePassword_eq_ok done
  obtain ⟨oldMasterKey, newMasterKey, classicalPriv, pqPriv, built⟩ := bundleFor_eq_ok bundled
  obtain ⟨newAuthHash, _, accepted, users, maps, attachments⟩ := rotateCredentials_eq_ok run
  obtain ⟨salt, params, classical, pq, sentVaults, sentAttachments⟩ := request_eq_ok read
  obtain ⟨user, opensAll⟩ := built.opensAll listed
  obtain ⟨listedUser, found, _, _, listedClassical, listedPq, _⟩ := rotationManifest_eq_ok listed
  have sameUser : listedUser = user := Option.some.inj (found.symm.trans opensAll.found)
  subst sameUser
  have rotatedUser : rotated.users.find? userId =
      some (listedUser.rotate body.update newAuthHash) := by
    rw [users, writeBundle_user, found, Option.map_some,
      if_pos (beq_iff_eq.mpr (Table.find?_eq_some.mp found).2)]
  have reads : SameReads prims db userId
      (writeBundle db userId body.update newAuthHash) oldMasterKey newMasterKey :=
    built.sameReads ideal listed sentVaults sentAttachments accepted
  refine ⟨listedUser, _, oldMasterKey, newMasterKey, found, rotatedUser,
    opensAll.key, ?_, ⟨classicalPriv, ?_, ?_⟩, ⟨pqPriv, ?_, ?_⟩, ?_⟩
  · simp only [StoredUser.rotate, salt, params]
    exact built.newKey
  · rw [← listedClassical]
    exact built.classical
  · simp only [StoredUser.rotate, classical, built.newClassical]
    exact openText_sealText ideal _ _ _
  · rw [← listedPq]
    exact built.pq
  · simp only [StoredUser.rotate, pq, built.newPq]
    exact openText_sealText ideal _ _ _
  · constructor
    · rw [maps]
      exact reads.vaults
    · rw [attachments]
      exact reads.attachments

/-- With a password change that succeeds, everything the old password read, the
new one reads alike; and where one item does not open with the old password, the
client builds no bundle and the database stays as it is. -/
theorem changePassword_keepsReads (prims : Primitives) (ideal : prims.Ideal)
    (random : Randomness) (services : Services) (db : Database)
    (userId oldPassword newPassword : String) :
    (∀ rotated, changePassword prims random services db userId oldPassword
        newPassword = (.ok (), rotated) →
      ReadsWithNewPassword prims db userId oldPassword newPassword rotated) ∧
    ((¬ ∃ user masterKey,
        OpensAll prims db userId oldPassword user masterKey) →
      (∀ manifest, rotationManifest db userId = .ok manifest →
        ∃ text, bundleFor prims random oldPassword newPassword manifest = .error text) ∧
      ∃ error, changePassword prims random services db userId oldPassword
        newPassword = (.error error, db)) := by
  refine ⟨fun rotated done => readsWithNewPassword_of_ok ideal done, ?_⟩
  intro closed
  have noBundle : ∀ manifest, rotationManifest db userId = .ok manifest →
      ∃ text, bundleFor prims random oldPassword newPassword manifest = .error text := by
    intro manifest listed
    cases built : bundleFor prims random oldPassword newPassword manifest with
    | error text => exact ⟨text, rfl⟩
    | ok bundle =>
        obtain ⟨oldMasterKey, _, _, _, complete⟩ := bundleFor_eq_ok built
        obtain ⟨user, opensAll⟩ := complete.opensAll listed
        exact absurd ⟨user, oldMasterKey, opensAll⟩ closed
  refine ⟨noBundle, ?_⟩
  unfold changePassword
  cases listed : rotationManifest db userId with
  | error error => exact ⟨.answered error, rfl⟩
  | ok manifest =>
      obtain ⟨text, failed⟩ := noBundle manifest listed
      refine ⟨.thrown text, ?_⟩
      simp only [failed]

/-- Bytes cut or filled up to a key. -/
def fillKey (bytes : Bytes) : Key256 := ⟨(bytes ++ List.replicate 32 0).take 32, by simp⟩

/-- The low bytes of the characters of a text. -/
def textBytes (text : String) : Bytes := text.toList.map fun char => .ofNat char.toNat

/-- Primitives in which a ciphertext carries a part of its key. -/
def keyedPrimitives : Primitives where
  argon2id password salt _ := .ok (fillKey (textBytes password ++ salt))
  hkdfSha256 masterKey info := fillKey (masterKey.take 6 ++ (textBytes info).drop 11)
  gcmEncrypt key _ plaintext := key.1.take 10 ++ plaintext
  gcmDecrypt key _ data := if data.take 10 = key.1.take 10 then some (data.drop 10) else none
  decodeText bytes := String.ofList (bytes.map fun byte => Char.ofNat byte.toNat)

theorem keyedPrimitives_ideal : keyedPrimitives.Ideal :=
  ⟨by
    intro key nonce plaintext
    have long : (key.1.take 10).length = 10 := by
      rcases key.2 with size | size | size <;> simp [size]
    simp only [keyedPrimitives]
    rw [List.take_left' long, List.drop_left' long, if_pos rfl]⟩

/-- A fixed nonce, enough for one run. -/
def exampleNonce : Nonce := ⟨List.replicate 12 7, rfl⟩

/-- Fixed draws. -/
def exampleRandomness : Randomness where
  newSalt := ⟨List.replicate 32 9, rfl⟩
  classicalNonce := exampleNonce
  pqNonce := exampleNonce
  titleNonce := fun _ => exampleNonce
  noteNonce := fun _ => exampleNonce
  attachmentNonce := fun _ => exampleNonce

/-- A server without faults that stores tokens as they are. -/
def exampleServices : Services where
  hashToken token := .ok token
  verifyToken token stored :=
    if token = stored then .ok () else .error (.unauthorized "invalid credentials")
  driver := fun _ => .ok ()
  clearsDevices := true
  issueTokens := .ok ()

/-- The master key of the password `old`. -/
def exampleKey : Key256 := fillKey (textBytes "old" ++ [1, 2])

/-- An account with a noted vault and an attachment under the legacy wrap. -/
def exampleDatabase : Database where
  users := Table.empty.insert
    { id := "u"
      username := "ada"
      authHash := deriveAuthToken keyedPrimitives exampleKey
      argon2Salt := toBase64 [1, 2]
      argon2Params := defaultArgon2Params
      classicalPublicKey := "classical"
      pqPublicKey := "pq"
      classicalPrivEncrypted :=
        sealText keyedPrimitives (deriveMasterAesKey exampleKey) exampleNonce [3]
      pqPrivEncrypted := sealText keyedPrimitives (deriveMasterAesKey exampleKey) exampleNonce [4]
      keyVersion := 1
      createdAt := 0
      isLocked := false } List.not_mem_nil
  mindMaps := Table.empty.insert
    { Vault.createMindMap "m" "u" "key"
        { titleEncrypted :=
            sealText keyedPrimitives (deriveTitleKey keyedPrimitives exampleKey) exampleNonce [5]
          ephClassicalPublic := "eph"
          ephPqCiphertext := "pq"
          wrappedDek := "dek" } 0 with
      vaultNoteEncrypted := some
        (sealText keyedPrimitives (deriveTitleKey keyedPrimitives exampleKey)
          exampleNonce [6]) } List.not_mem_nil
  attachments := Table.empty.insert
    (initAttachment "a" "m" "u"
      { name := "file"
        contentType := "text/plain"
        size := 1
        nodeId := none
        encrypted := true
        encryptionMeta := some (.object
          [("wrapped_key_b64", .string
              (sealText keyedPrimitives (deriveMasterAesKey exampleKey) exampleNonce [8])),
            ("key_wrap", .string "master-aes-256-gcm")]) } 0) List.not_mem_nil
  unlockMethods := Table.empty

/-- A password change that goes through. -/
theorem changePassword_keepsReads_example :
    ∃ rotated, changePassword keyedPrimitives exampleRandomness exampleServices
        exampleDatabase "u" "old" "new" = (.ok (), rotated) ∧
      ReadsWithNewPassword keyedPrimitives exampleDatabase "u" "old" "new" rotated := by
  have succeeds : (changePassword keyedPrimitives exampleRandomness exampleServices
      exampleDatabase "u" "old" "new").1 = .ok () := by
    decide +kernel
  have reads := (changePassword_keepsReads keyedPrimitives keyedPrimitives_ideal
    exampleRandomness exampleServices exampleDatabase "u" "old" "new").1
  cases run : changePassword keyedPrimitives exampleRandomness exampleServices
      exampleDatabase "u" "old" "new" with
  | mk answer rotated =>
      rw [run] at succeeds reads
      cases succeeds
      exact ⟨rotated, rfl, reads rotated rfl⟩

end Crypto
end MindMapVault
