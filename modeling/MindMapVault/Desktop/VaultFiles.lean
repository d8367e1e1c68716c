import MindMapVault.Crypto.Kem
import MindMapVault.Desktop.VaultCommands
import MindMapVault.Vault.Handlers

/-!
# The files of the vaults

Beside the index stands one blob file for each vault that has been saved, and a file for
each original that a map refers to. A file is written beside its target and renamed over
it, so each write happens whole or not at all. A command is the list of its writes, and
where it stops, for whatever reason, those before that point have happened.
-/

namespace MindMapVault
namespace Desktop

open Vault (Bytes Envelope Objects)

/-- The index, the blobs by vault and the attachment files by vault. -/
structure VaultFiles where
  index : File VaultIndex
  blobs : Objects
  attachments : String → Objects

/-- One write. -/
inductive VaultWrite
  | writeIndex (index : VaultIndex)
  | writeBlob (id : String) (blob : Bytes)

namespace VaultWrite

/-- The files after a write. -/
def perform (files : VaultFiles) : VaultWrite → VaultFiles
  | .writeIndex index => { files with index := .holds index }
  | .writeBlob id blob => { files with blobs := files.blobs.put id blob }

/-- The files after some writes. -/
def performAll (files : VaultFiles) (writes : List VaultWrite) : VaultFiles :=
  writes.foldl perform files

@[simp] theorem performAll_nil (files : VaultFiles) : performAll files [] = files := rfl

@[simp] theorem performAll_cons
    (files : VaultFiles) (write : VaultWrite) (writes : List VaultWrite) :
    performAll files (write :: writes) = performAll (write.perform files) writes := rfl

end VaultWrite

/-- `get_local_vault_detail`. -/
def getLocalVaultDetail (files : VaultFiles) (id : String) :
    Except LocalStoreError LocalVaultMeta := do
  let index ← readIndex files.index
  match index.find? id with
  | some vault => return vault
  | none => throw (.notFound s!"vault {id}")

/-- `get_local_vault_blob`. -/
def getLocalVaultBlob (files : VaultFiles) (id : String) :
    Except LocalStoreError Bytes :=
  match files.blobs id with
  | some blob => .ok blob
  | none => .error (.notFound s!"blob for vault {id}")

section Commands

variable (mac : String → String) (files : VaultFiles)

/-- The writes of `update_local_vault_meta`. -/
def updateMetaWrites (id : String) (update : LocalVaultUpdate) (now : String) :
    Except LocalStoreError (List VaultWrite) := do
  let index ← readIndex files.index
  let updated ← updateLocalVaultMeta index id update now
  return [.writeIndex (stampIndexForWrite mac updated)]

/-- The writes of `save_local_vault_blob`: the blob, then the index with a new time,
where the index can be read. -/
def saveBlobWrites (id : String) (blob : Bytes) (now : String) : List VaultWrite :=
  .writeBlob id blob ::
    match readIndex files.index with
    | .ok index => [.writeIndex (stampIndexForWrite mac (touchLocalVault index id now))]
    | .error _ => []

end Commands

/-- The envelope of an entry. -/
def LocalVaultMeta.envelope (vault : LocalVaultMeta) : Envelope where
  ephClassicalPublic := vault.ephClassicalPublic
  ephPqCiphertext := vault.ephPqCiphertext
  wrappedDek := vault.wrappedDek

/-- The update that brings a title and an envelope. -/
def contentUpdate (titleEncrypted : String) (envelope : Envelope) : LocalVaultUpdate where
  titleEncrypted := some titleEncrypted
  ephClassicalPublic := some envelope.ephClassicalPublic
  ephPqCiphertext := some envelope.ephPqCiphertext
  wrappedDek := some envelope.wrappedDek

section Find

variable {id : String}

/-- The first entry of an id is the one that is changed. -/
theorem find?_modifyVault (change : LocalVaultMeta → LocalVaultMeta)
    (keepsId : ∀ vault, (change vault).id = vault.id) (vaults : List LocalVaultMeta) :
    (VaultIndex.mk (modifyVault id change vaults)).find? id =
      ((VaultIndex.mk vaults).find? id).map change := by
  unfold VaultIndex.find?
  induction vaults with
  | nil => rfl
  | cons vault rest ih =>
      rw [modifyVault]
      by_cases same : vault.id = id
      · simp [same, keepsId]
      · simpa [same] using ih

/-- What a blob save does to the entry of its vault. -/
theorem find?_touchLocalVault (index : VaultIndex) (id now : String) :
    (touchLocalVault index id now).find? id =
      (index.find? id).map fun vault => { vault with updatedAt := now } :=
  find?_modifyVault (fun vault => { vault with updatedAt := now }) (fun _ => rfl) index.vaults

/-- A vault can be updated exactly if it is listed, and then its entry is changed. -/
theorem updateLocalVaultMeta_eq_ok
    {index updated : VaultIndex} {update : LocalVaultUpdate} {now : String}
    (done : updateLocalVaultMeta index id update now = .ok updated) :
    ∃ vault, index.find? id = some vault ∧ updated.find? id = some (update.apply now vault) := by
  unfold updateLocalVaultMeta at done
  cases found : index.find? id with
  | none => simp [found] at done
  | some vault =>
      simp only [found] at done
      cases done
      refine ⟨vault, rfl, ?_⟩
      rw [find?_modifyVault (update.apply now) (fun _ => rfl),
        show VaultIndex.mk index.vaults = index from rfl, found, Option.map_some]

end Find

end Desktop
end MindMapVault
