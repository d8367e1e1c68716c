import MindMapVault.Desktop.LocalStore

/-!
# What the commands do to the index

Every command that changes a vault reads the index, changes it and writes it whole. The
write stamps each entry with a keyed hash of its fields, whichever of them the command
has changed. The check reads an entry back and compares.
-/

namespace MindMapVault
namespace Desktop

/-- The entry of an id: the first one that has it. -/
def VaultIndex.find? (index : VaultIndex) (id : String) : Option LocalVaultMeta :=
  index.vaults.find? fun vault => decide (vault.id = id)

/-- Change the first entry with an id. -/
def modifyVault (id : String) (change : LocalVaultMeta → LocalVaultMeta) :
    List LocalVaultMeta → List LocalVaultMeta
  | [] => []
  | vault :: rest =>
      if vault.id = id then change vault :: rest
      else vault :: modifyVault id change rest

/-- What a caller hands to `save_local_vault`. -/
structure NewLocalVault where
  titleEncrypted : String
  ephClassicalPublic : String
  ephPqCiphertext : String
  wrappedDek : String
  deriving DecidableEq

/-- What a caller hands to `update_local_vault_meta`; an absent field stays as it is. -/
structure LocalVaultUpdate where
  vaultColor : Option String := none
  vaultNoteEncrypted : Option String := none
  vaultSharingMode : Option String := none
  vaultEncryptionMode : Option String := none
  maxVersions : Option Nat := none
  titleEncrypted : Option String := none
  ephClassicalPublic : Option String := none
  ephPqCiphertext : Option String := none
  wrappedDek : Option String := none
  deriving DecidableEq

/-- The entry with the fields of an update; the colour is ignored. -/
def LocalVaultUpdate.apply (update : LocalVaultUpdate) (now : String) (vault : LocalVaultMeta) :
    LocalVaultMeta :=
  { vault with
    vaultNoteEncrypted := update.vaultNoteEncrypted.or vault.vaultNoteEncrypted
    vaultSharingMode := update.vaultSharingMode.getD vault.vaultSharingMode
    vaultEncryptionMode := update.vaultEncryptionMode.getD vault.vaultEncryptionMode
    maxVersions := (update.maxVersions.map (max · 1)).getD vault.maxVersions
    titleEncrypted := update.titleEncrypted.getD vault.titleEncrypted
    ephClassicalPublic := update.ephClassicalPublic.getD vault.ephClassicalPublic
    ephPqCiphertext := update.ephPqCiphertext.getD vault.ephPqCiphertext
    wrappedDek := update.wrappedDek.getD vault.wrappedDek
    updatedAt :=
      if update.titleEncrypted.isSome || update.wrappedDek.isSome then now
      else vault.updatedAt }

/-- The index part of `save_local_vault`, for the id it draws. -/
def saveLocalVault (index : VaultIndex) (id : String) (vault : NewLocalVault) (now : String) :
    VaultIndex where
  vaults := index.vaults ++
    [{ id := id
       titleEncrypted := vault.titleEncrypted
       ephClassicalPublic := vault.ephClassicalPublic
       ephPqCiphertext := vault.ephPqCiphertext
       wrappedDek := vault.wrappedDek
       vaultColor := none
       vaultNoteEncrypted := none
       vaultSharingMode := "private"
       vaultEncryptionMode := "standard"
       maxVersions := 50
       createdAt := now
       updatedAt := now
       entryMac := none }]

/-- The index part of `import_vault_file`, for the id it draws. -/
def importVaultEntry
    (index : VaultIndex) (newId : String) (imported : LocalVaultMeta) (now : String) :
    VaultIndex where
  vaults := index.vaults ++
    [{ imported with
       id := newId
       vaultColor := none
       createdAt := now
       updatedAt := now
       entryMac := none }]

/-- The index part of `save_local_vault_blob`. -/
def touchLocalVault (index : VaultIndex) (id now : String) : VaultIndex where
  vaults := modifyVault id (fun vault => { vault with updatedAt := now }) index.vaults

/-- The index part of `delete_local_vault`. -/
def deleteLocalVault (index : VaultIndex) (id : String) : VaultIndex where
  vaults := index.vaults.filter fun vault => decide (vault.id ≠ id)

/-- `update_local_vault_meta`, up to its write. -/
def updateLocalVaultMeta
    (index : VaultIndex) (id : String) (update : LocalVaultUpdate) (now : String) :
    Except LocalStoreError VaultIndex :=
  match index.find? id with
  | none => .error (.notFound s!"vault {id}")
  | some _ => .ok { vaults := modifyVault id (update.apply now) index.vaults }

/-- A command that writes the index. -/
inductive IndexCommand
  | saveLocalVault (id : String) (vault : NewLocalVault) (now : String)
  | importVaultFile (newId : String) (imported : LocalVaultMeta) (now : String)
  | saveLocalVaultBlob (id now : String)
  | deleteLocalVault (id : String)
  | updateLocalVaultMeta (id : String) (update : LocalVaultUpdate) (now : String)
  | applyLocalPasswordRotation (updatedVaults : List RotatedVaultEntry)
  deriving DecidableEq

/-- The index a command is about to write. -/
def IndexCommand.run (index : VaultIndex) :
    IndexCommand → Except LocalStoreError VaultIndex
  | .saveLocalVault id vault now => .ok (Desktop.saveLocalVault index id vault now)
  | .importVaultFile newId imported now => .ok (importVaultEntry index newId imported now)
  | .saveLocalVaultBlob id now => .ok (touchLocalVault index id now)
  | .deleteLocalVault id => .ok (Desktop.deleteLocalVault index id)
  | .updateLocalVaultMeta id update now =>
      Desktop.updateLocalVaultMeta index id update now
  | .applyLocalPasswordRotation updatedVaults => .ok (rotateIndex index updatedVaults)

/-- The id of a new vault is drawn afresh. -/
def IndexCommand.drawnId : IndexCommand → Option String
  | .saveLocalVault id _ _ => some id
  | .importVaultFile newId _ _ => some newId
  | .saveLocalVaultBlob .. | .deleteLocalVault _ | .updateLocalVaultMeta ..
  | .applyLocalPasswordRotation _ => none

/-- What `verify_local_vault_integrity` answers. -/
inductive VaultIntegrityResult
  | ok
  | missingMac
  | tampered
  | notFound
  deriving DecidableEq

/-- `verify_local_vault_integrity`. -/
def verifyLocalVaultIntegrity (mac : String → String) (file : File VaultIndex) (id : String) :
    Except LocalStoreError VaultIntegrityResult := do
  let index ← readIndex file
  match index.find? id with
  | none => return .notFound
  | some vault =>
      match vault.entryMac with
      | none => return .missingMac
      | some storedMac =>
          if computeEntryMac mac vault = storedMac then return .ok else return .tampered

/-- The tag of an entry is that of its fields. -/
def TagFits (mac : String → String) (vault : LocalVaultMeta) : Prop :=
  vault.entryMac = some (computeEntryMac mac vault)

instance (mac : String → String) (vault : LocalVaultMeta) : Decidable (TagFits mac vault) :=
  inferInstanceAs (Decidable (_ = _))

/-- The entry of an id in a file. -/
def File.listed? (file : File VaultIndex) (id : String) : Option LocalVaultMeta :=
  (readIndex file).toOption.bind fun index => index.find? id

/-- An entry is reported as intact exactly if it is found and its tag fits. -/
theorem verifyLocalVaultIntegrity_eq_ok
    {mac : String → String} {file : File VaultIndex} {id : String} :
    verifyLocalVaultIntegrity mac file id = .ok .ok ↔
      ∃ vault ∈ file.listed? id, TagFits mac vault := by
  unfold verifyLocalVaultIntegrity File.listed?
  cases readIndex file with
  | error error => simp [bind, Except.bind, Except.toOption]
  | ok index =>
      simp only [bind, Except.bind, Except.toOption, Option.bind_some]
      cases index.find? id with
      | none => simp [pure, Except.pure]
      | some vault =>
          cases tag : vault.entryMac with
          | none => simp [pure, Except.pure, tag, TagFits]
          | some storedMac =>
              simp only [Option.mem_def, Option.some.injEq, exists_eq_left', TagFits, tag]
              split_ifs with fits
              · simp [pure, Except.pure, fits]
              · simp [pure, Except.pure, Ne.symm fits]

/-- A write of the index stamps every entry, and leaves its id. -/
theorem find?_stampIndexForWrite (mac : String → String) (index : VaultIndex) (id : String) :
    (stampIndexForWrite mac index).find? id =
      (index.find? id).map fun vault =>
        { vault with vaultColor := none, entryMac := some (computeEntryMac mac vault) } := by
  unfold VaultIndex.find? stampIndexForWrite
  rw [List.find?_map]
  rfl

section Ids

/-- The ids that are listed. -/
def VaultIndex.ids (index : VaultIndex) : List String := index.vaults.map LocalVaultMeta.id

theorem isSome_find?_iff {index : VaultIndex} {id : String} :
    (index.find? id).isSome = true ↔ id ∈ index.ids := by
  simp [VaultIndex.find?, VaultIndex.ids, List.find?_isSome]

theorem map_id_modifyVault (id : String) (change : LocalVaultMeta → LocalVaultMeta)
    (keepsId : ∀ vault, (change vault).id = vault.id) (vaults : List LocalVaultMeta) :
    (modifyVault id change vaults).map LocalVaultMeta.id = vaults.map LocalVaultMeta.id := by
  induction vaults with
  | nil => rfl
  | cons vault rest ih =>
      rw [modifyVault]
      split_ifs
      · rw [List.map_cons, List.map_cons, keepsId]
      · rw [List.map_cons, List.map_cons, ih]

/-- A rotation writes an entry where a change of the first one with its id would. -/
theorem rotateVault_eq_modifyVault (entry : RotatedVaultEntry) (vaults : List LocalVaultMeta) :
    rotateVault entry vaults = modifyVault entry.id (rotateEntry entry) vaults := by
  induction vaults with
  | nil => rfl
  | cons vault rest ih =>
      rw [rotateVault, modifyVault, ih]

@[simp] theorem ids_rotateIndex
    (index : VaultIndex) (updatedVaults : List RotatedVaultEntry) :
    (rotateIndex index updatedVaults).ids = index.ids := by
  have everyIndex : ∀ vaults : List LocalVaultMeta,
      (updatedVaults.foldl (fun vaults entry => rotateVault entry vaults) vaults).map
        LocalVaultMeta.id = vaults.map LocalVaultMeta.id := by
    induction updatedVaults with
    | nil => exact fun _ => rfl
    | cons entry updatedVaults ih =>
        intro vaults
        rw [List.foldl_cons, ih, rotateVault_eq_modifyVault]
        exact map_id_modifyVault entry.id (rotateEntry entry) (fun _ => rfl) vaults
  exact everyIndex index.vaults

/-- A command lists what was listed, without what it deletes and with what it draws. -/
theorem mem_ids_run {index next : VaultIndex} {command : IndexCommand} {id : String}
    (accepted : command.run index = .ok next) :
    id ∈ next.ids ↔ id ∈ index.ids ∧ command ≠ .deleteLocalVault id ∨
      command.drawnId = some id := by
  cases command with
  | saveLocalVault drawn vault now =>
      cases accepted
      simp [saveLocalVault, VaultIndex.ids, IndexCommand.drawnId, eq_comm]
  | importVaultFile drawn imported now =>
      cases accepted
      simp [importVaultEntry, VaultIndex.ids, IndexCommand.drawnId, eq_comm]
  | saveLocalVaultBlob target now =>
      cases accepted
      have kept : (touchLocalVault index target now).ids = index.ids :=
        map_id_modifyVault target (fun vault => { vault with updatedAt := now })
          (fun _ => rfl) index.vaults
      simp [kept, IndexCommand.drawnId]
  | deleteLocalVault target =>
      cases accepted
      simp only [deleteLocalVault, VaultIndex.ids, IndexCommand.drawnId, List.mem_map,
        List.mem_filter, decide_eq_true_eq, ne_eq, IndexCommand.deleteLocalVault.injEq,
        reduceCtorEq, or_false]
      constructor
      · rintro ⟨vault, ⟨present, stays⟩, rfl⟩
        exact ⟨⟨vault, present, rfl⟩, fun same => stays same.symm⟩
      · rintro ⟨⟨vault, present, rfl⟩, stays⟩
        exact ⟨vault, ⟨present, fun same => stays same.symm⟩, rfl⟩
  | updateLocalVaultMeta target update now =>
      unfold IndexCommand.run Desktop.updateLocalVaultMeta at accepted
      cases found : index.find? target with
      | none => simp [found] at accepted
      | some vault =>
          simp only [found] at accepted
          cases accepted
          have kept : (VaultIndex.mk (modifyVault target (update.apply now)
              index.vaults)).ids = index.ids :=
            map_id_modifyVault target (update.apply now) (fun _ => rfl) index.vaults
          simp [kept, IndexCommand.drawnId]
  | applyLocalPasswordRotation updatedVaults =>
      cases accepted
      simp [IndexCommand.drawnId]

end Ids

end Desktop
end MindMapVault
