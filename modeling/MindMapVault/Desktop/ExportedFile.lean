import MindMapVault.Foundations.Frame
import MindMapVault.Foundations.Result
import MindMapVault.Desktop.VaultFiles

/-!
# Vaults in a file of their own

An export puts the entry of a vault and its blob into one file, an import lists the entry
under a new id and then writes the blob. What the file leaves out is the originals of the
attachments, and the length of the blob. An import is all or nothing as long as the file
has the vault's entry and its whole blob, both writes happen, and the vault had no
originals beside it.
-/

namespace MindMapVault
namespace Desktop

open Vault (Bytes Envelope)

/-- The JSON text of an entry. -/
structure MetaCodec where
  toVec : LocalVaultMeta → Bytes
  fromSlice : Bytes → Except LocalStoreError LocalVaultMeta

section Commands

variable (codec : MetaCodec) (mac : String → String)

/-- The file `export_vault_file` writes. It is written whole or not at all. -/
def exportVaultFile (files : VaultFiles) (id : String) :
    Except LocalStoreError Bytes := do
  let index ← readIndex files.index
  match index.find? id with
  | none => throw (.notFound s!"vault {id}")
  | some vault => return Frame.frame (codec.toVec vault) ((files.blobs id).getD [])

/-- The errors of `import_vault_file` for what is no frame. -/
def frameError : Frame.FrameError → LocalStoreError
  | .tooSmall => .io "file too small"
  | .truncated => .io "truncated file"

/-- The entry and the blob that `import_vault_file` finds in a file. -/
def readVaultFile (fileData : Bytes) : Except LocalStoreError (LocalVaultMeta × Bytes) :=
  match Frame.unframe fileData with
  | .error error => .error (frameError error)
  | .ok (metaJson, blobData) =>
      (codec.fromSlice metaJson).map fun imported => (imported, blobData)

/-- The writes of `import_vault_file`: the index, and then the blob if there is one. -/
def importWrites (files : VaultFiles) (newId now : String)
    (fileData : Bytes) : Except LocalStoreError (List VaultWrite) := do
  let (imported, blobData) ← readVaultFile codec fileData
  let index ← readIndex files.index
  let listed := VaultWrite.writeIndex
    (stampIndexForWrite mac (importVaultEntry index newId imported now))
  return if blobData = [] then [listed] else [listed, .writeBlob newId blobData]

/-- The files an import leaves when it gets through some of its writes, be it that the
next one fails or that the program ends there. -/
def importVaultFile (files : VaultFiles) (newId now : String) (fileData : Bytes)
    (writes : Nat) : VaultFiles :=
  match importWrites codec mac files newId now fileData with
  | .error _ => files
  | .ok planned => VaultWrite.performAll files (planned.take writes)

end Commands

/-- What the entry of a vault tells. The colour is gone with the next write anyway. -/
structure EntryContent where
  titleEncrypted : String
  envelope : Envelope
  vaultNoteEncrypted : Option String
  vaultSharingMode : String
  vaultEncryptionMode : String
  maxVersions : Nat
  deriving DecidableEq

/-- What can be read of a vault: its entry, its blob and the originals beside it. -/
structure VaultContent where
  entry : EntryContent
  blob : Option Bytes
  originals : String → Option Bytes

/-- The content of an entry. -/
def LocalVaultMeta.content (vault : LocalVaultMeta) : EntryContent where
  titleEncrypted := vault.titleEncrypted
  envelope := vault.envelope
  vaultNoteEncrypted := vault.vaultNoteEncrypted
  vaultSharingMode := vault.vaultSharingMode
  vaultEncryptionMode := vault.vaultEncryptionMode
  maxVersions := vault.maxVersions

/-- The content of a listed vault. -/
def VaultFiles.content (files : VaultFiles) (id : String) : Option VaultContent :=
  (files.index.listed? id).map fun vault =>
    { entry := vault.content, blob := files.blobs id, originals := files.attachments id }

/-- An id that has just been drawn: nothing is known by it. -/
structure VaultFiles.Unused (files : VaultFiles) (newId : String) : Prop where
  unlisted : files.index.listed? newId = none
  noBlob : files.blobs newId = none
  noOriginals : files.attachments newId = fun _ => none

/-- Afterwards the index is as it was, or it lists a vault with all of the content. -/
def AllOrNothing
    (before after : VaultFiles) (newId : String) (content : Option VaultContent) : Prop :=
  after.index = before.index ∨ after.content newId = content

/-- The file has the vault's entry, the blob that gets written is the vault's, and the
vault has no originals beside it. A file that is refused, or an import that stops at
once, does no harm either. -/
def TransfersWhole (codec : MetaCodec) (source target : VaultFiles) (id : String)
    (fileData : Bytes) (writes : Nat) : Prop :=
  ∀ imported blobData, readVaultFile codec fileData = .ok (imported, blobData) →
    ∀ index, readIndex target.index = .ok index → writes ≠ 0 →
      (∀ vault ∈ source.index.listed? id, imported.content = vault.content) ∧
        (if blobData = [] ∨ writes < 2 then none else some blobData) = source.blobs id ∧
          ∀ original, source.attachments id original = none

section Import

variable {codec : MetaCodec} (mac : String → String) {source target : VaultFiles}
variable {id newId : String} (now : String) {fileData : Bytes}

/-- Only a listed vault can be exported. -/
theorem listed?_of_exportVaultFile (exported : exportVaultFile codec source id = .ok fileData) :
    ∃ vault, source.index.listed? id = some vault ∧
      fileData = Frame.frame (codec.toVec vault) ((source.blobs id).getD []) := by
  obtain ⟨index, read, rest⟩ := Result.bind_eq_ok.mp exported
  cases found : index.find? id with
  | none => simp [found, throw, throwThe, MonadExceptOf.throw] at rest
  | some vault =>
      simp only [found, pure, Except.pure, Except.ok.injEq] at rest
      refine ⟨vault, ?_, rest.symm⟩
      simp only [File.listed?, read, Except.toOption, Option.bind_some, found]

/-- The entry an import lists is found under its new id. -/
theorem listed?_import
    (index : VaultIndex) (imported : LocalVaultMeta) (fresh : index.find? newId = none) :
    ∃ vault, (File.holds (stampIndexForWrite mac
        (importVaultEntry index newId imported now))).listed? newId = some vault ∧
      vault.content = imported.content := by
  let entry : LocalVaultMeta :=
    { imported with
      id := newId
      vaultColor := none
      createdAt := now
      updatedAt := now
      entryMac := none }
  have found : (importVaultEntry index newId imported now).find? newId = some entry := by
    unfold VaultIndex.find? at fresh ⊢
    unfold importVaultEntry
    rw [List.find?_append, fresh, Option.none_or]
    simp [entry]
  refine ⟨{ entry with
    vaultColor := none
    entryMac := some (computeEntryMac mac entry) }, ?_, rfl⟩
  simp only [File.listed?, readIndex, Except.toOption, Option.bind_some,
    find?_stampIndexForWrite, found, Option.map_some]

/-- The files after the first write of an import, and after the second if there is one. -/
theorem importVaultFile_succ {imported : LocalVaultMeta} {blobData : Bytes} {index : VaultIndex}
    (parsed : readVaultFile codec fileData = .ok (imported, blobData))
    (read : readIndex target.index = .ok index) (writes : Nat) :
    importVaultFile codec mac target newId now fileData (writes + 1) =
      { target with
        index := .holds (stampIndexForWrite mac (importVaultEntry index newId imported now))
        blobs :=
          if blobData = [] ∨ writes + 1 < 2 then target.blobs
          else target.blobs.put newId blobData } := by
  have planned : importWrites codec mac target newId now fileData = .ok
      (if blobData = [] then
        [.writeIndex (stampIndexForWrite mac (importVaultEntry index newId imported now))]
      else
        [.writeIndex (stampIndexForWrite mac (importVaultEntry index newId imported now)),
          .writeBlob newId blobData]) := by
    unfold importWrites
    rw [parsed]
    simp only [bind, Except.bind, read]
    rfl
  simp only [importVaultFile, planned]
  by_cases empty : blobData = []
  · simp [empty, VaultWrite.perform]
  · cases writes with
    | zero => simp [empty, VaultWrite.perform]
    | succ writes =>
        have both : ¬ writes + 1 + 1 < 2 := by omega
        simp [empty, both, VaultWrite.perform]

/-- The index an import writes is not the one it has read. -/
theorem import_index_ne (imported : LocalVaultMeta) {index : VaultIndex}
    (read : readIndex target.index = .ok index) :
    File.holds (stampIndexForWrite mac (importVaultEntry index newId imported now)) ≠
      target.index := by
  intro same
  rw [← same, readIndex, Except.ok.injEq] at read
  have lengths := congrArg (fun index => index.vaults.length) read
  simp [stampIndexForWrite, importVaultEntry] at lengths

/-- An import that gets through its first write brings the whole vault exactly if the
entry is the vault's, the blob it has written is, and there are no originals. -/
theorem allOrNothing_succ_iff
    {vault imported : LocalVaultMeta} {blobData : Bytes} {index : VaultIndex}
    (listed : source.index.listed? id = some vault) (unused : target.Unused newId)
    (parsed : readVaultFile codec fileData = .ok (imported, blobData))
    (read : readIndex target.index = .ok index) (writes : Nat) :
    AllOrNothing target
        (importVaultFile codec mac target newId now fileData (writes + 1)) newId
        (source.content id) ↔
      imported.content = vault.content ∧
        (if blobData = [] ∨ writes + 1 < 2 then none else some blobData) =
            source.blobs id ∧
          ∀ original, source.attachments id original = none := by
  have fresh : index.find? newId = none := by
    have unlisted := unused.unlisted
    rwa [File.listed?, read, Except.toOption, Option.bind_some] at unlisted
  obtain ⟨entry, entered, same⟩ := listed?_import mac now index imported fresh
  have landed : (if blobData = [] ∨ writes + 1 < 2 then target.blobs
      else target.blobs.put newId blobData) newId =
        if blobData = [] ∨ writes + 1 < 2 then none else some blobData := by
    split_ifs
    · exact unused.noBlob
    · exact target.blobs.put_self newId blobData
  unfold AllOrNothing
  rw [importVaultFile_succ mac now parsed read writes,
    or_iff_right (import_index_ne mac now imported read)]
  simp only [VaultFiles.content, entered, listed, same, landed, unused.noOriginals,
    Option.map_some, Option.some.injEq, VaultContent.mk.injEq]
  refine and_congr_right fun _ => and_congr_right fun _ => ?_
  rw [eq_comm, funext_iff]

/-- An import leaves the index as it was or lists all of the exported vault, exactly if
the file and the writes it gets through bring all of it. -/
theorem allOrNothing_iff_transfersWhole
    (exported : exportVaultFile codec source id = .ok fileData) (unused : target.Unused newId)
    (given : Bytes) (writes : Nat) :
    AllOrNothing target (importVaultFile codec mac target newId now given writes) newId
        (source.content id) ↔
      TransfersWhole codec source target id given writes := by
  obtain ⟨vault, listed, -⟩ := listed?_of_exportVaultFile exported
  cases parsed : readVaultFile codec given with
  | error error =>
      refine iff_of_true (.inl ?_) fun imported blobData found => ?_
      · simp only [importVaultFile, importWrites, parsed, bind, Except.bind]
      · rw [parsed] at found
        contradiction
  | ok parts =>
      obtain ⟨imported, blobData⟩ := parts
      cases read : readIndex target.index with
      | error error =>
          refine iff_of_true (.inl ?_) fun _ _ _ index found => ?_
          · simp only [importVaultFile, importWrites, parsed, bind, Except.bind, read]
          · rw [read] at found
            contradiction
      | ok index =>
          cases writes with
          | zero =>
              refine iff_of_true (.inl ?_) fun _ _ _ _ _ none => absurd rfl none
              unfold importVaultFile
              cases importWrites codec mac target newId now given <;> rfl
          | succ writes =>
              rw [allOrNothing_succ_iff mac now listed unused parsed read]
              constructor
              · rintro ⟨entries, rest⟩ _ _ found _ _ _
                rw [parsed, Except.ok.injEq, Prod.mk.injEq] at found
                obtain ⟨rfl, rfl⟩ := found
                refine ⟨fun other found => ?_, rest⟩
                rw [listed, Option.mem_def, Option.some.injEq] at found
                rw [entries, found]
              · intro whole
                have ⟨entries, rest⟩ :=
                  whole imported blobData parsed index read (Nat.succ_ne_zero writes)
                exact ⟨entries vault listed, rest⟩

end Import

section Samples

/-- The sample entry as JSON. -/
def sampleMetaJson : Bytes :=
  ("\x7b\"id\":\"v\",\"title_encrypted\":\"title\"," ++
    "\"eph_classical_public\":\"classical\",\"eph_pq_ciphertext\":\"pq\"," ++
    "\"wrapped_dek\":\"dek\",\"vault_color\":null,\"vault_note_encrypted\":null," ++
    "\"vault_sharing_mode\":\"private\",\"vault_encryption_mode\":\"standard\"," ++
    "\"max_versions\":50,\"created_at\":\"2025-01-01\"," ++
    "\"updated_at\":\"2025-01-01\",\"entry_mac\":null\x7d").toUTF8.data.toList

/-- The entry of the sample index. -/
def sampleEntry : LocalVaultMeta := (sampleIndex "title").vaults.head (List.cons_ne_nil _ _)

/-- The JSON of the sample entry, and of no other. -/
def sampleCodec : MetaCodec where
  toVec _ := sampleMetaJson
  fromSlice text :=
    if text = sampleMetaJson then .ok sampleEntry else .error (.json "expected value")

/-- A store with one vault and its blob. -/
def oneVault : VaultFiles where
  index := .holds (sampleIndex "title")
  blobs := Vault.Objects.put (fun _ => none) "v" [1]
  attachments := fun _ _ => none

/-- A store with nothing in it. -/
def noVault : VaultFiles where
  index := .absent
  blobs := fun _ => none
  attachments := fun _ _ => none

theorem noVault_unused (newId : String) : noVault.Unused newId := ⟨rfl, rfl, rfl⟩

/-- The file of the sample vault. -/
def sampleFile : Bytes := Frame.frame sampleMetaJson [1]

theorem export_oneVault : exportVaultFile sampleCodec oneVault "v" = .ok sampleFile := rfl

theorem sampleMetaJson_short : sampleMetaJson.length < 2 ^ 32 := by decide +kernel

/-- A file with the sample entry is read back. -/
theorem readVaultFile_sample (blob : Bytes) :
    readVaultFile sampleCodec (Frame.frame sampleMetaJson blob) = .ok (sampleEntry, blob) := by
  rw [readVaultFile, Frame.unframe_frame sampleMetaJson_short]
  simp only [sampleCodec, if_pos, Except.map]

/-- The exported file arrives whole when both writes get through. -/
theorem allOrNothing_iff_transfersWhole_sample :
    AllOrNothing noVault
      (importVaultFile sampleCodec id noVault "n" "2025-02-02" sampleFile 2) "n"
      (oneVault.content "v") := by
  refine (allOrNothing_iff_transfersWhole id "2025-02-02" export_oneVault
    (noVault_unused "n") sampleFile 2).mpr ?_
  rintro imported blobData parsed index - -
  rw [sampleFile, readVaultFile_sample, Except.ok.injEq, Prod.mk.injEq] at parsed
  obtain ⟨rfl, rfl⟩ := parsed
  refine ⟨fun vault listed => ?_, rfl, fun _ => rfl⟩
  cases listed
  rfl

/-- The file is cut off where the blob begins: it is imported all the same, and the vault
has no blob. -/
theorem cut_file_imports_without_blob :
    ¬ ∀ (mac : String → String) (source target : VaultFiles)
        (id newId now : String) (fileData given : Bytes) (writes : Nat),
      exportVaultFile sampleCodec source id = .ok fileData → target.Unused newId →
        AllOrNothing target
          (importVaultFile sampleCodec mac target newId now given writes) newId
          (source.content id) := by
  intro always
  have whole := always (fun text => text) oneVault noVault "v" "n" "2025-02-02" sampleFile
    (Frame.frame sampleMetaJson []) 2 export_oneVault (noVault_unused "n")
  have listed : oneVault.index.listed? "v" = some sampleEntry := rfl
  obtain ⟨-, blob, -⟩ := (allOrNothing_succ_iff _ _ listed (noVault_unused "n")
    (readVaultFile_sample []) rfl 1).mp whole
  have stored : oneVault.blobs "v" = some [1] := rfl
  rw [stored] at blob
  simp at blob

end Samples

end Desktop
end MindMapVault
