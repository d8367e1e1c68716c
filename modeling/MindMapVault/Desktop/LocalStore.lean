import MindMapVault.Accounts.Database
import MindMapVault.Foundations.Result

/-!
# The profile and the vault index on disk

The desktop application keeps a user's key bundle in one file and the index of the
vaults in another. Changing the password rewrites both: the new contents are written
beside them first and then renamed into place, one after the other. What an interrupted
rotation leaves behind is cleared up from which of the two staging files exist.
-/

namespace MindMapVault
namespace Desktop

open Accounts (Argon2Params)

/-- Why a command of the local store fails. -/
inductive LocalStoreError
  | io (text : String)
  | json (text : String)
  | notFound (text : String)
  | invalidUsername (username : String)
  | invalid (text : String)
  deriving DecidableEq

/-- The profile file of a user. -/
structure LocalProfile where
  username : String
  argon2Salt : String
  argon2Params : Argon2Params
  classicalPublicKey : String
  pqPublicKey : String
  classicalPrivEncrypted : String
  pqPrivEncrypted : String
  keyVersion : Nat
  createdAt : String
  deriving DecidableEq

/-- An entry of the index. -/
structure LocalVaultMeta where
  id : String
  titleEncrypted : String
  ephClassicalPublic : String
  ephPqCiphertext : String
  wrappedDek : String
  vaultColor : Option String
  vaultNoteEncrypted : Option String
  vaultSharingMode : String
  vaultEncryptionMode : String
  maxVersions : Nat
  createdAt : String
  updatedAt : String
  entryMac : Option String
  deriving DecidableEq

/-- The index file. -/
structure VaultIndex where
  vaults : List LocalVaultMeta
  deriving DecidableEq

/-- What a rotation writes to the entry of a vault. -/
structure RotatedVaultEntry where
  id : String
  titleEncrypted : String
  vaultNoteEncrypted : Option String
  deriving DecidableEq

/-- A file: absent, cut off in the middle of a write, or complete. -/
inductive File (α : Type)
  | absent
  | torn
  | holds (value : α)
  deriving DecidableEq

/-- `Path::exists`. -/
def File.exists {α : Type} : File α → Bool
  | .absent => false
  | .torn | .holds _ => true

@[simp] theorem File.exists_absent {α : Type} : (File.absent : File α).exists = false :=
  rfl

@[simp] theorem File.exists_holds {α : Type} (value : α) :
    (File.holds value).exists = true := rfl

/-- The files a rotation touches. -/
structure LocalFiles where
  profile : File LocalProfile
  index : File VaultIndex
  profileNew : File LocalProfile
  indexNew : File VaultIndex
  deriving DecidableEq

/-- `validate_username`. -/
def validateUsername (username : String) : Except LocalStoreError Unit :=
  if username = "" ∨ username = "." ∨ username = ".." ∨
      username.toList.any (fun char =>
        char = '/' ∨ char = '\\' ∨ char.toNat = 0) then
    .error (.invalidUsername username)
  else
    .ok ()

/-- `read_index`. -/
def readIndex : File VaultIndex → Except LocalStoreError VaultIndex
  | .absent => .ok ⟨[]⟩
  | .torn => .error (.json "index.json")
  | .holds index => .ok index

/-- `compute_entry_mac`, over a keyed hash of the joined fields. -/
def computeEntryMac (mac : String → String) (vault : LocalVaultMeta) : String :=
  mac (vault.id ++ "|" ++ vault.titleEncrypted ++ "|" ++ vault.ephClassicalPublic ++
    "|" ++ vault.ephPqCiphertext ++ "|" ++ vault.wrappedDek)

/-- `stamp_index_for_write`. -/
def stampIndexForWrite (mac : String → String) (index : VaultIndex) : VaultIndex where
  vaults := index.vaults.map fun vault =>
    { vault with vaultColor := none, entryMac := some (computeEntryMac mac vault) }

/-- The entry of a vault with its new title and note; an empty note clears it. -/
def rotateEntry (entry : RotatedVaultEntry) (vault : LocalVaultMeta) : LocalVaultMeta :=
  { vault with
    titleEncrypted := entry.titleEncrypted
    vaultNoteEncrypted :=
      match entry.vaultNoteEncrypted with
      | none => vault.vaultNoteEncrypted
      | some note => if note = "" then none else some note }

/-- The first entry of the vault is replaced. -/
def rotateVault (entry : RotatedVaultEntry) : List LocalVaultMeta → List LocalVaultMeta
  | [] => []
  | vault :: rest =>
      if vault.id = entry.id then rotateEntry entry vault :: rest
      else vault :: rotateVault entry rest

/-- The index a rotation writes, before it is stamped. -/
def rotateIndex (index : VaultIndex) (updatedVaults : List RotatedVaultEntry) :
    VaultIndex where
  vaults := updatedVaults.foldl (fun vaults entry => rotateVault entry vaults) index.vaults

/-- One operation on the files. -/
inductive FileOp
  | writeProfileNew (profile : LocalProfile)
  | writeIndexNew (index : VaultIndex)
  | renameProfile
  | renameIndex
  | removeProfileNew
  | removeIndexNew
  deriving DecidableEq

namespace FileOp

/-- What an operation does. Renaming replaces the target in one step, and needs the file
it renames. -/
def perform (files : LocalFiles) : FileOp → LocalFiles
  | .writeProfileNew profile => { files with profileNew := .holds profile }
  | .writeIndexNew index => { files with indexNew := .holds index }
  | .renameProfile =>
      if files.profileNew.exists then
        { files with profile := files.profileNew, profileNew := .absent }
      else files
  | .renameIndex =>
      if files.indexNew.exists then
        { files with index := files.indexNew, indexNew := .absent }
      else files
  | .removeProfileNew => { files with profileNew := .absent }
  | .removeIndexNew => { files with indexNew := .absent }

end FileOp

/-- Operations, one after the other. -/
def performAll (files : LocalFiles) (ops : List FileOp) : LocalFiles :=
  ops.foldl FileOp.perform files

@[simp] theorem performAll_nil (files : LocalFiles) : performAll files [] = files := rfl

@[simp] theorem performAll_cons (files : LocalFiles) (op : FileOp) (ops : List FileOp) :
    performAll files (op :: ops) = performAll (op.perform files) ops := rfl

/-- What `apply_local_password_rotation` is about to do to the files, once its checks
have passed. -/
def rotationOps (mac : String → String) (active : String) (files : LocalFiles)
    (newProfile : LocalProfile)
    (updatedVaults : List RotatedVaultEntry) : Except LocalStoreError (List FileOp) := do
  if newProfile.username ≠ active then
    throw (.invalidUsername newProfile.username)
  validateUsername newProfile.username
  let index ← readIndex files.index
  let stampedIndex := stampIndexForWrite mac (rotateIndex index updatedVaults)
  return [.writeProfileNew newProfile, .writeIndexNew stampedIndex, .renameProfile, .renameIndex]

/-- A rotation that is not refused stages both files and renames both. -/
theorem rotationOps_shape {mac : String → String} {active : String} {files : LocalFiles}
    {newProfile : LocalProfile} {updatedVaults : List RotatedVaultEntry} {ops : List FileOp}
    (accepted : rotationOps mac active files newProfile updatedVaults = .ok ops) :
    ∃ index, readIndex files.index = .ok index ∧
      ops = [.writeProfileNew newProfile,
        .writeIndexNew (stampIndexForWrite mac (rotateIndex index updatedVaults)),
        .renameProfile, .renameIndex] := by
  unfold rotationOps at accepted
  split_ifs at accepted
  · cases accepted
  · obtain ⟨_, _, validated⟩ := Result.bind_eq_ok.mp accepted
    obtain ⟨index, known, same⟩ := Result.bind_eq_ok.mp validated
    exact ⟨index, known, (Except.ok.inj same).symm⟩

/-- What `recover_interrupted_rotation` does, by which staging files it finds. -/
def recoveryOps (profileNew indexNew : Bool) : List FileOp :=
  match profileNew, indexNew with
  | true, true => [.removeProfileNew, .removeIndexNew]
  | false, true => [.renameIndex]
  | true, false => [.removeProfileNew]
  | false, false => []

/-- A profile whose keys are sealed under this password key. -/
def sampleProfile (sealed : String) : LocalProfile where
  username := "ada"
  argon2Salt := "salt"
  argon2Params := ⟨65536, 3, 4⟩
  classicalPublicKey := "classical"
  pqPublicKey := "pq"
  classicalPrivEncrypted := sealed
  pqPrivEncrypted := sealed
  keyVersion := 1
  createdAt := "2025-01-01"

/-- An index of one vault with this title. -/
def sampleIndex (titleEncrypted : String) : VaultIndex where
  vaults :=
    [{ id := "v"
       titleEncrypted := titleEncrypted
       ephClassicalPublic := "classical"
       ephPqCiphertext := "pq"
       wrappedDek := "dek"
       vaultColor := none
       vaultNoteEncrypted := none
       vaultSharingMode := "private"
       vaultEncryptionMode := "standard"
       maxVersions := 50
       createdAt := "2025-01-01"
       updatedAt := "2025-01-01"
       entryMac := none }]

end Desktop
end MindMapVault
