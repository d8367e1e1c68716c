import MindMapVault.Maps.Externalized
import MindMapVault.Maps.Interchange
import MindMapVault.Storage.Holdings

/-!
# A vault that is exported and imported again

A vault is kept on the server or in a directory, and so is the one an import makes. The
file has the tree and, from a directory, the originals that could be read and are not
empty; from the server it has what stands inside the map.
-/

namespace MindMapVault
namespace Maps

open Crypto Desktop Transition
open Vault (Bytes DateTime Objects VersionSnapshot)
open Storage (Holdings Event)

/-- Where a vault is kept: on the server, or in a directory. -/
inductive Place
  | server (holdings : Holdings) (userId vaultId : String)
  | directory (files : Objects)

section Reading

variable (prims : Primitives) (masterKey : Key256)

end Reading

/-- The request that creates an imported vault. -/
def VaultDetail.body (vault : VaultDetail) : Vault.UpsertMindMapRequest where
  titleEncrypted := vault.titleEncrypted
  ephClassicalPublic := vault.envelope.ephClassicalPublic
  ephPqCiphertext := vault.envelope.ephPqCiphertext
  wrappedDek := vault.envelope.wrappedDek

/-- What `createVault` and `uploadBlob` do on the server. -/
def importEvents (userId newId objectKey versionId : String) (history : List VersionSnapshot)
    (now : DateTime) (vault : VaultDetail) : List Event :=
  [.write userId (.createMindMap newId objectKey vault.body now),
    .store (.uploadBlob (Vault.versionKey objectKey versionId) vault.blob),
    .updateUpload newId userId versionId history]

/-- How a vault is made of a file: on the server, or in a new directory, where its
originals are moved out of the map when it is opened first. -/
inductive Destination (userId : String) (vault : VaultDetail)
  | server (before after : Holdings)
      (newId objectKey versionId : String) (history : List VersionSnapshot) (now : DateTime)
      (done : exec Holdings.step before
        (importEvents userId newId objectKey versionId history now vault) = some after)
  | directory (outcome : OpenOutcome)

/-- The map of a new vault once it is opened, and where it is kept. -/
def Destination.arrival {Rest : Type} {userId : String} {vault : VaultDetail}
    (prims : Primitives) (imported : MindMapTreeNode Rest) :
    Destination userId vault → MindMapTreeNode Rest × Place
  | .server _ after newId .. => (imported, .server after userId newId)
  | .directory outcome =>
      let opened := openLocalMap prims ⟨imported, fun _ => none⟩ outcome
      (opened.saved, .directory opened.files)

section Carried

variable (prims : Primitives) (source : Place)

/-- The original that stands in the file. From a directory everything is put there that
can be read; an empty text, though, counts as none. -/
def carried (ref : NodeAttachmentRef) : Option Bytes :=
  match source with
  | .server .. => ref.inlineData.bind fun data => (fromBase64 data).toOption
  | .directory files =>
      (readLocalAttachment prims files ref).filter fun original =>
        ref.fileKey = none ∨ original ≠ []

end Carried

section Export

variable {Rest : Type} {prims : Primitives}

end Export

section Reference

variable {prims : Primitives}

end Reference

end Maps
end MindMapVault
