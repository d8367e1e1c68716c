import MindMapVault.Crypto.Cipher
import MindMapVault.Foundations.RoseTree
import MindMapVault.Vault.Handlers

/-!
# Attachments of a local map

An attachment of a node keeps its original inside the map, or in a file beside it that is
encrypted with a key of its own; the key then stands in the map. Files are found by the
id of the attachment. Maps of earlier versions have their originals inside; these are
moved to files when a map is opened, and back for an export.
-/

namespace MindMapVault
namespace Maps

open Crypto
open Vault (Bytes Objects)

/-- What a reference to an attachment says of it. -/
structure AttachmentDetails where
  previewAttachmentId : Option String
  name : String
  contentType : String
  sizeBytes : Nat
  previewContentType : Option String
  previewKind : Option String
  uploadedAt : String
  inlinePreviewDataBase64 : Option String
  deriving DecidableEq

/-- A reference to an attachment. -/
structure NodeAttachmentRef where
  attachmentId : String
  details : AttachmentDetails
  inlineDataBase64 : Option String
  localFileKeyB64 : Option String
  deriving DecidableEq

/-- A node without its children. `Rest` is everything that no function here reads:
notes, colour, icons, dates, links and tags. -/
structure NodeContent (Rest : Type) where
  id : String
  text : String
  rest : Rest
  collapsed : Bool
  customX : Option Int
  customY : Option Int
  imageAttachmentId : Option String
  attachments : List NodeAttachmentRef
  deriving DecidableEq

/-- A map, or a branch of one. -/
abbrev MindMapTreeNode (Rest : Type) := RoseTree (NodeContent Rest)

/-- The attachment references of a map, in the order of `eachAttachment`. -/
def refs {Rest : Type} (root : MindMapTreeNode Rest) : List NodeAttachmentRef :=
  root.labels.flatMap NodeContent.attachments

namespace NodeAttachmentRef

/-- The inline original, where the script takes it for true. -/
def inlineData (ref : NodeAttachmentRef) : Option String := ref.inlineDataBase64.filter (· ≠ "")

/-- The key of the file, where the script takes it for true. -/
def fileKey (ref : NodeAttachmentRef) : Option String := ref.localFileKeyB64.filter (· ≠ "")

end NodeAttachmentRef

/-- `validate_file_id`. -/
def validFileId (id : String) : Bool :=
  id ≠ "" ∧ id.utf8ByteSize ≤ 128 ∧
    id.toList.all fun char => char.isAlphanum || char = '-' || char = '_'

section Files

variable (prims : Primitives)

/-- `readLocalAttachment`; `none` where it answers with null or throws. -/
def readLocalAttachment (files : Objects) (ref : NodeAttachmentRef) : Option Bytes :=
  match ref.inlineData with
  | some data => (fromBase64 data).toOption
  | none => do
      let keyB64 ← ref.fileKey
      let key ← ((fromBase64 keyB64).bind importAesKey).toOption
      let encrypted ← if validFileId ref.attachmentId then files ref.attachmentId else none
      (aesDecrypt prims key encrypted).toOption

/-- How the write of a file goes. It may have replaced the file although it fails. -/
inductive WriteOutcome
  | written (key : Key256) (nonce : Nonce)
  | lost (key : Key256) (nonce : Nonce)
  | failed

/-- The file a write leaves, if it replaces it. -/
def WriteOutcome.leaves (plaintext : Bytes) : WriteOutcome → Option Bytes
  | .written key nonce | .lost key nonce =>
      some (aesEncrypt prims key.toCryptoKey nonce plaintext)
  | .failed => none

/-- The key `writeLocalAttachment` answers with, if it does. -/
def WriteOutcome.answers : WriteOutcome → Option Key256
  | .written key _ => some key
  | .lost _ _ | .failed => none

/-- The original that is to be moved: that of a pending reference whose inline data is
well formed and whose id can name a file. -/
def NodeAttachmentRef.movable (ref : NodeAttachmentRef) : Option Bytes :=
  match ref.inlineData, ref.fileKey with
  | some data, none => if validFileId ref.attachmentId then (fromBase64 data).toOption else none
  | _, _ => none

/-- The reference to an original that has been moved. -/
def NodeAttachmentRef.moved (ref : NodeAttachmentRef) (key : Key256) : NodeAttachmentRef :=
  { ref with localFileKeyB64 := some (toBase64 key.1), inlineDataBase64 := none }

/-- The file that is left when it is a reference's turn to be moved, if one is replaced. -/
def leftFile (outcomes : Nat → WriteOutcome) (turn : NodeAttachmentRef × Nat) :
    Option Bytes :=
  turn.1.movable.bind fun plaintext => (outcomes turn.2).leaves prims plaintext

/-- The key of a reference that is moved. -/
def movedKey (outcomes : Nat → WriteOutcome) (turn : NodeAttachmentRef × Nat) :
    Option Key256 :=
  turn.1.movable.bind fun _ => (outcomes turn.2).answers

/-- Where the loop of `externalizeInlineAttachments` stands. -/
structure Externalizing where
  files : Objects
  turn : Nat
  moved : Nat

/-- One round of the loop. A reference that is not pending, or whose file cannot be
written, stays as it is. -/
def externalizeRef (outcomes : Nat → WriteOutcome) (state : Externalizing)
    (ref : NodeAttachmentRef) : Externalizing × NodeAttachmentRef :=
  let files :=
    match leftFile prims outcomes (ref, state.turn) with
    | some file => state.files.put ref.attachmentId file
    | none => state.files
  match movedKey outcomes (ref, state.turn) with
  | some key => (⟨files, state.turn + 1, state.moved + 1⟩, ref.moved key)
  | none => (⟨files, state.turn + 1, state.moved⟩, ref)

/-- The loop over the references of one node. -/
def externalizeNode {Rest : Type} (outcomes : Nat → WriteOutcome) (state : Externalizing)
    (content : NodeContent Rest) : Externalizing × NodeContent Rest :=
  let walked := RoseTree.walkList (externalizeRef prims outcomes) state content.attachments
  (walked.1, { content with attachments := walked.2 })

/-- `externalizeInlineAttachments`: the files afterwards, and the new map if an original
was moved. -/
def externalizeInlineAttachments {Rest : Type} (outcomes : Nat → WriteOutcome) (files : Objects)
    (root : MindMapTreeNode Rest) : Objects × Option (MindMapTreeNode Rest) :=
  let walked := root.walk (externalizeNode prims outcomes) ⟨files, 0, 0⟩
  (walked.1.files, if 0 < walked.1.moved then some walked.2 else none)

end Files

/-- The ids `pruneLocalAttachments` keeps. -/
def keptIds {Rest : Type} (root : MindMapTreeNode Rest) : List String :=
  ((refs root).filter fun ref => ref.fileKey.isSome).map NodeAttachmentRef.attachmentId

/-- `prune_local_attachments`. It may stop at a file it cannot remove, so some of those
to be removed stay. -/
def pruneLocalAttachments
    (keep : List String) (removed : String → Bool) (files : Objects) : Objects :=
  fun id => if id ∉ keep ∧ removed id = true then none else files id

/-- A local map: what its blob decrypts to, and the files beside it. -/
structure LocalMap (Rest : Type) where
  saved : MindMapTreeNode Rest
  files : Objects

/-- How `uploadBlob` goes. It may have replaced the blob although it fails, for it writes
the index after that. -/
inductive SaveOutcome
  | saved
  | lost
  | failed
  deriving DecidableEq

/-- How the steps of an open go. -/
structure OpenOutcome where
  writes : Nat → WriteOutcome
  save : SaveOutcome
  removed : String → Bool

/-- The opening of a local map: originals are moved out, the new map is saved, and the
files that the map in memory does not name are deleted. -/
def openLocalMap {Rest : Type} (prims : Primitives) (map : LocalMap Rest)
    (outcome : OpenOutcome) : LocalMap Rest :=
  let (files, moved) := externalizeInlineAttachments prims outcome.writes map.files map.saved
  let prune (opened : MindMapTreeNode Rest) :=
    pruneLocalAttachments (keptIds opened) outcome.removed files
  match moved with
  | none => { map with files := prune map.saved }
  | some migrated =>
      match outcome.save with
      | .saved => ⟨migrated, prune migrated⟩
      | .lost => ⟨migrated, prune map.saved⟩
      | .failed => ⟨map.saved, prune map.saved⟩

end Maps
end MindMapVault
