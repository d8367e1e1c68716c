import MindMapVault.Accounts.Rotation
import MindMapVault.Storage.Holdings

/-!
# Deleting a vault, deleting an account

The deletions read what there is, delete objects one by one and then the rows. Every
read may fail and every deletion may end in any way. A deletion of a vault goes by
the attachments that are kept, a listing of the versions, and the bare key; if the
listing fails it goes on without it. A deletion of an account goes by the attachments
that are kept and the bare keys.
-/

namespace MindMapVault
namespace Storage

open Remote
open Accounts (Database StoredMindMapAttachment listMindMaps)
open Vault (StoredMindMap)

/-- `list_mind_map_attachments`. -/
def listMindMapAttachments (db : Database) (mapId : String) :
    List StoredMindMapAttachment :=
  (db.attachments.select fun attachment =>
    attachment.mapId == mapId && attachment.status != .deleted).insertionSort
      fun first second => second.uploadedAt ≤ first.uploadedAt

/-- How the calls of a deletion end: whether the reads and the listing are answered,
and how the deletion of each object and that of the row goes. -/
structure Calls where
  ownerRead : Bool
  mapsRead : Bool
  attachmentsRead : String → Bool
  listing : Bool
  object : String → Outcome
  row : Outcome

/-- All calls go through. -/
def Calls.allDone : Calls where
  ownerRead := true
  mapsRead := true
  attachmentsRead := fun _ => true
  listing := true
  object := fun _ => .done
  row := .done

/-- What a deletion answers and leaves, and whether a call to the storage failed. -/
structure Deletion where
  result : Except AppError Unit
  holdings : Holdings
  storageFailed : Bool

namespace Deletion

/-- Nothing is done. -/
def finished (holdings : Holdings) : Deletion := ⟨.ok (), holdings, false⟩

/-- The database did not answer. -/
def unread (holdings : Holdings) : Deletion :=
  ⟨.error (.database "the database did not answer"), holdings, false⟩

/-- Go on unless there was an error. -/
def andThen (first : Deletion) (rest : Holdings → Deletion) : Deletion :=
  match first.result with
  | .error _ => first
  | .ok () =>
      let second := rest first.holdings
      { second with storageFailed := first.storageFailed || second.storageFailed }

end Deletion

section Deletions

variable (calls : Calls)

/-- Delete objects one after the other. What is not there counts as deleted. -/
def deleteObjects (holdings : Holdings) : List String → Deletion
  | [] => .finished holdings
  | key :: keys =>
      let after := (calls.object key).applied (·.deleteObject key) holdings
      if (calls.object key).reported then
        deleteObjects after keys
      else
        ⟨.error (.storage s!"'{key}' could not be deleted"), after, true⟩

/-- `delete_attachment_objects`. -/
def deleteAttachmentObjects
    (holdings : Holdings) (attachments : List StoredMindMapAttachment) : Deletion :=
  deleteObjects calls holdings (attachments.map (·.s3Key))

/-- `delete_all_versions`. Where the listing fails, no version is listed. -/
def deleteAllVersions (holdings : Holdings) (objectKey : String) : Deletion :=
  let keys := if calls.listing then holdings.listKeysUnder (versionsUnder objectKey) else []
  let deletion := deleteObjects calls holdings (keys ++ [objectKey])
  { deletion with storageFailed := deletion.storageFailed || !calls.listing }

/-- The deletion of a row ends. -/
def deleteRow (holdings : Holdings) (delete : Holdings → Holdings) : Deletion :=
  { result :=
      if calls.row.reported then .ok ()
      else .error (.database "the database did not answer")
    holdings := calls.row.applied delete holdings
    storageFailed := false }

/-- `DELETE /{id}`. -/
def deleteMindMap (holdings : Holdings) (userId id : String) : Deletion :=
  if !calls.ownerRead then
    .unread holdings
  else
    match Accounts.findOwned holdings.db id userId with
    | .error error => ⟨.error error, holdings, false⟩
    | .ok map =>
        if !calls.attachmentsRead id then
          .unread holdings
        else
          (deleteAttachmentObjects calls holdings
            (listMindMapAttachments holdings.db id)).andThen fun holdings =>
          (deleteAllVersions calls holdings map.objectKey).andThen fun holdings =>
          deleteRow calls holdings (·.deleteMindMapRow id userId)

/-- `delete_owned_blobs`, which both deletions of an account have a copy of. -/
def deleteOwnedBlobs (holdings : Holdings) : List StoredMindMap → Deletion
  | [] => .finished holdings
  | map :: maps =>
      if !calls.attachmentsRead map.id then
        .unread holdings
      else
        (deleteAttachmentObjects calls holdings
          (listMindMapAttachments holdings.db map.id)).andThen fun holdings =>
        (deleteObjects calls holdings [map.objectKey]).andThen fun holdings =>
        deleteOwnedBlobs holdings maps

/-- Delete a user's objects and then the user. -/
def deleteAccount (holdings : Holdings) (userId : String) : Deletion :=
  if !calls.ownerRead then
    .unread holdings
  else if (holdings.db.users.find? userId).isNone then
    ⟨.error (.notFound "user not found"), holdings, false⟩
  else if !calls.mapsRead then
    .unread holdings
  else
    (deleteOwnedBlobs calls holdings (listMindMaps holdings.db userId)).andThen
      fun holdings => deleteRow calls holdings (·.deleteUserRow userId)

/-- `delete_profile`, of the user who is signed in. -/
def deleteProfile (holdings : Holdings) (userId : String) : Deletion :=
  deleteAccount calls holdings userId

/-- `delete_sql_user_account`, at the order of the administrator. -/
def deleteSqlUserAccount (holdings : Holdings) (userId : String) : Deletion :=
  deleteAccount calls holdings userId

end Deletions

end Storage
end MindMapVault
