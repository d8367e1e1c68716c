import MindMapVault.Storage.Holdings

/-!
# The requests on attachments, beside those on shares

The handlers that announce, upload, complete, copy and delete attachments, cut at
their reads and at their writes like those on shares, and the two families together.
Whatever is announced is checked against the storage limit before its row is
inserted, and counts once it is available.
-/

namespace MindMapVault
namespace Storage

open Remote Threads
open Accounts (Database StoredMindMapAttachment InitAttachmentRequest findOwned
  findAttachment)
open Shares (Store StoreWrite ShareFlight ShareRequest ShareAct UploadUpdate
  CompleteUploadRequest)
open Vault (DateTime Bytes Objects)

/-- A statement that changes the row of an attachment, or a call that changes an
object. -/
inductive AttachmentWrite
  | createMindMapAttachment (attachment : StoredMindMapAttachment)
  | completeMindMapAttachmentUpload (mapId attachmentId : String) (update : UploadUpdate)
  | markMindMapAttachmentDeleted (mapId attachmentId : String)
  | uploadBlob (objectKey : String) (body : Bytes)
  | copyObject (sourceKey destinationKey : String)
  | deleteObject (objectKey : String)

/-- The characters of a key that can be copied. -/
def copyKeyCharacter (char : Char) : Bool :=
  char.isAlphanum || char == '.' || char == '-' || char == '_' || char == '/'

/-- Run a statement or a call that goes through. -/
def executeAttachment (store : Store) : AttachmentWrite → Except AppError Store
  | .createMindMapAttachment attachment =>
      if new : attachment.id ∉
          store.db.attachments.rows.map StoredMindMapAttachment.id then
        if store.db.mindMaps.rows.any (·.id == attachment.mapId) then
          .ok { store with
            db := { store.db with
              attachments := store.db.attachments.insert attachment new } }
        else
          .error (.database "insert violates foreign key constraint")
      else
        .error (.database "duplicate key value violates unique constraint")
  | .completeMindMapAttachmentUpload mapId attachmentId update =>
      .ok { store with
        db := completeMindMapAttachmentUpload store.db mapId attachmentId update }
  | .markMindMapAttachmentDeleted mapId attachmentId =>
      .ok { store with db := markMindMapAttachmentDeleted store.db mapId attachmentId }
  | .uploadBlob objectKey body =>
      .ok { store with objects := store.objects.put objectKey body }
  | .copyObject sourceKey destinationKey =>
      if !sourceKey.toList.all copyKeyCharacter then
        .error (.storage "object key contains characters that cannot be copied")
      else
        match store.objects sourceKey with
        | some body => .ok { store with objects := store.objects.put destinationKey body }
        | none => .error (.notFound s!"'{sourceKey}' not found in storage")
  | .deleteObject objectKey =>
      .ok { store with objects := store.objects.delete objectKey }

/-- What a request on attachments answers. -/
inductive AttachmentReply
  | attachment (attachment : StoredMindMapAttachment)
  | uploaded
  | deleted

/-- A request on attachments under way. -/
inductive AttachmentFlight
  | initializing (userId : String) (attachment : StoredMindMapAttachment)
  | inserting (attachment : StoredMindMapAttachment)
  | uploading (objectKey : String) (body : Bytes)
  | completing (attachment : StoredMindMapAttachment) (update : UploadUpdate)
  | recording (attachment : StoredMindMapAttachment) (update : UploadUpdate)
  | rollingBack (objectKey : String) (error : AppError)
  | reloading (mapId attachmentId : String)
  | admittingCopy (userId sourceKey : String) (copy : StoredMindMapAttachment)
  | copying (sourceKey : String) (copy : StoredMindMapAttachment)
  | insertingCopy (copy : StoredMindMapAttachment)
  | deleting (attachment : StoredMindMapAttachment)
  | marking (attachment : StoredMindMapAttachment)
  | answered (reply : Except AppError AttachmentReply)

/-- A request arrives. The ids it is going to insert are part of it. -/
inductive AttachmentRequest
  | initAttachment (userId mapId attachmentId : String) (body : InitAttachmentRequest)
  | uploadAttachmentBlob (userId mapId attachmentId : String) (body : Bytes)
  | completeAttachmentUpload (userId mapId attachmentId : String) (body : CompleteUploadRequest)
  | copyAttachment (userId mapId attachmentId newId : String) (nodeId : Option String)
  | deleteAttachment (userId mapId attachmentId : String)

/-- What the handler of a request checks when it arrives, and where it goes on. -/
def admitAttachmentRequest (store : Store) :
    AttachmentRequest → Except AppError AttachmentFlight
  | .initAttachment userId mapId attachmentId body => do
      let _ ← findOwned store.db mapId userId
      Accounts.validateAttachmentInit body
      return .initializing userId
        (Accounts.initAttachment attachmentId mapId userId body store.clock)
  | .uploadAttachmentBlob userId mapId attachmentId body => do
      if body = [] then
        throw (.badRequest "blob is required")
      let _ ← findOwned store.db mapId userId
      let attachment ← findAttachment store.db mapId attachmentId
      return .uploading attachment.s3Key body
  | .completeAttachmentUpload userId mapId attachmentId body => do
      let _ ← findOwned store.db mapId userId
      let attachment ← findAttachment store.db mapId attachmentId
      return .completing attachment (Shares.uploadUpdate body)
  | .copyAttachment userId mapId attachmentId newId nodeId => do
      let _ ← findOwned store.db mapId userId
      let source ← findAttachment store.db mapId attachmentId
      if source.status ≠ .available then
        throw (.badRequest "only a completed attachment can be copied")
      return .admittingCopy userId source.s3Key
        (Accounts.copyAttachment newId mapId userId source nodeId store.clock)
  | .deleteAttachment userId mapId attachmentId => do
      let _ ← findOwned store.db mapId userId
      let attachment ← findAttachment store.db mapId attachmentId
      return .deleting attachment

/-- An error ends a request. -/
def answerOr (result : Except AppError AttachmentFlight) : AttachmentFlight :=
  match result with
  | .ok flight => flight
  | .error error => .answered (.error error)

namespace AttachmentFlight

/-- The next read of a request, and where it goes on. -/
def read (store : Store) : AttachmentFlight → Option AttachmentFlight
  | .initializing userId attachment => some <| answerOr do
      store.enforceStorageLimits userId attachment.sizeBytes
      return .inserting attachment
  | .completing attachment update => some <| answerOr do
      let _ ← store.objects.headSize attachment.s3Key
      return .recording attachment update
  | .reloading mapId attachmentId => some <| answerOr do
      let attachment ← findAttachment store.db mapId attachmentId
      return .answered (.ok (.attachment attachment))
  | .admittingCopy userId sourceKey copy => some <| answerOr do
      store.enforceStorageLimits userId copy.sizeBytes
      return .copying sourceKey copy
  | _ => none

/-- A read of a request failed. -/
def readFails (error : AppError) : AttachmentFlight → Option AttachmentFlight
  | .initializing _ _ | .completing _ _ | .reloading _ _ | .admittingCopy _ _ _ =>
      some (.answered (.error error))
  | _ => none

/-- The next write of a request. -/
def pending : AttachmentFlight → Option AttachmentWrite
  | .inserting attachment | .insertingCopy attachment =>
      some (.createMindMapAttachment attachment)
  | .uploading objectKey body => some (.uploadBlob objectKey body)
  | .recording attachment update =>
      some (.completeMindMapAttachmentUpload attachment.mapId attachment.id update)
  | .rollingBack objectKey _ => some (.deleteObject objectKey)
  | .copying sourceKey copy => some (.copyObject sourceKey copy.s3Key)
  | .deleting attachment => some (.deleteObject attachment.s3Key)
  | .marking attachment =>
      some (.markMindMapAttachmentDeleted attachment.mapId attachment.id)
  | _ => none

/-- Where a request goes on after its write, as it was answered. -/
def resume : AttachmentFlight → Except AppError Unit → AttachmentFlight
  | .inserting attachment, .ok () => .answered (.ok (.attachment attachment))
  | .uploading _ _, .ok () => .answered (.ok .uploaded)
  | .recording attachment _, .ok () => .reloading attachment.mapId attachment.id
  | .recording attachment _, .error error => .rollingBack attachment.s3Key error
  | .rollingBack _ error, _ => .answered (.error error)
  | .copying _ copy, .ok () => .insertingCopy copy
  | .insertingCopy copy, .ok () => .reloading copy.mapId copy.id
  | .insertingCopy copy, .error error => .rollingBack copy.s3Key error
  | .deleting attachment, result =>
      match ShareFlight.deleted result, result with
      | false, .error error => .answered (.error error)
      | _, _ => .marking attachment
  | .marking _, .ok () => .answered (.ok .deleted)
  | _, .error error => .answered (.error error)
  | flight, .ok () => flight

end AttachmentFlight

/-- A write ends: what it leaves behind, and what the request is told. -/
def performAttachment (store : Store) (write : AttachmentWrite) (outcome : Outcome)
    (error : AppError) : Store × Except AppError Unit :=
  outcome.perform store (executeAttachment store write) error

/-- The next step of a request on attachments. -/
def advanceAttachment (store : Store) (flight : AttachmentFlight) :
    ShareAct → Option (Store × AttachmentFlight)
  | .read => (flight.read store).map fun after => (store, after)
  | .readFails error => (flight.readFails error).map fun after => (store, after)
  | .write outcome error =>
      flight.pending.map fun write =>
        let ended := performAttachment store write outcome error
        (ended.1, flight.resume ended.2)

/-- Requests on attachments and on shares, runs of the purge and visitors,
interleaved; time passes. -/
def storageRequests :
    Program Store (ShareFlight ⊕ AttachmentFlight) DateTime
      (ShareRequest ⊕ AttachmentRequest) ShareAct where
  outside := Shares.shareRequests.outside
  spawn := fun store request =>
    match request with
    | .inl request =>
        some (store, .inl (Shares.answerOr (Shares.admitShareRequest store request)))
    | .inr request =>
        some (store, .inr (answerOr (admitAttachmentRequest store request)))
  advance := fun store flight act =>
    match flight with
    | .inl flight =>
        (Shares.advanceShare store flight act).map fun ended => (ended.1, .inl ended.2)
    | .inr flight =>
        (advanceAttachment store flight act).map fun ended => (ended.1, .inr ended.2)

/-- The store and the requests under way. -/
abbrev StoragePool := Pool Store (ShareFlight ⊕ AttachmentFlight)

/-- A move of the requests. -/
abbrev StorageMove := Move DateTime (ShareRequest ⊕ AttachmentRequest) ShareAct

end Storage
end MindMapVault
