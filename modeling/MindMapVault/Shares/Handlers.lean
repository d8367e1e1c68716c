import MindMapVault.Shares.Store
import MindMapVault.Foundations.Threads

/-!
# The requests on shares

The handlers of the owner's routes and of the public ones, and the runs of the
purge, cut at their reads and at their writes. Vaults and attachments do not change
here, so what a handler checks about them it checks when it arrives. Every read may
fail, and every write may fail with or without having taken effect.
-/

namespace MindMapVault
namespace Shares

open Remote Threads
open Accounts (findOwned findAttachment normalizeOptional sanitizeAttachmentName)
open Vault (DateTime Bytes Objects trim normalizeVersionId)

/-- The body of a new share. -/
structure CreateMapShareRequest where
  name : String
  scope : ShareScope
  includeAttachments : Bool
  passphraseHint : Option String
  expiresAt : Option DateTime
  contentType : String
  sizeBytes : Int
  encryptionMeta : Option Json

/-- The body that completes the upload of a share or of an attachment shared with
it. -/
structure CompleteUploadRequest where
  versionId : String
  checksumSha256 : Option String
  deriving DecidableEq

/-- The body of a new attachment of a share. -/
structure InitMapShareAttachmentRequest where
  name : String
  contentType : String
  size : Int
  nodeId : Option String
  sourceAttachmentId : Option String
  encryptionMeta : Option Json

/-- `validate_share_create`. -/
def validateShareCreate (body : CreateMapShareRequest) (now : DateTime) :
    Except AppError Unit :=
  if trim body.name = "" then
    .error (.badRequest "share name is required")
  else if trim body.contentType = "" then
    .error (.badRequest "content_type is required")
  else if body.sizeBytes < 0 then
    .error (.badRequest "size_bytes must be >= 0")
  else if body.encryptionMeta.isNone then
    .error (.badRequest "encryption_meta is required for shares")
  else if body.expiresAt.any fun expiresAt => decide (expiresAt ≤ now) then
    .error (.badRequest "expires_at must be in the future")
  else if body.passphraseHint.any fun hint =>
      decide (200 < (trim hint).utf8ByteSize) then
    .error (.badRequest "passphrase_hint is too long")
  else
    .ok ()

/-- `validate_share_attachment_init`. -/
def validateShareAttachmentInit (body : InitMapShareAttachmentRequest) :
    Except AppError Unit :=
  if trim body.name = "" then
    .error (.badRequest "attachment name is required")
  else if trim body.contentType = "" then
    .error (.badRequest "content_type is required")
  else if body.size < 0 then
    .error (.badRequest "size must be >= 0")
  else if body.encryptionMeta.isNone then
    .error (.badRequest "encryption_meta is required for shared attachments")
  else
    .ok ()

/-- `is_ascii_hexdigit`. -/
def isHexDigit (char : Char) : Bool :=
  char.isDigit || ('a' ≤ char && char ≤ 'f') || ('A' ≤ char && char ≤ 'F')

/-- `validate_share_complete`. -/
def validateShareComplete (checksumSha256 : Option String) : Except AppError Unit :=
  if checksumSha256.any fun checksum =>
      (trim checksum).utf8ByteSize ≠ 64 || !(trim checksum).toList.all isHexDigit then
    .error (.badRequest "checksum_sha256 must be a 64-character hex string")
  else
    .ok ()

/-- The row `create_share` inserts. -/
def createShare (id mapId userId : String) (body : CreateMapShareRequest) (encryptionMeta : Json)
    (now : DateTime) : StoredMindMapShare where
  id := id
  mapId := mapId
  shareName := trim body.name
  scope := body.scope
  s3Key := s!"maps/{mapId}/shares/{id}/{sanitizeAttachmentName (trim body.name)}"
  s3VersionId := none
  createdBy := userId
  createdAt := now
  updatedAt := now
  expiresAt := body.expiresAt
  revoked := false
  includeAttachments := body.includeAttachments
  passphraseHint := normalizeOptional body.passphraseHint
  contentType := trim body.contentType
  sizeBytes := body.sizeBytes
  encryptionMeta := encryptionMeta
  checksumSha256 := none
  status := .pending

/-- The row `init_share_attachment` inserts. -/
def initShareAttachment (id mapId shareId : String) (body : InitMapShareAttachmentRequest)
    (encryptionMeta : Json) (now : DateTime) : StoredMindMapShareAttachment where
  id := id
  shareId := shareId
  sourceAttachmentId := normalizeOptional body.sourceAttachmentId
  nodeId := normalizeOptional body.nodeId
  name := trim body.name
  sanitizedName := sanitizeAttachmentName body.name
  contentType := trim body.contentType
  sizeBytes := body.size
  s3Key := s!"maps/{mapId}/shares/{shareId}/attachments/{id}/" ++ sanitizeAttachmentName body.name
  s3VersionId := none
  uploadedAt := now
  encryptionMeta := encryptionMeta
  checksumSha256 := none
  status := .pending

/-- What the completion of an upload records. -/
def uploadUpdate (body : CompleteUploadRequest) : UploadUpdate where
  s3VersionId := normalizeVersionId body.versionId
  checksumSha256 := normalizeOptional body.checksumSha256

/-- What a visitor may ask of a share. -/
inductive PublicEndpoint
  | share
  | blob
  | attachmentDownload (attachmentId : String)
  | attachmentBlob (attachmentId : String)
  deriving DecidableEq

/-- What a request answers. -/
inductive ShareReply
  | share (share : StoredMindMapShare)
  | attachment (attachment : StoredMindMapShareAttachment)
  | uploaded
  | purged (cleared : Nat)
  | publicShare (share : StoredMindMapShare) (attachments : List StoredMindMapShareAttachment)
  | publicAttachment (share : StoredMindMapShare) (attachment : StoredMindMapShareAttachment)
  | publicBlob (share : StoredMindMapShare) (contentType : String) (bytes : Bytes)

/-- A request on shares, or a run of the purge, under way. -/
inductive ShareFlight
  | creating (userId : String) (share : StoredMindMapShare)
  | inserting (share : StoredMindMapShare)
  | uploading (objectKey : String) (body : Bytes)
  | completing (share : StoredMindMapShare) (update : UploadUpdate)
  | recording (share : StoredMindMapShare) (update : UploadUpdate)
  | rollingBack (objectKey : String) (error : AppError)
  | reloading (mapId shareId : String)
  | revoking (share : StoredMindMapShare)
  | listing (share : StoredMindMapShare)
  | deleting (share : StoredMindMapShare) (objectKeys : List String)
  | marking (share : StoredMindMapShare)
  | attaching (userId mapId : String) (sourceAttachmentId : Option String)
      (attachment : StoredMindMapShareAttachment)
  | insertingAttachment (attachment : StoredMindMapShareAttachment)
  | finding (shareId attachmentId : String) (body : Bytes)
  | completingAttachment (attachment : StoredMindMapShareAttachment) (update : UploadUpdate)
  | recordingAttachment (attachment : StoredMindMapShareAttachment) (update : UploadUpdate)
  | reloadingAttachment (shareId attachmentId : String)
  | sweeping (cleared : Nat) (shares : List StoredMindMapShare)
  | sweepingObjects (cleared : Nat) (share : StoredMindMapShare)
      (objectKeys : List String) (failed : Bool) (rest : List StoredMindMapShare)
  | sweepMarking (cleared : Nat) (share : StoredMindMapShare) (rest : List StoredMindMapShare)
  | looking (endpoint : PublicEndpoint) (shareId : String)
  | found (endpoint : PublicEndpoint) (share : StoredMindMapShare)
  | fetching (share : StoredMindMapShare) (contentType objectKey : String)
  | answered (reply : Except AppError ShareReply)

/-- A request arrives, or a run of the purge starts. The ids it is going to insert are
part of it. -/
inductive ShareRequest
  | createShare (userId mapId shareId : String) (body : CreateMapShareRequest)
  | uploadShareBlob (userId mapId shareId : String) (body : Bytes)
  | completeShareUpload (userId mapId shareId : String) (body : CompleteUploadRequest)
  | revokeShare (userId mapId shareId : String)
  | initShareAttachment (userId mapId shareId attachmentId : String)
      (body : InitMapShareAttachmentRequest)
  | uploadShareAttachmentBlob (userId mapId shareId attachmentId : String) (body : Bytes)
  | completeShareAttachmentUpload (userId mapId shareId attachmentId : String)
      (body : CompleteUploadRequest)
  | purgeExpiredShares
  | read (endpoint : PublicEndpoint) (shareId : String)

/-- `SHARE_PURGE_BATCH`. -/
def sharePurgeBatch : Nat := 200

/-- What the handler of a request checks when it arrives, and where it goes on. -/
def admitShareRequest (store : Store) : ShareRequest → Except AppError ShareFlight
  | .createShare userId mapId shareId body => do
      let _ ← findOwned store.db mapId userId
      validateShareCreate body store.clock
      match body.encryptionMeta with
      | none => throw (.badRequest "encryption_meta is required for shares")
      | some encryptionMeta =>
          return .creating userId (createShare shareId mapId userId body encryptionMeta store.clock)
  | .uploadShareBlob userId mapId shareId body => do
      if body = [] then
        throw (.badRequest "blob is required")
      let _ ← findOwned store.db mapId userId
      let share ← store.findShare mapId shareId
      if share.revoked then
        throw (.badRequest "share is revoked")
      return .uploading share.s3Key body
  | .completeShareUpload userId mapId shareId body => do
      let _ ← findOwned store.db mapId userId
      validateShareComplete body.checksumSha256
      let share ← store.findShare mapId shareId
      return .completing share (uploadUpdate body)
  | .revokeShare userId mapId shareId => do
      let _ ← findOwned store.db mapId userId
      let existing ← store.findShare mapId shareId
      return .revoking existing
  | .initShareAttachment userId mapId shareId attachmentId body => do
      let _ ← findOwned store.db mapId userId
      validateShareAttachmentInit body
      let share ← store.findShare mapId shareId
      if !share.includeAttachments then
        throw (.badRequest "share was created without attachment support")
      if share.revoked then
        throw (.badRequest "share is revoked")
      match body.encryptionMeta with
      | none =>
          throw (.badRequest "encryption_meta is required for shared attachments")
      | some encryptionMeta =>
          return .attaching userId mapId body.sourceAttachmentId
            (initShareAttachment attachmentId mapId shareId body encryptionMeta store.clock)
  | .uploadShareAttachmentBlob userId mapId shareId attachmentId body => do
      if body = [] then
        throw (.badRequest "blob is required")
      let _ ← findOwned store.db mapId userId
      let share ← store.findShare mapId shareId
      if share.revoked then
        throw (.badRequest "share is revoked")
      return .finding shareId attachmentId body
  | .completeShareAttachmentUpload userId mapId shareId attachmentId body => do
      let _ ← findOwned store.db mapId userId
      validateShareComplete body.checksumSha256
      let attachment ← store.findShareAttachment shareId attachmentId
      return .completingAttachment attachment (uploadUpdate body)
  | .purgeExpiredShares =>
      .ok (.sweeping 0 (store.listPurgeableMindMapShares store.clock sharePurgeBatch))
  | .read endpoint shareId => .ok (.looking endpoint shareId)

/-- An error ends a request. -/
def answerOr (result : Except AppError ShareFlight) : ShareFlight :=
  match result with
  | .ok flight => flight
  | .error error => .answered (.error error)

/-- `find_public_share`. -/
def findPublicShare (store : Store) (shareId : String) :
    Except AppError StoredMindMapShare :=
  match store.shares.find? shareId with
  | none => .error (.notFound "share not found")
  | some share =>
      if share.status ≠ .available || share.revoked then
        .error (.notFound "share not found")
      else if share.expiresAt.any fun expiresAt => decide (expiresAt ≤ store.clock) then
        .error (.notFound "share not found")
      else
        .ok share

/-- The attachment of a public share, once its upload is complete. -/
def findPublicAttachment (store : Store) (share : StoredMindMapShare) (attachmentId : String) :
    Except AppError StoredMindMapShareAttachment := do
  if !share.includeAttachments then
    throw (.notFound "share attachment not found")
  let attachment ← store.findShareAttachment share.id attachmentId
  if attachment.status ≠ .available then
    throw (.notFound "share attachment not found")
  return attachment

/-- `download_blob`. -/
def downloadBlob (store : Store) (objectKey : String) : Except AppError Bytes :=
  match store.objects objectKey with
  | some bytes => .ok bytes
  | none => .error (.notFound s!"'{objectKey}' not found in storage")

/-- The objects of a share as its row and a listing of its attachments name them. -/
def objectKeysOf (store : Store) (share : StoredMindMapShare) : List String :=
  (store.listMindMapShareAttachments share.id).map (·.s3Key) ++ [share.s3Key]

namespace ShareFlight

/-- The next read of a request, and where it goes on. -/
def read (store : Store) : ShareFlight → Option ShareFlight
  | .creating userId share => some <| answerOr do
      store.enforceStorageLimits userId share.sizeBytes
      return .inserting share
  | .completing share update => some <| answerOr do
      let _ ← store.objects.headSize share.s3Key
      return .recording share update
  | .reloading mapId shareId => some <| answerOr do
      let share ← store.findShare mapId shareId
      return .answered (.ok (.share share))
  | .listing share => some (.deleting share (objectKeysOf store share))
  | .attaching userId mapId sourceAttachmentId attachment => some <| answerOr do
      if let some sourceAttachmentId := sourceAttachmentId then
        let _ ← findAttachment store.db mapId sourceAttachmentId
      store.enforceStorageLimits userId attachment.sizeBytes
      return .insertingAttachment attachment
  | .finding shareId attachmentId body => some <| answerOr do
      let attachment ← store.findShareAttachment shareId attachmentId
      return .uploading attachment.s3Key body
  | .completingAttachment attachment update => some <| answerOr do
      let _ ← store.objects.headSize attachment.s3Key
      return .recordingAttachment attachment update
  | .reloadingAttachment shareId attachmentId => some <| answerOr do
      let attachment ← store.findShareAttachment shareId attachmentId
      return .answered (.ok (.attachment attachment))
  | .sweeping cleared [] => some (.answered (.ok (.purged cleared)))
  | .sweeping cleared (share :: rest) =>
      some (.sweepingObjects cleared share (objectKeysOf store share) false rest)
  | .looking endpoint shareId => some <| answerOr do
      let share ← findPublicShare store shareId
      return .found endpoint share
  | .found .share share =>
      let attachments :=
        if share.includeAttachments then
          (store.listMindMapShareAttachments share.id).filter (·.status == .available)
        else
          []
      some (.answered (.ok (.publicShare share attachments)))
  | .found .blob share => some (.fetching share share.contentType share.s3Key)
  | .found (.attachmentDownload attachmentId) share => some <| answerOr do
      let attachment ← findPublicAttachment store share attachmentId
      return .answered (.ok (.publicAttachment share attachment))
  | .found (.attachmentBlob attachmentId) share => some <| answerOr do
      let attachment ← findPublicAttachment store share attachmentId
      return .fetching share attachment.contentType attachment.s3Key
  | .fetching share contentType objectKey => some <| answerOr do
      let bytes ← downloadBlob store objectKey
      return .answered (.ok (.publicBlob share contentType bytes))
  | _ => none

/-- A read of a request failed. The purge goes on with the next share. -/
def readFails (error : AppError) : ShareFlight → Option ShareFlight
  | .creating _ _ | .completing _ _ | .reloading _ _ | .listing _
  | .attaching _ _ _ _ | .finding _ _ _ | .completingAttachment _ _
  | .reloadingAttachment _ _ | .looking _ _ | .found _ _ | .fetching _ _ _ =>
      some (.answered (.error error))
  | .sweeping cleared (_ :: rest) => some (.sweeping cleared rest)
  | _ => none

/-- The next write of a request. -/
def pending : ShareFlight → Option StoreWrite
  | .inserting share => some (.createMindMapShare share)
  | .uploading objectKey body => some (.uploadBlob objectKey body)
  | .recording share update =>
      some (.completeMindMapShareUpload share.mapId share.id update)
  | .rollingBack objectKey _ => some (.deleteObject objectKey)
  | .revoking share => some (.setMindMapShareRevoked share.mapId share.id)
  | .deleting _ (objectKey :: _) => some (.deleteObject objectKey)
  | .marking share => some (.markMindMapSharePurged share.id)
  | .insertingAttachment attachment => some (.createMindMapShareAttachment attachment)
  | .recordingAttachment attachment update =>
      some (.completeMindMapShareAttachmentUpload attachment.shareId attachment.id update)
  | .sweepingObjects _ _ (objectKey :: _) _ _ => some (.deleteObject objectKey)
  | .sweepMarking _ share _ => some (.markMindMapSharePurged share.id)
  | _ => none

/-- Whether a deletion counts as done: an object that was not there is gone. -/
def deleted : Except AppError Unit → Bool
  | .ok () | .error (.notFound _) => true
  | .error _ => false

/-- Where a request goes on after its write, as it was answered. -/
def resume : ShareFlight → Except AppError Unit → ShareFlight
  | .inserting share, .ok () => .answered (.ok (.share share))
  | .uploading _ _, .ok () => .answered (.ok .uploaded)
  | .recording share _, .ok () => .reloading share.mapId share.id
  | .recording share _, .error error => .rollingBack share.s3Key error
  | .rollingBack _ error, _ => .answered (.error error)
  | .revoking share, .ok () => .listing share
  | .deleting share (_ :: objectKeys), result =>
      match deleted result, result, objectKeys with
      | false, .error error, _ => .answered (.error error)
      | _, _, [] => .marking share
      | _, _, _ => .deleting share objectKeys
  | .marking share, .ok () => .reloading share.mapId share.id
  | .insertingAttachment attachment, .ok () => .answered (.ok (.attachment attachment))
  | .recordingAttachment attachment _, .ok () =>
      .reloadingAttachment attachment.shareId attachment.id
  | .recordingAttachment attachment _, .error error =>
      .rollingBack attachment.s3Key error
  -- the purge notes a failure and goes on, and marks what it has emptied
  | .sweepingObjects cleared share (_ :: objectKeys) failed rest, result =>
      match failed || !deleted result, objectKeys with
      | true, [] => .sweeping cleared rest
      | false, [] => .sweepMarking cleared share rest
      | failed, _ => .sweepingObjects cleared share objectKeys failed rest
  | .sweepMarking cleared _ rest, .ok () => .sweeping (cleared + 1) rest
  | .sweepMarking cleared _ rest, .error _ => .sweeping cleared rest
  | _, .error error => .answered (.error error)
  | flight, .ok () => flight

end ShareFlight

/-- A step of a request: its next read, or its next write and how that ends. -/
inductive ShareAct
  | read
  | readFails (error : AppError)
  | write (outcome : Outcome) (error : AppError)
  deriving DecidableEq

/-- Nothing is stored yet under the key made from an id that was just drawn. -/
def Store.drawn (store : Store) : StoreWrite → Bool
  | .createMindMapShare share => (store.objects share.s3Key).isNone
  | .createMindMapShareAttachment attachment =>
      (store.objects attachment.s3Key).isNone
  | _ => true

/-- A write ends: what it leaves behind, and what the request is told. -/
def Store.perform (store : Store) (write : StoreWrite) (outcome : Outcome)
    (error : AppError) : Store × Except AppError Unit :=
  outcome.perform store (store.execute write) error

/-- The next step of a request. -/
def advanceShare (store : Store) (flight : ShareFlight) :
    ShareAct → Option (Store × ShareFlight)
  | .read => (flight.read store).map fun after => (store, after)
  | .readFails error => (flight.readFails error).map fun after => (store, after)
  | .write outcome error =>
      (flight.pending.filter store.drawn).map fun write =>
        let ended := store.perform write outcome error
        (ended.1, flight.resume ended.2)

/-- Requests on shares, runs of the purge and visitors, interleaved; time passes. -/
def shareRequests :
    Program Store ShareFlight DateTime ShareRequest ShareAct where
  outside := fun store now =>
    if store.clock ≤ now then some { store with clock := now } else none
  spawn := fun store request => some (store, answerOr (admitShareRequest store request))
  advance := advanceShare

/-- The store and the requests under way. -/
abbrev SharePool := Pool Store ShareFlight

/-- A move of the requests. -/
abbrev ShareMove := Move DateTime ShareRequest ShareAct

end Shares
end MindMapVault
