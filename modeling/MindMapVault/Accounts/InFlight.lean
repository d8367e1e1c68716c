import MindMapVault.Accounts.Rotated
import MindMapVault.Vault.Handlers
import MindMapVault.Foundations.Threads

/-!
# Writes in flight across a rotation

The handlers that store something encrypted under the master key, cut at their
database operations, beside the rotation handler cut at its own. A write is
checked against the key version when it arrives and stores what it prepared when
it gets to; between the two a rotation can do all of its work. The rotation holds
a lock on the row of the user, which keeps rows that refer to that user from
being inserted until it commits. Nobody sees its writes before, and nobody else
writes the rows it has written, so they are one step here, taken at the commit.
-/

namespace MindMapVault
namespace Accounts

open Transition Threads
open Vault (StoredMindMap DateTime UpsertMindMapRequest UpdateVaultMetaRequest
  MindMapMetaUpdate MindMapContentUpdate trim isWhitespace)

/-- The body of an attachment upload. -/
structure InitAttachmentRequest where
  name : String
  contentType : String
  size : Int
  nodeId : Option String
  encrypted : Bool
  encryptionMeta : Option Json

/-- The body that registers a trusted device. -/
structure RegisterUnlockMethodRequest where
  id : String
  label : String
  wrappedMasterKey : String
  deriving DecidableEq

/-- `normalize_optional`. -/
def normalizeOptional (value : Option String) : Option String := (value.map trim).filter (· ≠ "")

/-- `sanitize_attachment_name`. -/
def sanitizeAttachmentName (name : String) : String :=
  let kept := (trim name).toList.filterMap fun char =>
    if char.isAlphanum || char ∈ ['.', '-', '_'] then
      some char
    else if isWhitespace char || char ∈ ['/', '\\', ':'] then
      some '-'
    else
      none
  let sanitized := (Text.trimList (· ∈ ['-', '.']) kept).take 120
  if sanitized = [] then "attachment" else String.ofList sanitized

/-- `validate_attachment_init`. -/
def validateAttachmentInit (body : InitAttachmentRequest) : Except AppError Unit :=
  if trim body.name = "" then
    .error (.badRequest "attachment name is required")
  else if trim body.contentType = "" then
    .error (.badRequest "content_type is required")
  else if body.size < 0 then
    .error (.badRequest "size must be >= 0")
  else if body.encrypted && body.encryptionMeta.isNone then
    .error (.badRequest "encryption_meta is required for encrypted attachments")
  else if !body.encrypted && body.encryptionMeta.isSome then
    .error (.badRequest "encryption_meta is only allowed for encrypted attachments")
  else
    .ok ()

/-- The row `init_attachment` inserts. -/
def initAttachment (id mapId userId : String) (body : InitAttachmentRequest) (now : DateTime) :
    StoredMindMapAttachment where
  id := id
  mapId := mapId
  nodeId := normalizeOptional body.nodeId
  name := trim body.name
  sanitizedName := sanitizeAttachmentName body.name
  contentType := trim body.contentType
  sizeBytes := body.size
  s3Key := s!"maps/{mapId}/attachments/{id}/{sanitizeAttachmentName body.name}"
  s3VersionId := none
  uploadedBy := userId
  uploadedAt := now
  encrypted := body.encrypted
  encryptionMeta := body.encryptionMeta
  checksumSha256 := none
  status := .pending

/-- The row `copy_attachment` inserts for a copy of `source`. -/
def copyAttachment (id mapId userId : String) (source : StoredMindMapAttachment)
    (nodeId : Option String) (now : DateTime) : StoredMindMapAttachment where
  id := id
  mapId := mapId
  nodeId := normalizeOptional nodeId
  name := source.name
  sanitizedName := source.sanitizedName
  contentType := source.contentType
  sizeBytes := source.sizeBytes
  s3Key := s!"maps/{mapId}/attachments/{id}/{source.sanitizedName}"
  s3VersionId := none
  uploadedBy := userId
  uploadedAt := now
  encrypted := source.encrypted
  encryptionMeta := source.encryptionMeta
  checksumSha256 := source.checksumSha256
  status := .available

/-- The row `register_unlock_method` stores. -/
def registerUnlockMethod (userId : String) (body : RegisterUnlockMethodRequest) (now : DateTime) :
    Except AppError UnlockMethod :=
  if trim body.id = "" ∨ 128 < (trim body.id).utf8ByteSize then
    .error (.badRequest "a method id is required")
  else if trim body.wrappedMasterKey = "" then
    .error (.badRequest "the wrapped master key is required")
  else if 4096 < body.wrappedMasterKey.utf8ByteSize then
    .error (.badRequest "the wrapped master key is too large")
  else
    .ok
      { id := trim body.id
        userId := userId
        label := String.ofList ((trim body.label).toList.take 64)
        wrappedMasterKey := body.wrappedMasterKey
        createdAt := now
        lastUsedAt := none }

/-- `find_owned`. -/
def findOwned (db : Database) (id userId : String) : Except AppError StoredMindMap :=
  match (db.mindMaps.find? id).filter (·.userId == userId) with
  | some map => .ok map
  | none => .error (.notFound "mind map not found")

/-- `find_attachment`. -/
def findAttachment (db : Database) (mapId attachmentId : String) :
    Except AppError StoredMindMapAttachment :=
  match (db.attachments.find? attachmentId).filter fun attachment =>
      attachment.mapId == mapId && attachment.status != .deleted with
  | some attachment => .ok attachment
  | none => .error (.notFound "attachment not found")

/-- Which vault a request of a user finds. -/
theorem findOwned_eq_ok {db : Database} {id userId : String} {map : StoredMindMap} :
    findOwned db id userId = .ok map ↔
      map ∈ db.mindMaps.rows ∧ map.id = id ∧ map.userId = userId := by
  unfold findOwned
  cases found : (db.mindMaps.find? id).filter (·.userId == userId) with
  | none =>
      refine iff_of_false nofun fun matching => ?_
      obtain ⟨present, same, owned⟩ := matching
      rw [Table.find?_eq_some.mpr ⟨present, same⟩] at found
      simp [owned] at found
  | some other =>
      obtain ⟨here, owned⟩ := Option.filter_eq_some_iff.mp found
      obtain ⟨present, same⟩ := Table.find?_eq_some.mp here
      constructor
      · intro answered
        cases Except.ok.inj answered
        exact ⟨present, same, by simpa using owned⟩
      · rintro ⟨otherPresent, otherSame, -⟩
        rw [db.mindMaps.eq_of_key_eq present otherPresent (same.trans otherSame.symm)]

/-- The attachment a request finds is one of its vault. -/
theorem mem_of_findAttachment
    {db : Database} {mapId attachmentId : String} {attachment : StoredMindMapAttachment}
    (found : findAttachment db mapId attachmentId = .ok attachment) :
    attachment ∈ db.attachments.rows ∧ attachment.mapId = mapId := by
  unfold findAttachment at found
  split at found
  · next looked =>
      cases found
      obtain ⟨here, kept⟩ := Option.filter_eq_some_iff.mp looked
      exact ⟨(Table.find?_eq_some.mp here).1, beq_iff_eq.mp (Bool.and_eq_true_iff.mp kept).1⟩
  · cases found

/-- A request that stores something encrypted under the master key, behind the
check of the key version. The ids it is going to insert are part of it. -/
inductive Write
  | createMindMap (id objectKey : String) (body : UpsertMindMapRequest) (now : DateTime)
  | updateMindMap (id : String) (body : UpsertMindMapRequest) (now : DateTime)
  | updateVaultMeta (id : String) (body : UpdateVaultMetaRequest) (now : DateTime)
  | initAttachment (id mapId : String) (body : InitAttachmentRequest) (now : DateTime)
  | copyAttachment (id mapId sourceId : String) (nodeId : Option String) (now : DateTime)

/-- The statement a write ends with. -/
inductive WriteStatement
  | insertMindMap (map : StoredMindMap)
  | updateContent (id : String) (update : MindMapContentUpdate)
  | updateMeta (id : String) (update : MindMapMetaUpdate)
  | insertAttachment (attachment : StoredMindMapAttachment)

/-- What a write reads and checks before its statement. -/
def prepare (db : Database) (userId : String) : Write → Except AppError WriteStatement
  | .createMindMap id objectKey body now =>
      (Vault.validateUpsert body).map fun () =>
        .insertMindMap (Vault.createMindMap id userId objectKey body now)
  | .updateMindMap id body now =>
      (Vault.validateUpsert body).bind fun () =>
        (findOwned db id userId).map fun _ =>
          .updateContent id (Vault.contentUpdate body now)
  | .updateVaultMeta id body now =>
      (findOwned db id userId).bind fun map =>
        (Vault.metaUpdate map body now).map (.updateMeta id)
  | .initAttachment id mapId body now =>
      (findOwned db mapId userId).bind fun _ =>
        (validateAttachmentInit body).map fun () =>
          .insertAttachment (initAttachment id mapId userId body now)
  | .copyAttachment id mapId sourceId nodeId now =>
      (findOwned db mapId userId).bind fun _ =>
        (findAttachment db mapId sourceId).bind fun source =>
          if source.status ≠ .available then
            .error (.badRequest "only a completed attachment can be copied")
          else
            .ok (.insertAttachment (copyAttachment id mapId userId source nodeId now))

/-- An account: the tables, the cached key version, the lock a rotation holds on
the row of the user, and the versions whose rotation has returned. -/
structure AccountState where
  db : Database
  cached : Option UInt32
  locked : Bool
  returned : List UInt32

/-- Run the statement of a write. An insertion waits for the lock, since its row
refers to the user; the id of a new vault is new to every table. -/
def execute (userId : String) (account : AccountState) :
    WriteStatement → Option AccountState
  | .insertMindMap map =>
      if new : map.id ∉ account.db.mindMaps.rows.map StoredMindMap.id then
        if account.locked = true ∨
            map.id ∈ account.db.attachments.rows.map StoredMindMapAttachment.mapId then
          none
        else
          some { account with
            db := { account.db with mindMaps := account.db.mindMaps.insert map new } }
      else
        none
  | .updateContent id update =>
      some { account with
        db := { account.db with
          mindMaps := account.db.mindMaps.update
            (fun map => map.id == id && map.userId == userId)
            (·.updateContent update) fun _ => rfl } }
  | .updateMeta id update =>
      some { account with
        db := { account.db with
          mindMaps := account.db.mindMaps.update
            (fun map => map.id == id && map.userId == userId)
            (·.updateMeta update) fun _ => rfl } }
  | .insertAttachment attachment =>
      if new : attachment.id ∉
          account.db.attachments.rows.map StoredMindMapAttachment.id then
        if account.locked then
          none
        else
          some { account with
            db := { account.db with
              attachments := account.db.attachments.insert attachment new } }
      else
        none

/-- `save_unlock_method`: insert the row, or overwrite the one of that id if it
is the same user's. An insertion waits for the lock. -/
def saveUnlockMethod (account : AccountState) (method : UnlockMethod) :
    Option AccountState :=
  if new : method.id ∉ account.db.unlockMethods.rows.map UnlockMethod.id then
    if account.locked then
      none
    else
      some { account with
        db := { account.db with
          unlockMethods := account.db.unlockMethods.insert method new } }
  else
    some { account with
      db := { account.db with
        unlockMethods := account.db.unlockMethods.update
          (fun row => row.id == method.id && row.userId == method.userId)
          (fun row =>
            { row with
              label := method.label
              wrappedMasterKey := method.wrappedMasterKey }) fun _ => rfl } }

/-- `delete_all_unlock_methods`. -/
def deleteAllUnlockMethods (db : Database) (userId : String) : Database :=
  { db with unlockMethods := db.unlockMethods.delete (·.userId == userId) }

/-- A request under way. -/
inductive AccountFlight
  | loadingVersion (tokenKv : UInt32) (write : Write)
  | seedingVersion (tokenKv loaded : UInt32) (write : Write)
  | admitted (write : Write)
  | writing (statement : WriteStatement)
  | registering (method : UnlockMethod)
  | rotating (newAuthHash : String) (update : RotateCredentialsUpdate)
  | locking (newAuthHash : String) (update : RotateCredentialsUpdate)
  | vaultsCovered (newAuthHash : String) (update : RotateCredentialsUpdate)
  | covered (newAuthHash : String) (update : RotateCredentialsUpdate)
  | publishing (newKeyVersion : UInt32)
  | clearing (newKeyVersion : UInt32)
  | finished

/-- A request of the account. A write carries the `kv` claim of its token, a
rotation the hash of its new token. -/
inductive AccountRequest
  | write (tokenKv : Option UInt32) (write : Write)
  | registerUnlockMethod (body : RegisterUnlockMethodRequest) (now : DateTime)
  | rotateCredentials (newAuthHash : String) (update : RotateCredentialsUpdate)

/-- The next operation goes through, or it fails or its request is dropped. -/
inductive AccountAct
  | proceed
  | fail
  deriving DecidableEq

/-- A request arrives. A write is checked against the cached version, if there is
one. -/
def arrive (userId : String) (account : AccountState) :
    AccountRequest → Option (AccountState × AccountFlight)
  | .write none write => some (account, .admitted write)
  | .write (some tokenKv) write =>
      match account.cached with
      | none => some (account, .loadingVersion tokenKv write)
      | some current =>
          some (account, if tokenKv = current then .admitted write else .finished)
  | .registerUnlockMethod body now =>
      match registerUnlockMethod userId body now with
      | .error _ => some (account, .finished)
      | .ok method => some (account, .registering method)
  | .rotateCredentials newAuthHash update =>
      some (account, .rotating newAuthHash update)

/-- A rotation passes a check, or gives its lock back. -/
def AccountState.passing (account : AccountState) (check : Except AppError Unit)
    (next : AccountFlight) : AccountState × AccountFlight :=
  match check with
  | .ok () => (account, next)
  | .error _ => ({ account with locked := false }, .finished)

/-- Rotation `newKeyVersion` returns. -/
def AccountState.return (account : AccountState) (newKeyVersion : UInt32) : AccountState :=
  { account with returned := newKeyVersion :: account.returned }

/-- The next operation of a request goes through. -/
def proceed (userId : String) (account : AccountState) :
    AccountFlight → Option (AccountState × AccountFlight)
  | .loadingVersion tokenKv write =>
      match account.db.users.find? userId with
      | none => some (account, .finished)
      | some user => some (account, .seedingVersion tokenKv user.keyVersion write)
  | .seedingVersion tokenKv loaded write =>
      some ({ account with cached := some loaded },
        if tokenKv = loaded then .admitted write else .finished)
  | .admitted write =>
      match prepare account.db userId write with
      | .error _ => some (account, .finished)
      | .ok statement => some (account, .writing statement)
  | .writing statement =>
      (execute userId account statement).map fun after => (after, .finished)
  | .registering method =>
      (saveUnlockMethod account method).map fun after => (after, .finished)
  | .rotating newAuthHash update =>
      if account.locked then
        none
      else
        match account.db.users.find? userId with
        | none => some (account, .finished)
        | some user =>
            some ({ account with locked := true }.passing
              (checkKeyVersion user update) (.locking newAuthHash update))
  | .locking newAuthHash update =>
      some (account.passing (checkVaults (ownedVaults account.db userId) update)
        (.vaultsCovered newAuthHash update))
  | .vaultsCovered newAuthHash update =>
      some (account.passing
        (checkAttachments (rotationAttachments account.db userId) update)
        (.covered newAuthHash update))
  | .covered newAuthHash update =>
      some
        ({ account with
            db := writeBundle account.db userId update newAuthHash
            locked := false },
          .publishing update.newKeyVersion)
  | .publishing newKeyVersion =>
      some ({ account with cached := some newKeyVersion }, .clearing newKeyVersion)
  | .clearing newKeyVersion =>
      some
        ({ account with db := deleteAllUnlockMethods account.db userId }.return
          newKeyVersion, .finished)
  | .finished => none

/-- The next operation of a request fails. A transaction under way is rolled
back and its lock given back; a rotation whose clean-up fails returns all the
same. -/
def fail (account : AccountState) :
    AccountFlight → Option (AccountState × AccountFlight)
  | .locking _ _ | .vaultsCovered _ _ | .covered _ _ =>
      some ({ account with locked := false }, .finished)
  | .clearing newKeyVersion => some (account.return newKeyVersion, .finished)
  | .finished => none
  | _ => some (account, .finished)

/-- Any number of requests of one account, interleaved operation by
operation. -/
def accountRequests (userId : String) :
    Program AccountState AccountFlight Empty AccountRequest AccountAct where
  outside := fun _ event => nomatch event
  spawn := arrive userId
  advance := fun account flight act =>
    match act with
    | .proceed => proceed userId account flight
    | .fail => fail account flight

/-- An account and its requests under way. -/
abbrev AccountPool := Pool AccountState AccountFlight

/-- A move of the account's requests. -/
abbrev AccountMove := Move Empty AccountRequest AccountAct

end Accounts
end MindMapVault
