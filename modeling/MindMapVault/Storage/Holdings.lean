import MindMapVault.Shares.Handlers

/-!
# Everything the server holds for its accounts

The tables, and the bucket with the keys a listing goes through. The objects of a
vault are kept under several schemes of keys: the bare key its blob once had, a key
a version, and everything that is attached or shared under the id of the vault. No
key falls under the schemes of two vaults.
-/

namespace MindMapVault
namespace Storage

open Result
open Shares (Store StoreWrite CreateMapShareRequest InitMapShareAttachmentRequest
  StoredMindMapShare StoredMindMapShareAttachment UploadUpdate InstanceSettings)
open Accounts (Database StoredUser StoredMindMapAttachment)
open Vault (StoredMindMap DateTime Bytes Objects)

/-- The tables and the bucket. -/
structure Holdings extends Store where
  keys : List String
  listed : ∀ key, key ∈ keys ↔ (objects key).isSome = true

namespace Holdings

/-- Nothing is stored. -/
def empty (settings : InstanceSettings) (clock : DateTime) : Holdings where
  db := ⟨.empty, .empty, .empty, .empty⟩
  shares := .empty
  shareAttachments := .empty
  objects := fun _ => none
  settings := settings
  clock := clock
  keys := []
  listed := by simp

/-- `PutObject`. -/
def putObject (holdings : Holdings) (key : String) (body : Bytes) : Holdings :=
  { holdings with
    objects := holdings.objects.put key body
    keys := key :: holdings.keys
    listed := by
      intro other
      by_cases same : other = key
      · simp [same]
      · simp [same, holdings.listed, Objects.put_of_ne] }

/-- `DeleteObject`. -/
def deleteObject (holdings : Holdings) (key : String) : Holdings :=
  { holdings with
    objects := holdings.objects.delete key
    keys := holdings.keys.filter (· != key)
    listed := by
      intro other
      by_cases same : other = key
      · simp [same]
      · simp [same, holdings.listed, Objects.delete_of_ne] }

/-- `list_keys_under`. -/
def listKeysUnder (holdings : Holdings) (start : String) : List String :=
  holdings.keys.filter (Text.startsWith start)

/-- `DELETE FROM mind_maps`, and with the rows their attachments and shares. -/
def deleteMindMaps (holdings : Holdings) (condition : StoredMindMap → Bool) : Holdings :=
  let gone := holdings.db.mindMaps.select condition
  let sharesGone := holdings.shares.select fun share =>
    gone.any (·.id == share.mapId)
  { holdings with
    db :=
      { holdings.db with
        mindMaps := holdings.db.mindMaps.delete condition
        attachments := holdings.db.attachments.delete fun attachment =>
          gone.any (·.id == attachment.mapId) }
    shares := holdings.shares.delete fun share => gone.any (·.id == share.mapId)
    shareAttachments := holdings.shareAttachments.delete fun attachment =>
      sharesGone.any (·.id == attachment.shareId) }

/-- `delete_mind_map` of the store. -/
def deleteMindMapRow (holdings : Holdings) (id userId : String) : Holdings :=
  holdings.deleteMindMaps fun map => map.id == id && map.userId == userId

/-- `delete_user` of the store, with all that refers to the user. -/
def deleteUserRow (holdings : Holdings) (userId : String) : Holdings :=
  let rest := holdings.deleteMindMaps (·.userId == userId)
  let sharesGone := rest.shares.select (·.createdBy == userId)
  { rest with
    db :=
      { rest.db with
        users := rest.db.users.delete (·.id == userId)
        attachments := rest.db.attachments.delete (·.uploadedBy == userId)
        unlockMethods := rest.db.unlockMethods.delete (·.userId == userId) }
    shares := rest.shares.delete (·.createdBy == userId)
    shareAttachments := rest.shareAttachments.delete fun attachment =>
      sharesGone.any (·.id == attachment.shareId) }

/-- The rows are the same. -/
structure SameRows (holdings other : Holdings) : Prop where
  db : other.db = holdings.db
  shares : other.shares = holdings.shares
  shareAttachments : other.shareAttachments = holdings.shareAttachments

namespace SameRows

variable {first second third : Holdings}

theorem refl (holdings : Holdings) : holdings.SameRows holdings := ⟨rfl, rfl, rfl⟩

theorem trans (left : first.SameRows second) (right : second.SameRows third) :
    first.SameRows third :=
  ⟨right.db.trans left.db, right.shares.trans left.shares,
    right.shareAttachments.trans left.shareAttachments⟩

end SameRows

theorem sameRows_deleteObject (holdings : Holdings) (key : String) :
    holdings.SameRows (holdings.deleteObject key) := ⟨rfl, rfl, rfl⟩

theorem mem_listKeysUnder {holdings : Holdings} {start key : String} :
    key ∈ holdings.listKeysUnder start ↔
      (holdings.objects key).isSome = true ∧ Text.startsWith start key = true := by
  rw [listKeysUnder, List.mem_filter, holdings.listed]

end Holdings

/-- `{object_key}/v/`, which the keys of the versions of a vault start with. -/
def versionsUnder (objectKey : String) : String := objectKey ++ "/v/"

/-- What the keys of everything attached to a vault or shared from it start with. -/
def mapsUnder (mapId : String) : String := s!"maps/{mapId}/"

/-- The key is one of the vault: its bare key, that of a version, or one under its
id. -/
def ownsKey (map : StoredMindMap) (key : String) : Bool :=
  key == map.objectKey || Text.startsWith (versionsUnder map.objectKey) key ||
    Text.startsWith (mapsUnder map.id) key

/-- What `Uuid::new_v4` prints: 36 hexadecimal digits and hyphens. -/
def IsUuid (text : String) : Prop :=
  text.toList.length = 36 ∧ ∀ char ∈ text.toList, Shares.isHexDigit char = true ∨ char = '-'

instance (text : String) : Decidable (IsUuid text) :=
  have := List.decidableBAll (fun char => Shares.isHexDigit char = true ∨ char = '-') text.toList
  inferInstanceAs (Decidable (_ ∧ _))

/-- What a request has made sure of when its statement is run: a new vault has ids
that were just drawn, and belongs to a user that exists. -/
def Issued (db : Database) (userId : String) : Accounts.Write → Prop
  | .createMindMap id objectKey _ _ =>
      IsUuid id ∧ IsUuid objectKey ∧
        objectKey ∉ db.mindMaps.rows.map (·.objectKey) ∧ db.users.rows.any (·.id == userId) = true
  | _ => True

instance (db : Database) (userId : String) (write : Accounts.Write) :
    Decidable (Issued db userId write) := by
  unfold Issued
  split <;> infer_instance

/-- `SET s3_version_id, checksum_sha256, status = 'available'`. -/
def completed (update : UploadUpdate) (attachment : StoredMindMapAttachment) :
    StoredMindMapAttachment :=
  { attachment with
    s3VersionId := some update.s3VersionId
    checksumSha256 := update.checksumSha256
    status := .available }

/-- `SET status = 'deleted'`. -/
def markedDeleted (attachment : StoredMindMapAttachment) : StoredMindMapAttachment :=
  { attachment with status := .deleted }

@[simp] theorem completed_id
    (update : UploadUpdate) (attachment : StoredMindMapAttachment) :
    (completed update attachment).id = attachment.id := rfl

@[simp] theorem markedDeleted_id (attachment : StoredMindMapAttachment) :
    (markedDeleted attachment).id = attachment.id := rfl

/-- `WHERE map_id = $4 AND id = $5 AND status <> 'deleted'`. -/
def isKept (mapId attachmentId : String) (attachment : StoredMindMapAttachment) : Bool :=
  attachment.mapId == mapId && attachment.id == attachmentId && attachment.status != .deleted

/-- `complete_mind_map_attachment_upload`. -/
def completeMindMapAttachmentUpload
    (db : Database) (mapId attachmentId : String) (update : UploadUpdate) : Database :=
  { db with
    attachments := db.attachments.update (isKept mapId attachmentId) (completed update)
      (completed_id update) }

/-- `mark_mind_map_attachment_deleted`. -/
def markMindMapAttachmentDeleted (db : Database) (mapId attachmentId : String) : Database :=
  { db with
    attachments := db.attachments.update (isKept mapId attachmentId) markedDeleted
      markedDeleted_id }

/-- A statement that changes rows or a call that changes an object, whichever request
it comes from. Objects come and go under any key, since clients write through
presigned addresses and a request may stop anywhere. -/
inductive Event
  | insertUser (user : StoredUser)
  | write (userId : String) (write : Accounts.Write)
  | updateUpload (id userId versionId : String) (versionHistory : List Vault.VersionSnapshot)
  | completeAttachment (mapId attachmentId : String) (update : UploadUpdate)
  | markAttachmentDeleted (mapId attachmentId : String)
  | store (write : StoreWrite)
  | deleteMindMap (id userId : String)
  | deleteUser (userId : String)
  | elapse (now : DateTime)

namespace Holdings

/-- Run a statement on shares, or a call on an object. -/
def execute (holdings : Holdings) (write : StoreWrite) : Except AppError Holdings := do
  let after ← holdings.toStore.execute write
  let rows := { holdings with
    shares := after.shares
    shareAttachments := after.shareAttachments }
  match write with
  | .uploadBlob key body => return rows.putObject key body
  | .deleteObject key => return rows.deleteObject key
  | _ => return rows

/-- What one event leaves. -/
def step (holdings : Holdings) : Event → Option Holdings
  | .insertUser user =>
      if new : user.id ∉ holdings.db.users.rows.map StoredUser.id then
        some { holdings with
          db := { holdings.db with users := holdings.db.users.insert user new } }
      else
        none
  | .write userId write =>
      if Issued holdings.db userId write then
        (Accounts.prepare holdings.db userId write).toOption.bind fun statement =>
          (Accounts.execute userId ⟨holdings.db, none, false, []⟩ statement).map
            fun account => { holdings with db := account.db }
      else
        none
  | .updateUpload id userId versionId versionHistory =>
      some { holdings with
        db := { holdings.db with
          mindMaps := holdings.db.mindMaps.update
            (fun map => map.id == id && map.userId == userId)
            (·.updateUpload versionId versionHistory) fun _ => rfl } }
  | .completeAttachment mapId attachmentId update =>
      some { holdings with
        db := completeMindMapAttachmentUpload holdings.db mapId attachmentId update }
  | .markAttachmentDeleted mapId attachmentId =>
      some { holdings with
        db := markMindMapAttachmentDeleted holdings.db mapId attachmentId }
  | .store write => (holdings.execute write).toOption
  | .deleteMindMap id userId => some (holdings.deleteMindMapRow id userId)
  | .deleteUser userId => some (holdings.deleteUserRow userId)
  | .elapse now => if holdings.clock ≤ now then some { holdings with clock := now } else none

/-- A statement does to the rows, and a call to the bucket, what it does without the
listing. -/
theorem execute_toStore (holdings : Holdings) (write : StoreWrite) :
    (holdings.execute write).map Holdings.toStore = holdings.toStore.execute write := by
  cases write with
  | createMindMapShare share =>
      simp only [execute, Store.execute]
      split_ifs <;> rfl
  | createMindMapShareAttachment attachment =>
      simp only [execute, Store.execute]
      split_ifs <;> rfl
  | completeMindMapShareUpload | setMindMapShareRevoked | markMindMapSharePurged
  | completeMindMapShareAttachmentUpload | uploadBlob | deleteObject => rfl

end Holdings

/-- The ids of vaults have the shape they are drawn in, no two vaults share an object
key, and attachments are kept under the id of their vault. -/
structure Keyed (db : Database) : Prop where
  drawn : ∀ map ∈ db.mindMaps.rows, IsUuid map.id ∧ IsUuid map.objectKey
  objectKeys : (db.mindMaps.rows.map (·.objectKey)).Nodup
  attachments : ∀ attachment ∈ db.attachments.rows,
    Text.startsWith (mapsUnder attachment.mapId) attachment.s3Key = true

/-- The columns of a vault that its keys are made of. -/
def vaultKeys (map : StoredMindMap) : String × String := (map.id, map.objectKey)

/-- The columns of an attachment that say whose it is and where. -/
def attachmentKeys (attachment : StoredMindMapAttachment) : String × String :=
  (attachment.mapId, attachment.s3Key)

namespace Keyed

variable {db after : Database}

/-- Dropping rows, and changing other columns, changes no key. -/
theorem of_sublist (keyed : Keyed db)
    (maps : (after.mindMaps.rows.map vaultKeys).Sublist (db.mindMaps.rows.map vaultKeys))
    (attachments : (after.attachments.rows.map attachmentKeys).Sublist
      (db.attachments.rows.map attachmentKeys)) : Keyed after where
  drawn := by
    intro map present
    obtain ⟨old, oldPresent, same⟩ := List.mem_map.mp (maps.subset (List.mem_map_of_mem present))
    obtain ⟨sameId, sameKey⟩ := Prod.mk.inj same
    have drawn := keyed.drawn old oldPresent
    rwa [sameId, sameKey] at drawn
  objectKeys := by
    have fewer := maps.map Prod.snd
    rw [List.map_map, List.map_map] at fewer
    exact keyed.objectKeys.sublist fewer
  attachments := by
    intro attachment present
    obtain ⟨old, oldPresent, same⟩ :=
      List.mem_map.mp (attachments.subset (List.mem_map_of_mem present))
    obtain ⟨sameMap, sameKey⟩ := Prod.mk.inj same
    have under := keyed.attachments old oldPresent
    rwa [sameMap, sameKey] at under

/-- A vault is created under ids that were just drawn. -/
theorem insertMindMap (keyed : Keyed db) {map : StoredMindMap}
    (new : map.id ∉ db.mindMaps.rows.map StoredMindMap.id)
    (uuid : IsUuid map.id) (keyUuid : IsUuid map.objectKey)
    (unused : map.objectKey ∉ db.mindMaps.rows.map (·.objectKey)) :
    Keyed { db with mindMaps := db.mindMaps.insert map new } where
  drawn := by
    intro row present
    rcases (Table.mem_rows_insert new).mp present with old | rfl
    · exact keyed.drawn row old
    · exact ⟨uuid, keyUuid⟩
  objectKeys := by
    change ((db.mindMaps.rows ++ [map]).map (·.objectKey)).Nodup
    rw [List.map_append, List.nodup_append]
    refine ⟨keyed.objectKeys, List.nodup_singleton _, ?_⟩
    intro old present added last
    rw [List.map_singleton, List.mem_singleton] at last
    rintro rfl
    exact unused (last ▸ present)
  attachments := keyed.attachments

/-- An attachment is added under the id of its vault. -/
theorem insertAttachment (keyed : Keyed db) {attachment : StoredMindMapAttachment}
    (new : attachment.id ∉ db.attachments.rows.map StoredMindMapAttachment.id)
    (under : Text.startsWith (mapsUnder attachment.mapId) attachment.s3Key = true) :
    Keyed { db with attachments := db.attachments.insert attachment new } where
  drawn := keyed.drawn
  objectKeys := keyed.objectKeys
  attachments := by
    intro row present
    rcases (Table.mem_rows_insert new).mp present with old | rfl
    · exact keyed.attachments row old
    · exact under

/-- Other columns of vaults may change. -/
theorem updateMindMaps (keyed : Keyed db) {change : StoredMindMap → StoredMindMap}
    (keeps : ∀ map, vaultKeys (change map) = vaultKeys map) (condition : StoredMindMap → Bool)
    (keepsKey : ∀ map, (change map).id = map.id) :
    Keyed { db with mindMaps := db.mindMaps.update condition change keepsKey } := by
  have same := Table.map_key_update keeps condition db.mindMaps.rows
  exact keyed.of_sublist (same ▸ List.Sublist.refl _) (List.Sublist.refl _)

/-- Other columns of attachments may change. -/
theorem updateAttachments (keyed : Keyed db)
    {change : StoredMindMapAttachment → StoredMindMapAttachment}
    (keeps : ∀ attachment, attachmentKeys (change attachment) = attachmentKeys attachment)
    (condition : StoredMindMapAttachment → Bool)
    (keepsKey : ∀ attachment, (change attachment).id = attachment.id) :
    Keyed { db with attachments := db.attachments.update condition change keepsKey } := by
  have same := Table.map_key_update keeps condition db.attachments.rows
  exact keyed.of_sublist (List.Sublist.refl _) (same ▸ List.Sublist.refl _)

/-- What `init_attachment` and `copy_attachment` make of ids and a name starts with
the id of the vault. -/
theorem startsWith_attachment (mapId id sanitizedName : String) :
    Text.startsWith (mapsUnder mapId) s!"maps/{mapId}/attachments/{id}/{sanitizedName}" = true := by
  rw [Text.startsWith_iff]
  refine ⟨("attachments/" ++ id ++ "/" ++ sanitizedName).toList, ?_⟩
  simp [mapsUnder, toString, String.toList_append]

/-- An insertion of an attachment that is taken. -/
theorem write_insertAttachment (keyed : Keyed db) {userId : String}
    {attachment : StoredMindMapAttachment} {account : Accounts.AccountState}
    (under : Text.startsWith (mapsUnder attachment.mapId) attachment.s3Key = true)
    (taken : Accounts.execute userId ⟨db, none, false, []⟩ (.insertAttachment attachment) =
      some account) :
    Keyed account.db := by
  simp only [Accounts.execute] at taken
  split_ifs at taken with new
  cases Option.some.inj taken
  exact keyed.insertAttachment new under

/-- The request of a user keeps the keys. -/
theorem write (keyed : Keyed db) {userId : String} {write : Accounts.Write}
    {statement : Accounts.WriteStatement} {account : Accounts.AccountState}
    (issued : Issued db userId write) (prepared : Accounts.prepare db userId write = .ok statement)
    (taken : Accounts.execute userId ⟨db, none, false, []⟩ statement = some account) :
    Keyed account.db := by
  cases write with
  | createMindMap id objectKey body now =>
      obtain ⟨-, -, rfl⟩ := map_eq_ok.mp prepared
      obtain ⟨uuid, keyUuid, unused, -⟩ := issued
      simp only [Accounts.execute] at taken
      split_ifs at taken with new
      cases Option.some.inj taken
      exact keyed.insertMindMap new uuid keyUuid unused
  | updateMindMap id body now =>
      obtain ⟨-, -, found⟩ := bind_eq_ok.mp prepared
      obtain ⟨-, -, rfl⟩ := map_eq_ok.mp found
      cases Option.some.inj taken
      exact keyed.updateMindMaps (by intro; rfl) _ _
  | updateVaultMeta id body now =>
      obtain ⟨_, -, found⟩ := bind_eq_ok.mp prepared
      obtain ⟨_, -, rfl⟩ := map_eq_ok.mp found
      cases Option.some.inj taken
      exact keyed.updateMindMaps (by intro; rfl) _ _
  | initAttachment id mapId body now =>
      obtain ⟨-, -, found⟩ := bind_eq_ok.mp prepared
      obtain ⟨-, -, rfl⟩ := map_eq_ok.mp found
      refine keyed.write_insertAttachment ?_ taken
      exact startsWith_attachment mapId id (Accounts.sanitizeAttachmentName body.name)
  | copyAttachment id mapId sourceId nodeId now =>
      obtain ⟨-, -, found⟩ := bind_eq_ok.mp prepared
      obtain ⟨source, -, copied⟩ := bind_eq_ok.mp found
      obtain ⟨-, same⟩ := refuse_eq_ok.mp copied
      cases Except.ok.inj same
      refine keyed.write_insertAttachment ?_ taken
      exact startsWith_attachment mapId id source.sanitizedName

/-- Deleting rows keeps the keys of the others. -/
theorem deleteMindMaps {holdings : Holdings} (keyed : Keyed holdings.db)
    (condition : StoredMindMap → Bool) :
    Keyed (holdings.deleteMindMaps condition).db :=
  keyed.of_sublist (List.filter_sublist.map _) (List.filter_sublist.map _)

theorem deleteUserRow {holdings : Holdings} (keyed : Keyed holdings.db)
    (userId : String) : Keyed (holdings.deleteUserRow userId).db :=
  (keyed.deleteMindMaps (·.userId == userId)).of_sublist (List.Sublist.refl _)
    (List.filter_sublist.map _)

end Keyed

/-- A statement on shares, or a call on an object, leaves the other rows. -/
theorem Holdings.execute_db {holdings after : Holdings} {write : StoreWrite}
    (executed : holdings.execute write = .ok after) : after.db = holdings.db := by
  obtain ⟨rows, -, rest⟩ := bind_eq_ok.mp executed
  cases write <;> cases rest <;> rfl

/-- The keys keep apart whatever happens. -/
theorem keyed_step (holdings : Holdings) (event : Event) (next : Holdings)
    (keyed : Keyed holdings.db) (taken : holdings.step event = some next) :
    Keyed next.db := by
  cases event with
  | insertUser user =>
      simp only [Holdings.step] at taken
      split_ifs at taken
      cases Option.some.inj taken
      exact ⟨keyed.drawn, keyed.objectKeys, keyed.attachments⟩
  | write userId write =>
      simp only [Holdings.step] at taken
      split_ifs at taken with issued
      obtain ⟨statement, prepared, run⟩ := Option.bind_eq_some_iff.mp taken
      obtain ⟨account, executed, rfl⟩ := Option.map_eq_some_iff.mp run
      exact keyed.write issued (toOption_eq_some.mp prepared) executed
  | updateUpload id userId versionId versionHistory =>
      cases Option.some.inj taken
      exact keyed.updateMindMaps (by intro; rfl) _ _
  | completeAttachment mapId attachmentId update =>
      cases Option.some.inj taken
      exact keyed.updateAttachments (by intro; rfl) _ _
  | markAttachmentDeleted mapId attachmentId =>
      cases Option.some.inj taken
      exact keyed.updateAttachments (by intro; rfl) _ _
  | store write =>
      rw [Holdings.execute_db (toOption_eq_some.mp taken)]
      exact keyed
  | deleteMindMap id userId =>
      cases Option.some.inj taken
      exact keyed.deleteMindMaps _
  | deleteUser userId =>
      cases Option.some.inj taken
      exact keyed.deleteUserRow userId
  | elapse now =>
      simp only [Holdings.step] at taken
      split_ifs at taken
      cases Option.some.inj taken
      exact keyed

/-- The server's holdings after some history. -/
def Reachable (holdings : Holdings) : Prop :=
  ∃ settings clock, Transition.Reaches Holdings.step (.empty settings clock) holdings

/-- In every state the keys of vaults keep apart. -/
theorem Reachable.keyed {holdings : Holdings} (reachable : Reachable holdings) :
    Keyed holdings.db := by
  obtain ⟨settings, clock, events, run⟩ := reachable
  exact Transition.exec_invariant keyed_step
    ⟨by simp [Holdings.empty, Table.empty], by simp [Holdings.empty, Table.empty],
      by simp [Holdings.empty, Table.empty]⟩ run

namespace IsUuid

variable {text : String}

theorem no_separator (uuid : IsUuid text) : '/' ∉ text.toList := by
  intro present
  rcases uuid.2 '/' present with digit | hyphen
  · exact absurd digit (by decide)
  · exact absurd hyphen (by decide)

theorem ne_maps (uuid : IsUuid text) : text.toList ≠ "maps".toList := by
  intro same
  have short : "maps".toList.length = 4 := by decide
  have lengths := uuid.1
  rw [same] at lengths
  omega

end IsUuid

/-- How a key of a vault starts: with its object key, or with `maps` and its id. -/
theorem ownsKey_cases {map : StoredMindMap} {key : String} (owns : ownsKey map key = true) :
    (∃ rest, key.toList ++ ['/'] = map.objectKey.toList ++ '/' :: rest) ∨
      ∃ rest, key.toList ++ ['/'] = "maps".toList ++ '/' :: (map.id.toList ++ '/' :: rest) := by
  rw [ownsKey, Bool.or_eq_true, Bool.or_eq_true, beq_iff_eq] at owns
  rcases owns with (rfl | version) | under
  · exact .inl ⟨[], rfl⟩
  · obtain ⟨rest, starts⟩ := Text.startsWith_iff.mp version
    refine .inl ⟨'v' :: '/' :: (rest ++ ['/']), ?_⟩
    rw [starts, versionsUnder, String.toList_append]
    simp
  · obtain ⟨rest, starts⟩ := Text.startsWith_iff.mp under
    refine .inr ⟨rest ++ ['/'], ?_⟩
    rw [starts, mapsUnder]
    simp [toString, String.toList_append]

/-- No key is one of two vaults. -/
theorem Keyed.ownsKey_unique {db : Database} (keyed : Keyed db)
    {map other : StoredMindMap} {key : String}
    (present : map ∈ db.mindMaps.rows) (otherPresent : other ∈ db.mindMaps.rows)
    (owns : ownsKey map key = true) (otherOwns : ownsKey other key = true) :
    map = other := by
  obtain ⟨uuid, keyUuid⟩ := keyed.drawn map present
  obtain ⟨otherUuid, otherKeyUuid⟩ := keyed.drawn other otherPresent
  have mapsSegment : '/' ∉ "maps".toList := by decide
  rcases ownsKey_cases owns with ⟨rest, starts⟩ | ⟨rest, starts⟩
  · rcases ownsKey_cases otherOwns with ⟨otherRest, otherStarts⟩ | ⟨otherRest, otherStarts⟩
    · obtain ⟨sameKey, -⟩ := Text.segment_inj keyUuid.no_separator
        otherKeyUuid.no_separator (starts.symm.trans otherStarts)
      exact List.inj_on_of_nodup_map keyed.objectKeys present otherPresent
        (String.toList_inj.mp sameKey)
    · obtain ⟨sameKey, -⟩ := Text.segment_inj keyUuid.no_separator mapsSegment
        (starts.symm.trans otherStarts)
      exact absurd sameKey keyUuid.ne_maps
  · rcases ownsKey_cases otherOwns with ⟨otherRest, otherStarts⟩ | ⟨otherRest, otherStarts⟩
    · obtain ⟨sameKey, -⟩ := Text.segment_inj otherKeyUuid.no_separator mapsSegment
        (otherStarts.symm.trans starts)
      exact absurd sameKey otherKeyUuid.ne_maps
    · obtain ⟨-, sameRest⟩ := Text.segment_inj mapsSegment mapsSegment
        (starts.symm.trans otherStarts)
      obtain ⟨sameId, -⟩ := Text.segment_inj uuid.no_separator otherUuid.no_separator sameRest
      exact db.mindMaps.eq_of_key_eq present otherPresent (String.toList_inj.mp sameId)

end Storage
end MindMapVault
