import MindMapVault.Foundations.Totals
import MindMapVault.Shares.Purge
import MindMapVault.Storage.Requests

/-!
# What a write does to the bytes an account uses

The usage of an account is three totals: its available attachments, its available
shares, and what is shared with them. A write that makes something available adds
its size and nothing else does; revoking, purging and deleting only take away, since
no size is negative.
-/

namespace MindMapVault
namespace Storage

open Accounts (Database StoredMindMapAttachment)
open Shares (Store StoreWrite StoredMindMapShare StoredMindMapShareAttachment
  UploadUpdate)
open Vault (DateTime)

/-- A write of a request on shares or on attachments. -/
inductive Write
  | share (write : StoreWrite)
  | attachment (write : AttachmentWrite)

/-- A row that counts for its size once it is available. -/
inductive Announcement
  | attachment (row : StoredMindMapAttachment)
  | share (row : StoredMindMapShare)
  | shareAttachment (row : StoredMindMapShareAttachment)

/-- The size that is announced. -/
def Announcement.sizeBytes : Announcement → Int
  | .attachment row => row.sizeBytes
  | .share row => row.sizeBytes
  | .shareAttachment row => row.sizeBytes

/-- The row a write inserts. -/
def Write.inserts : Write → Option Announcement
  | .attachment (.createMindMapAttachment row) => some (.attachment row)
  | .share (.createMindMapShare row) => some (.share row)
  | .share (.createMindMapShareAttachment row) => some (.shareAttachment row)
  | _ => none

/-- Run a write that goes through. -/
def Write.execute (store : Store) : Write → Except AppError Store
  | .share write => store.execute write
  | .attachment write => executeAttachment store write

/-- The vault is the user's. -/
def ownsMap (db : Database) (userId mapId : String) : Bool :=
  db.mindMaps.rows.any fun map => map.id == mapId && map.userId == userId

/-- The share is of one of the user's vaults, and not revoked. -/
def ownsShare (store : Store) (userId shareId : String) : Bool :=
  store.shares.rows.any fun share =>
    share.id == shareId && ownsMap store.db userId share.mapId && !share.revoked

/-- The bytes of a user that a write makes available. -/
def Write.adds (store : Store) (userId : String) : Write → Int
  | .attachment (.createMindMapAttachment row) =>
      if ownsMap store.db userId row.mapId && row.status == .available then
        row.sizeBytes
      else
        0
  | .attachment (.completeMindMapAttachmentUpload mapId attachmentId _) =>
      ((store.db.attachments.select fun row =>
        isKept mapId attachmentId row && ownsMap store.db userId row.mapId &&
          row.status != .available).map (·.sizeBytes)).sum
  | .share (.createMindMapShare row) =>
      if ownsMap store.db userId row.mapId && row.status == .available &&
          !row.revoked then
        row.sizeBytes
      else
        0
  | .share (.completeMindMapShareUpload mapId shareId _) =>
      ((store.shares.select fun row =>
        (row.mapId == mapId && row.id == shareId) && ownsMap store.db userId row.mapId &&
          row.status != .available && !row.revoked).map (·.sizeBytes)).sum
  | .share (.createMindMapShareAttachment row) =>
      if ownsShare store userId row.shareId && row.status == .available then
        row.sizeBytes
      else
        0
  | .share (.completeMindMapShareAttachmentUpload shareId attachmentId _) =>
      ((store.shareAttachments.select fun row =>
        (row.shareId == shareId && row.id == attachmentId && row.status != .deleted) &&
          ownsShare store userId row.shareId && row.status != .available).map (·.sizeBytes)).sum
  | _ => 0

section Weights

variable (store : Store) (userId : String)

/-- What an attachment counts for. -/
def attachmentWeight (db : Database) (attachment : StoredMindMapAttachment) : Int :=
  if ownsMap db userId attachment.mapId && attachment.status == .available then
    attachment.sizeBytes
  else
    0

/-- What a share counts for. -/
def shareWeight (db : Database) (share : StoredMindMapShare) : Int :=
  if ownsMap db userId share.mapId && share.status == .available && !share.revoked then
    share.sizeBytes
  else
    0

/-- What an attachment that is shared counts for. -/
def sharedWeight (attachment : StoredMindMapShareAttachment) : Int :=
  if ownsShare store userId attachment.shareId && attachment.status == .available then
    attachment.sizeBytes
  else
    0

theorem storedBytes_eq :
    store.storedBytes userId =
      store.db.attachments.total (attachmentWeight userId store.db) +
        store.shares.total (shareWeight userId store.db) +
          store.shareAttachments.total (sharedWeight store userId) := by
  unfold Store.storedBytes
  dsimp only
  rw [Table.sum_select, Table.sum_select, Table.sum_select]
  rfl

end Weights

/-- No row has a negative size. -/
structure NonNegative (store : Store) : Prop where
  attachments : ∀ attachment ∈ store.db.attachments.rows, 0 ≤ attachment.sizeBytes
  shares : ∀ share ∈ store.shares.rows, 0 ≤ share.sizeBytes
  shareAttachments : ∀ attachment ∈ store.shareAttachments.rows, 0 ≤ attachment.sizeBytes

/-- A write changes the usage by what it makes available, or takes away. -/
def Changes (store : Store) (userId : String) (adds : Int) (after : Store) : Prop :=
  after.storedBytes userId = store.storedBytes userId + adds ∨
    (adds = 0 ∧ after.storedBytes userId ≤ store.storedBytes userId)

section Attachments

variable {store : Store} {userId : String}

/-- Rows of attachments change, and nothing else does. -/
theorem storedBytes_attachments (attachments : Table StoredMindMapAttachment.id) :
    ({ store with db := { store.db with attachments := attachments } } :
        Store).storedBytes userId =
      store.storedBytes userId - store.db.attachments.total
        (attachmentWeight userId store.db) +
          attachments.total (attachmentWeight userId store.db) := by
  rw [storedBytes_eq, storedBytes_eq]
  change attachments.total (attachmentWeight userId store.db) +
      store.shares.total (shareWeight userId store.db) +
        store.shareAttachments.total (sharedWeight store userId) = _
  omega

/-- Completing an upload adds the size of what was not available yet. -/
theorem total_completed (userId mapId attachmentId : String) (update : UploadUpdate) :
    (completeMindMapAttachmentUpload store.db mapId attachmentId update).attachments.total
        (attachmentWeight userId store.db) =
      store.db.attachments.total (attachmentWeight userId store.db) +
        Write.adds store userId
          (.attachment (.completeMindMapAttachmentUpload mapId attachmentId update)) := by
  simp only [completeMindMapAttachmentUpload, Write.adds]
  rw [Table.total_update, Table.sum_select, ← Table.total_add]
  refine Table.total_congr fun attachment _ => ?_
  cases kept : isKept mapId attachmentId attachment <;>
    cases owned : ownsMap store.db userId attachment.mapId <;>
      cases status : attachment.status <;> simp [attachmentWeight, completed, owned, status]

theorem attachmentWeight_nonneg (db : Database) {attachment : StoredMindMapAttachment}
    (size : 0 ≤ attachment.sizeBytes) : 0 ≤ attachmentWeight userId db attachment := by
  unfold attachmentWeight
  split_ifs
  · exact size
  · exact le_rfl

/-- Deleting an attachment only takes away. -/
theorem total_markedDeleted (nonneg : NonNegative store) (userId mapId attachmentId : String) :
    (markMindMapAttachmentDeleted store.db mapId attachmentId).attachments.total
        (attachmentWeight userId store.db) ≤
      store.db.attachments.total (attachmentWeight userId store.db) := by
  simp only [markMindMapAttachmentDeleted]
  rw [Table.total_update]
  refine Table.total_le fun attachment present => ?_
  split_ifs
  · have counts : attachmentWeight userId store.db (markedDeleted attachment) = 0 := by
      simp [attachmentWeight, markedDeleted]
    rw [counts]
    exact attachmentWeight_nonneg store.db (nonneg.attachments attachment present)
  · exact le_rfl

end Attachments

section Shares

variable {store : Store} {userId : String}

/-- An update of shares that keeps to whom they belong leaves whose they are. -/
theorem ownsShare_updateShares (condition : StoredMindMapShare → Bool)
    (change : StoredMindMapShare → StoredMindMapShare)
    (keepsId : ∀ share, (change share).id = share.id)
    (keepsMap : ∀ share, (change share).mapId = share.mapId)
    (keepsRevoked : ∀ share, (change share).revoked = share.revoked) (shareId : String) :
    ownsShare { store with shares := store.shares.update condition change keepsId }
      userId shareId = ownsShare store userId shareId := by
  unfold ownsShare
  rw [Table.update, List.any_map]
  refine congrArg (fun test => store.shares.rows.any test) (funext fun share => ?_)
  simp only [Function.comp_apply]
  split_ifs
  · rw [keepsId, keepsMap, keepsRevoked]
  · rfl

/-- An update of shares that keeps to whom they belong changes only what they weigh
themselves. -/
theorem storedBytes_updateShares (condition : StoredMindMapShare → Bool)
    (change : StoredMindMapShare → StoredMindMapShare)
    (keepsId : ∀ share, (change share).id = share.id)
    (keepsMap : ∀ share, (change share).mapId = share.mapId)
    (keepsRevoked : ∀ share, (change share).revoked = share.revoked) :
    ({ store with shares := store.shares.update condition change keepsId } :
        Store).storedBytes userId =
      store.db.attachments.total (attachmentWeight userId store.db) +
        (store.shares.update condition change keepsId).total (shareWeight userId store.db) +
        store.shareAttachments.total (sharedWeight store userId) := by
  rw [storedBytes_eq]
  have sameWeight : ∀ attachment,
      sharedWeight { store with
        shares := store.shares.update condition change keepsId } userId attachment =
      sharedWeight store userId attachment := by
    intro attachment
    unfold sharedWeight
    rw [ownsShare_updateShares condition change keepsId keepsMap keepsRevoked]
  exact congrArg₂ _ rfl (Table.total_congr fun attachment _ => sameWeight attachment)

theorem shareWeight_nonneg (db : Database) {share : StoredMindMapShare}
    (size : 0 ≤ share.sizeBytes) : 0 ≤ shareWeight userId db share := by
  unfold shareWeight
  split_ifs
  · exact size
  · exact le_rfl

theorem sharedWeight_nonneg {attachment : StoredMindMapShareAttachment}
    (size : 0 ≤ attachment.sizeBytes) : 0 ≤ sharedWeight store userId attachment := by
  unfold sharedWeight
  split_ifs
  · exact size
  · exact le_rfl

/-- Revoking shares only takes away. -/
theorem storedBytes_revokeShares (nonneg : NonNegative store)
    (condition : StoredMindMapShare → Bool) (change : StoredMindMapShare → StoredMindMapShare)
    (keepsId : ∀ share, (change share).id = share.id)
    (revokes : ∀ share, (change share).revoked = true) :
    ({ store with shares := store.shares.update condition change keepsId } :
        Store).storedBytes userId ≤ store.storedBytes userId := by
  rw [storedBytes_eq, storedBytes_eq]
  refine add_le_add (add_le_add le_rfl ?_) ?_
  · rw [Table.total_update]
    refine Table.total_le fun share present => ?_
    split_ifs
    · have counts : shareWeight userId store.db (change share) = 0 := by
        simp [shareWeight, revokes]
      exact counts.trans_le (shareWeight_nonneg store.db (nonneg.shares share present))
    · exact le_rfl
  · refine Table.total_le fun attachment present => ?_
    have size := nonneg.shareAttachments attachment present
    have fewer : ownsShare { store with
        shares := store.shares.update condition change keepsId } userId
          attachment.shareId = true → ownsShare store userId attachment.shareId = true := by
      intro owned
      obtain ⟨row, present, holds⟩ := List.any_eq_true.mp owned
      obtain ⟨share, old, rfl⟩ := List.mem_map.mp present
      refine List.any_eq_true.mpr ⟨share, old, ?_⟩
      split_ifs at holds with changed
      · simp [revokes] at holds
      · exact holds
    cases owned : ownsShare { store with
        shares := store.shares.update condition change keepsId } userId attachment.shareId with
    | false =>
        have counts : sharedWeight { store with
            shares := store.shares.update condition change keepsId } userId
              attachment = 0 := by simp [sharedWeight, owned]
        exact counts.trans_le (sharedWeight_nonneg size)
    | true => simp only [sharedWeight, owned, fewer owned, le_refl]

/-- A new share adds its size if it is available, and what others share stays. -/
theorem storedBytes_insertShare (attached : store.AttachmentsOwned) {share : StoredMindMapShare}
    (new : share.id ∉ store.shares.rows.map StoredMindMapShare.id) :
    ({ store with shares := store.shares.insert share new } : Store).storedBytes userId =
      store.storedBytes userId + shareWeight userId store.db share := by
  have sameWeight : ∀ attachment ∈ store.shareAttachments.rows,
      sharedWeight { store with shares := store.shares.insert share new } userId
        attachment = sharedWeight store userId attachment := by
    intro attachment present
    obtain ⟨row, rowPresent, sameId⟩ := attached attachment present
    have differs : (share.id == attachment.shareId) = false := by
      rw [beq_eq_false_iff_ne]
      rintro same
      exact new (List.mem_map.mpr ⟨row, rowPresent, sameId.trans same.symm⟩)
    have sameOwner : ownsShare { store with
        shares := store.shares.insert share new } userId attachment.shareId =
          ownsShare store userId attachment.shareId := by
      simp [ownsShare, Table.insert, differs]
    unfold sharedWeight
    rw [sameOwner]
  rw [storedBytes_eq, storedBytes_eq]
  change store.db.attachments.total (attachmentWeight userId store.db) +
      (store.shares.insert share new).total (shareWeight userId store.db) +
        store.shareAttachments.total _ = _
  rw [Table.total_congr sameWeight, Table.total_insert]
  omega

/-- Completing the upload of a share adds its size if it was not available and is not
revoked. -/
theorem total_completedShares (userId mapId shareId : String) (update : UploadUpdate) :
    (store.shares.update (fun share => share.mapId == mapId && share.id == shareId)
        (StoredMindMapShare.completed update store.clock)
        (StoredMindMapShare.completed_id update store.clock)).total (shareWeight userId store.db) =
      store.shares.total (shareWeight userId store.db) +
        Write.adds store userId (.share (.completeMindMapShareUpload mapId shareId update)) := by
  simp only [Write.adds]
  rw [Table.total_update, Table.sum_select, ← Table.total_add]
  refine Table.total_congr fun share _ => ?_
  cases named : share.mapId == mapId && share.id == shareId <;>
    cases owned : ownsMap store.db userId share.mapId <;>
      cases status : share.status <;>
        cases revoked : share.revoked <;>
          simp [shareWeight, StoredMindMapShare.completed, owned, status, revoked]

/-- Completing the upload of what is shared adds its size if it was not available. -/
theorem total_completedShared (userId shareId attachmentId : String) (update : UploadUpdate) :
    (store.shareAttachments.update
        (fun attachment => attachment.shareId == shareId &&
          attachment.id == attachmentId && attachment.status != .deleted)
        (StoredMindMapShareAttachment.completed update)
        (StoredMindMapShareAttachment.completed_id update)).total (sharedWeight store userId) =
      store.shareAttachments.total (sharedWeight store userId) +
        Write.adds store userId
          (.share (.completeMindMapShareAttachmentUpload shareId attachmentId update)) := by
  simp only [Write.adds]
  rw [Table.total_update, Table.sum_select, ← Table.total_add]
  refine Table.total_congr fun attachment _ => ?_
  cases named : attachment.shareId == shareId && attachment.id == attachmentId <;>
    cases owned : ownsShare store userId attachment.shareId <;>
      cases status : attachment.status <;>
        simp [sharedWeight, StoredMindMapShareAttachment.completed, owned, status]

/-- Rows of what is shared change, and nothing else does. -/
theorem storedBytes_shareAttachments (shareAttachments : Table StoredMindMapShareAttachment.id) :
    ({ store with shareAttachments := shareAttachments } : Store).storedBytes userId =
      store.storedBytes userId - store.shareAttachments.total (sharedWeight store userId) +
        shareAttachments.total (sharedWeight store userId) := by
  rw [storedBytes_eq, storedBytes_eq]
  change store.db.attachments.total (attachmentWeight userId store.db) +
      store.shares.total (shareWeight userId store.db) +
        shareAttachments.total (sharedWeight store userId) = _
  omega

end Shares

/-- A copy that goes through stores one object. -/
theorem executeAttachment_copyObject {store after : Store} {sourceKey destinationKey : String}
    (executed : executeAttachment store (.copyObject sourceKey destinationKey) = .ok after) :
    ∃ body, after = { store with objects := store.objects.put destinationKey body } := by
  simp only [executeAttachment] at executed
  split_ifs at executed
  cases stored : store.objects sourceKey with
  | none => simp [stored] at executed
  | some body =>
      simp only [stored] at executed
      exact ⟨body, (Except.ok.inj executed).symm⟩

/-- Every write that goes through adds what it makes available, or takes away. -/
theorem changes_execute {store after : Store} {write : Write} (userId : String)
    (attached : store.AttachmentsOwned) (nonneg : NonNegative store)
    (executed : write.execute store = .ok after) :
    Changes store userId (write.adds store userId) after := by
  cases write with
  | attachment write =>
      cases write with
      | createMindMapAttachment row =>
          simp only [Write.execute, executeAttachment] at executed
          split_ifs at executed with new
          cases executed
          left
          rw [storedBytes_attachments, Table.total_insert]
          change _ = _ + attachmentWeight userId store.db row
          omega
      | completeMindMapAttachmentUpload mapId attachmentId update =>
          cases executed
          left
          refine (storedBytes_attachments (completeMindMapAttachmentUpload store.db mapId
            attachmentId update).attachments).trans ?_
          rw [total_completed]
          omega
      | markMindMapAttachmentDeleted mapId attachmentId =>
          cases executed
          refine .inr ⟨rfl, ?_⟩
          have less := total_markedDeleted nonneg userId mapId attachmentId
          refine (storedBytes_attachments (markMindMapAttachmentDeleted store.db mapId
            attachmentId).attachments).trans_le ?_
          omega
      | uploadBlob _ _ | deleteObject _ =>
          cases executed
          exact .inr ⟨rfl, le_rfl⟩
      | copyObject sourceKey destinationKey =>
          obtain ⟨body, rfl⟩ := executeAttachment_copyObject executed
          exact .inr ⟨rfl, le_rfl⟩
  | share write =>
      cases write with
      | createMindMapShare row =>
          simp only [Write.execute, Store.execute] at executed
          split_ifs at executed with new
          cases executed
          exact .inl (storedBytes_insertShare attached new)
      | completeMindMapShareUpload mapId shareId update =>
          cases executed
          left
          refine (storedBytes_updateShares _ (StoredMindMapShare.completed update store.clock)
            _ (fun _ => rfl) fun _ => rfl).trans ?_
          rw [total_completedShares, storedBytes_eq]
          omega
      | setMindMapShareRevoked mapId shareId =>
          cases executed
          exact .inr ⟨rfl, storedBytes_revokeShares nonneg _ _ _ fun _ => rfl⟩
      | markMindMapSharePurged shareId =>
          cases executed
          exact .inr ⟨rfl, storedBytes_revokeShares nonneg _ _ _ fun _ => rfl⟩
      | createMindMapShareAttachment row =>
          simp only [Write.execute, Store.execute] at executed
          split_ifs at executed with new
          cases executed
          left
          rw [storedBytes_shareAttachments, Table.total_insert]
          change _ = _ + sharedWeight store userId row
          omega
      | completeMindMapShareAttachmentUpload shareId attachmentId update =>
          cases executed
          left
          rw [storedBytes_shareAttachments, total_completedShared]
          omega
      | uploadBlob _ _ | deleteObject _ =>
          cases executed
          exact .inr ⟨rfl, le_rfl⟩

section Insert

variable {store : Store}

/-- Changes of rows that keep their sizes, or set them to zero, make none negative. -/
theorem forall_mem_update {Row : Type} {key : Row → String} {table : Table key} {size : Row → Int}
    (nonneg : ∀ row ∈ table.rows, 0 ≤ size row) (condition : Row → Bool) (change : Row → Row)
    (keepsKey : ∀ row, key (change row) = key row)
    (keeps : ∀ row, 0 ≤ size row → 0 ≤ size (change row)) :
    ∀ row ∈ (table.update condition change keepsKey).rows, 0 ≤ size row := by
  intro row present
  obtain ⟨old, oldPresent, rfl⟩ := List.mem_map.mp present
  split_ifs
  · exact keeps old (nonneg old oldPresent)
  · exact nonneg old oldPresent

theorem forall_mem_insert {Row : Type} {key : Row → String} {table : Table key} {size : Row → Int}
    (nonneg : ∀ row ∈ table.rows, 0 ≤ size row)
    {new : Row} (fresh : key new ∉ table.rows.map key) (sized : 0 ≤ size new) :
    ∀ row ∈ (table.insert new fresh).rows, 0 ≤ size row := by
  intro row present
  rcases (Table.mem_rows_insert fresh).mp present with old | rfl
  · exact nonneg row old
  · exact sized

/-- No write makes a size negative unless it inserts one. -/
theorem NonNegative.execute {after : Store} {write : Write} (nonneg : NonNegative store)
    (sized : ∀ row ∈ write.inserts, 0 ≤ row.sizeBytes)
    (executed : write.execute store = .ok after) : NonNegative after := by
  cases write with
  | attachment write =>
      cases write with
      | createMindMapAttachment row =>
          simp only [Write.execute, executeAttachment] at executed
          split_ifs at executed with new
          cases executed
          exact ⟨forall_mem_insert nonneg.attachments new (sized _ rfl), nonneg.shares,
            nonneg.shareAttachments⟩
      | completeMindMapAttachmentUpload mapId attachmentId update =>
          cases executed
          exact ⟨forall_mem_update nonneg.attachments _ _ (completed_id update)
            fun _ => id, nonneg.shares, nonneg.shareAttachments⟩
      | markMindMapAttachmentDeleted mapId attachmentId =>
          cases executed
          exact ⟨forall_mem_update nonneg.attachments _ _ markedDeleted_id fun _ => id,
            nonneg.shares, nonneg.shareAttachments⟩
      | uploadBlob _ _ | deleteObject _ =>
          cases executed
          exact ⟨nonneg.attachments, nonneg.shares, nonneg.shareAttachments⟩
      | copyObject sourceKey destinationKey =>
          obtain ⟨body, rfl⟩ := executeAttachment_copyObject executed
          exact ⟨nonneg.attachments, nonneg.shares, nonneg.shareAttachments⟩
  | share write =>
      cases write with
      | createMindMapShare row =>
          simp only [Write.execute, Store.execute] at executed
          split_ifs at executed with new
          cases executed
          exact ⟨nonneg.attachments, forall_mem_insert nonneg.shares new (sized _ rfl),
            nonneg.shareAttachments⟩
      | completeMindMapShareUpload mapId shareId update =>
          cases executed
          exact ⟨nonneg.attachments, forall_mem_update nonneg.shares _ _
            (StoredMindMapShare.completed_id update store.clock) fun _ => id,
            nonneg.shareAttachments⟩
      | setMindMapShareRevoked mapId shareId =>
          cases executed
          exact ⟨nonneg.attachments, forall_mem_update nonneg.shares _ _
            (StoredMindMapShare.withdrawn_id store.clock) fun _ => id,
            nonneg.shareAttachments⟩
      | markMindMapSharePurged shareId =>
          cases executed
          exact ⟨nonneg.attachments, forall_mem_update nonneg.shares _ _
            (StoredMindMapShare.purged_id store.clock) fun _ _ => le_rfl,
            nonneg.shareAttachments⟩
      | createMindMapShareAttachment row =>
          simp only [Write.execute, Store.execute] at executed
          split_ifs at executed with new
          cases executed
          exact ⟨nonneg.attachments, nonneg.shares,
            forall_mem_insert nonneg.shareAttachments new (sized _ rfl)⟩
      | completeMindMapShareAttachmentUpload shareId attachmentId update =>
          cases executed
          exact ⟨nonneg.attachments, nonneg.shares,
            forall_mem_update nonneg.shareAttachments _ _
              (StoredMindMapShareAttachment.completed_id update) fun _ => id⟩
      | uploadBlob _ _ | deleteObject _ =>
          cases executed
          exact ⟨nonneg.attachments, nonneg.shares, nonneg.shareAttachments⟩

/-- Writes leave the settings, and what is shared keeps its share. -/
theorem Write.execute_frame {after : Store} {write : Write}
    (attached : store.AttachmentsOwned) (executed : write.execute store = .ok after) :
    after.settings = store.settings ∧ after.AttachmentsOwned := by
  cases write with
  | attachment write =>
      cases write with
      | createMindMapAttachment row =>
          simp only [Write.execute, executeAttachment] at executed
          split_ifs at executed
          cases executed
          exact ⟨rfl, attached⟩
      | copyObject sourceKey destinationKey =>
          obtain ⟨body, rfl⟩ := executeAttachment_copyObject executed
          exact ⟨rfl, attached⟩
      | completeMindMapAttachmentUpload _ _ _ | markMindMapAttachmentDeleted _ _
      | uploadBlob _ _ | deleteObject _ =>
          cases executed
          exact ⟨rfl, attached⟩
  | share write =>
      refine ⟨?_, attached.execute executed⟩
      cases write with
      | createMindMapShare row | createMindMapShareAttachment row =>
          simp only [Write.execute, Store.execute] at executed
          split_ifs at executed
          cases executed
          rfl
      | completeMindMapShareUpload _ _ _ | setMindMapShareRevoked _ _
      | markMindMapSharePurged _ | completeMindMapShareAttachmentUpload _ _ _
      | uploadBlob _ _ | deleteObject _ =>
          cases executed
          rfl

end Insert

end Storage
end MindMapVault
