import MindMapVault.Storage.Quota
import Mathlib.Algebra.Order.Group.Int
import Mathlib.Algebra.Order.Monoid.Unbundled.MinMax

/-!
# Sizes near the end of 64 bits

The size of an upload comes from the client and is bounded only below. The check adds
it to the usage in 64 bits, where a sum that does not fit wraps around and passes, and
what was admitted counts later in a sum that the database refuses to cast once it does
not fit either. Uploads that are announced and not completed are in no usage yet, so
the sum can get there through them as well.
-/

namespace MindMapVault
namespace Storage

open Accounts (Database StoredMindMapAttachment InitAttachmentRequest)
open Shares (Store StoredMindMapShare StoredMindMapShareAttachment UploadUpdate
  InstanceSettings)
open Vault (DateTime)

/-- The writes that complete an upload. -/
inductive Completion : Write → Prop
  | attachment (mapId attachmentId : String) (update : UploadUpdate) :
      Completion (.attachment (.completeMindMapAttachmentUpload mapId attachmentId update))
  | share (mapId shareId : String) (update : UploadUpdate) :
      Completion (.share (.completeMindMapShareUpload mapId shareId update))
  | shareAttachment (shareId attachmentId : String) (update : UploadUpdate) :
      Completion (.share (.completeMindMapShareAttachmentUpload shareId attachmentId update))

/-- An upload is completed. -/
def Completes (store after : Store) : Prop :=
  ∃ write, Completion write ∧ write.execute store = .ok after

section Pledges

variable (store : Store) (userId : String)

/-- What an attachment counts for once it is uploaded. -/
def attachmentPledge (db : Database) (attachment : StoredMindMapAttachment) : Int :=
  if ownsMap db userId attachment.mapId && attachment.status != .deleted then
    attachment.sizeBytes
  else
    0

/-- What a share counts for once it is uploaded. -/
def sharePledge (db : Database) (share : StoredMindMapShare) : Int :=
  if ownsMap db userId share.mapId && !share.revoked then share.sizeBytes else 0

/-- What an attachment that is shared counts for once it is uploaded. -/
def sharedPledge (attachment : StoredMindMapShareAttachment) : Int :=
  if ownsShare store userId attachment.shareId && attachment.status != .deleted then
    attachment.sizeBytes
  else
    0

/-- The bytes of a user once every upload that is announced is completed. -/
def pledgedBytes : Int :=
  store.db.attachments.total (attachmentPledge userId store.db) +
    store.shares.total (sharePledge userId store.db) +
      store.shareAttachments.total (sharedPledge store userId)

end Pledges

/-- An upload is admitted as the limits say, and no sum overflows: neither the one the
check takes, nor, if the upload is admitted, any the database takes once its row is
inserted and uploads are completed. -/
structure ExactlyAdmits
    (store : Store) (userId : String) (row : StoredMindMapAttachment) : Prop where
  admitted : store.enforceStorageLimits userId row.sizeBytes = .ok () ↔
    (∀ limit ∈ store.settings.attachmentLimit, row.sizeBytes ≤ limit) ∧
      ∀ limit ∈ store.settings.storageLimit, store.storedBytes userId + row.sizeBytes ≤ limit
  checked : (∀ limit ∈ store.settings.attachmentLimit, row.sizeBytes ≤ limit) →
    store.settings.storageLimit.isSome = true → store.storedBytes userId + row.sizeBytes < 2 ^ 63
  summed : store.enforceStorageLimits userId row.sizeBytes = .ok () →
    ∀ inserted, executeAttachment store (.createMindMapAttachment row) = .ok inserted →
      ∀ after, Relation.ReflTransGen Completes inserted after →
        ∃ total, after.sumUserStoredBytes userId = .ok total

/-- The sizes leave room: the limit on one attachment refuses the upload, or its size
and the usage are within 64 bits, and then the limit on the storage refuses it or what
is announced stays within 64 bits with it. -/
def LeavesRoom (store : Store) (userId : String) (size : Int) : Prop :=
  (∃ limit ∈ store.settings.attachmentLimit, limit < size) ∨
    store.storedBytes userId + size < 2 ^ 63 ∧
      ((∃ limit ∈ store.settings.storageLimit,
          limit < store.storedBytes userId + size) ∨
        pledgedBytes store userId + size < 2 ^ 63)

section Weights

variable {store : Store} {userId : String}

theorem attachmentWeight_le_pledge (db : Database) {attachment : StoredMindMapAttachment}
    (size : 0 ≤ attachment.sizeBytes) :
    attachmentWeight userId db attachment ≤ attachmentPledge userId db attachment := by
  unfold attachmentWeight attachmentPledge
  cases ownsMap db userId attachment.mapId <;> cases attachment.status <;> simp [size]

theorem shareWeight_le_pledge (db : Database) {share : StoredMindMapShare}
    (size : 0 ≤ share.sizeBytes) :
    shareWeight userId db share ≤ sharePledge userId db share := by
  unfold shareWeight sharePledge
  cases ownsMap db userId share.mapId <;> cases share.status <;> cases share.revoked <;> simp [size]

theorem sharedWeight_le_pledge {attachment : StoredMindMapShareAttachment}
    (size : 0 ≤ attachment.sizeBytes) :
    sharedWeight store userId attachment ≤ sharedPledge store userId attachment := by
  unfold sharedWeight sharedPledge
  cases ownsShare store userId attachment.shareId <;> cases attachment.status <;> simp [size]

/-- What is available is part of what is announced. -/
theorem storedBytes_le_pledgedBytes (userId : String) (nonneg : NonNegative store) :
    store.storedBytes userId ≤ pledgedBytes store userId := by
  rw [storedBytes_eq]
  exact add_le_add (add_le_add
    (Table.total_le fun row present =>
      attachmentWeight_le_pledge store.db (nonneg.attachments row present))
    (Table.total_le fun row present =>
      shareWeight_le_pledge store.db (nonneg.shares row present)))
    (Table.total_le fun row present =>
      sharedWeight_le_pledge (nonneg.shareAttachments row present))

/-- The usage is not negative. -/
theorem storedBytes_nonneg (userId : String) (nonneg : NonNegative store) :
    0 ≤ store.storedBytes userId := by
  rw [storedBytes_eq]
  exact add_nonneg (add_nonneg
    (Table.total_nonneg fun row present =>
      attachmentWeight_nonneg store.db (nonneg.attachments row present))
    (Table.total_nonneg fun row present =>
      shareWeight_nonneg store.db (nonneg.shares row present)))
    (Table.total_nonneg fun row present =>
      sharedWeight_nonneg (nonneg.shareAttachments row present))

/-- An attachment that is announced counts for its size. -/
theorem pledgedBytes_insertAttachment {row : StoredMindMapAttachment}
    (new : row.id ∉ store.db.attachments.rows.map StoredMindMapAttachment.id)
    (owned : ownsMap store.db userId row.mapId = true) (kept : row.status ≠ .deleted) :
    pledgedBytes { store with
        db := { store.db with attachments := store.db.attachments.insert row new } } userId =
      pledgedBytes store userId + row.sizeBytes := by
  change (store.db.attachments.insert row new).total (attachmentPledge userId store.db) +
      store.shares.total (sharePledge userId store.db) +
        store.shareAttachments.total (sharedPledge store userId) = _
  have counts : attachmentPledge userId store.db row = row.sizeBytes := by
    simp [attachmentPledge, owned, kept]
  rw [Table.total_insert, counts, pledgedBytes]
  omega

end Weights

section Completions

variable {store after : Store} {userId : String}

/-- Completing an upload keeps what is announced. -/
theorem Completes.pledgedBytes_eq (userId : String) (completes : Completes store after) :
    pledgedBytes after userId = pledgedBytes store userId := by
  obtain ⟨write, completion, executed⟩ := completes
  cases completion with
  | attachment mapId attachmentId update =>
      cases executed
      change (completeMindMapAttachmentUpload store.db mapId attachmentId
          update).attachments.total (attachmentPledge userId store.db) +
        store.shares.total (sharePledge userId store.db) +
          store.shareAttachments.total (sharedPledge store userId) = _
      simp only [completeMindMapAttachmentUpload]
      rw [Table.total_update, pledgedBytes]
      refine congrArg (· + _ + _) (Table.total_congr fun row _ => ?_)
      cases kept : isKept mapId attachmentId row with
      | false => rfl
      | true =>
          cases status : row.status <;> simp_all [isKept, attachmentPledge, completed]
  | share mapId shareId update =>
      cases executed
      have sameShared : sharedPledge { store with
          shares := store.shares.update
            (fun share => share.mapId == mapId && share.id == shareId)
            (StoredMindMapShare.completed update store.clock)
            (StoredMindMapShare.completed_id update store.clock) } userId =
          sharedPledge store userId := by
        funext row
        unfold sharedPledge
        rw [ownsShare_updateShares _ (StoredMindMapShare.completed update store.clock) _
          (fun _ => rfl) fun _ => rfl]
      refine congrArg₂ (· + ·) (congrArg (_ + ·) ?_)
        (congrArg store.shareAttachments.total sameShared)
      rw [Table.total_update]
      refine Table.total_congr fun row _ => ?_
      split_ifs
      · rfl
      · rfl
  | shareAttachment shareId attachmentId update =>
      cases executed
      refine congrArg (_ + _ + ·) ?_
      rw [Table.total_update]
      refine Table.total_congr fun row _ => ?_
      cases named : row.shareId == shareId && row.id == attachmentId <;>
        cases status : row.status <;>
          simp [sharedPledge, StoredMindMapShareAttachment.completed, status, ownsShare]

/-- Completing an upload keeps what every store has. -/
theorem Completes.sound (completes : Completes store after) (sound : Sound store) :
    Sound after := by
  obtain ⟨write, completion, executed⟩ := completes
  refine ⟨sound.1.execute ?_ executed, (Write.execute_frame sound.2 executed).2⟩
  cases completion <;> exact fun _ sized => nomatch sized

theorem sound_of_completes (userId : String) (sound : Sound store)
    (completions : Relation.ReflTransGen Completes store after) :
    Sound after ∧ pledgedBytes after userId = pledgedBytes store userId := by
  induction completions with
  | refl => exact ⟨sound, rfl⟩
  | tail _ last ih =>
      exact ⟨last.sound ih.1, (last.pledgedBytes_eq userId).trans ih.2⟩

/-- Where a row does not count for its size yet, completing it adds something. -/
theorem exists_completion (nonneg : NonNegative store)
    (short : store.storedBytes userId < pledgedBytes store userId) :
    ∃ write after, Completion write ∧ write.execute store = .ok after ∧
      0 < write.adds store userId := by
  rw [storedBytes_eq, pledgedBytes] at short
  rcases lt_or_lt_of_add_lt_add short with less | less
  · rcases lt_or_lt_of_add_lt_add less with less | less
    · obtain ⟨row, present, less⟩ := Table.exists_lt_of_total_lt less
      refine ⟨_, _, .attachment row.mapId row.id ⟨"", none⟩, rfl,
        Table.sum_select_pos nonneg.attachments present ?_ ?_⟩
      all_goals
        revert less
        unfold attachmentWeight attachmentPledge
        cases ownsMap store.db userId row.mapId <;> cases status : row.status <;>
          simp [isKept, status]
    · obtain ⟨row, present, less⟩ := Table.exists_lt_of_total_lt less
      refine ⟨_, _, .share row.mapId row.id ⟨"", none⟩, rfl,
        Table.sum_select_pos nonneg.shares present ?_ ?_⟩
      all_goals
        revert less
        unfold shareWeight sharePledge
        cases ownsMap store.db userId row.mapId <;> cases row.status <;> cases row.revoked <;> simp
  · obtain ⟨row, present, less⟩ := Table.exists_lt_of_total_lt less
    refine ⟨_, _, .shareAttachment row.shareId row.id ⟨"", none⟩, rfl,
      Table.sum_select_pos nonneg.shareAttachments present ?_ ?_⟩
    all_goals
      revert less
      unfold sharedWeight sharedPledge
      cases ownsShare store userId row.shareId <;> cases row.status <;> simp

/-- Uploads can be completed until everything announced counts. -/
theorem exists_completed (userId : String) (sound : Sound store) :
    ∃ after, Relation.ReflTransGen Completes store after ∧
      after.storedBytes userId = pledgedBytes store userId := by
  -- Every completion that adds something brings the usage nearer to what is announced.
  induction missing : (pledgedBytes store userId - store.storedBytes userId).toNat
    using Nat.strong_induction_on generalizing store with
  | h missing ih =>
      rcases (storedBytes_le_pledgedBytes userId sound.1).eq_or_lt with
        reached | short
      · exact ⟨store, .refl, reached⟩
      · obtain ⟨write, next, completion, executed, adds⟩ := exists_completion sound.1 short
        have completes : Completes store next := ⟨write, completion, executed⟩
        have grown : next.storedBytes userId =
            store.storedBytes userId + write.adds store userId := by
          rcases changes_execute userId sound.2 sound.1 executed with grown | ⟨nothing, -⟩
          · exact grown
          · omega
        have kept := completes.pledgedBytes_eq userId
        obtain ⟨after, completions, settled⟩ := ih _ (by omega) (completes.sound sound) rfl
        exact ⟨after, .head completes completions, settled.trans kept⟩

end Completions

section Checks

variable {store : Store} {userId : String} {size : Int}

/-- A total is answered exactly if it is within 64 bits. -/
theorem exists_sumUserStoredBytes_iff (userId : String) (nonneg : NonNegative store) :
    (∃ total, store.sumUserStoredBytes userId = .ok total) ↔ store.storedBytes userId < 2 ^ 63 := by
  have positive := storedBytes_nonneg userId nonneg
  unfold Store.sumUserStoredBytes
  dsimp only
  split_ifs with within
  · exact iff_of_true ⟨_, rfl⟩ within.2
  · refine iff_of_false nofun fun below => within ⟨by omega, below⟩

/-- Where the usage is within 64 bits, the check compares what the addition gives. -/
theorem enforceStorageLimits_eq_ok_iff (userId : String) (size : Int) (nonneg : NonNegative store)
    (within : store.storedBytes userId < 2 ^ 63) :
    store.enforceStorageLimits userId size = .ok () ↔
      (∀ limit ∈ store.settings.attachmentLimit, size ≤ limit) ∧
        ∀ limit ∈ store.settings.storageLimit,
          (store.storedBytes userId + size).bmod (2 ^ 64) ≤ limit := by
  have summed : store.sumUserStoredBytes userId = .ok (store.storedBytes userId) := by
    have positive := storedBytes_nonneg userId nonneg
    unfold Store.sumUserStoredBytes
    exact if_pos ⟨by omega, within⟩
  have passed : (pure () : Except AppError Unit) = .ok () := rfl
  unfold Store.enforceStorageLimits
  rw [summed]
  by_cases larger : ∃ limit ∈ store.settings.attachmentLimit, limit < size
  · obtain ⟨limit, limited, less⟩ := larger
    refine iff_of_false ?_ fun both => absurd less (not_lt.mpr (both.1 limit limited))
    rw [Option.mem_def.mp limited, Option.filter_some, if_pos (decide_eq_true less)]
    exact nofun
  · have fits : store.settings.attachmentLimit.filter (· < size) = none := by
      rw [Option.filter_eq_none_iff]
      intro limit limited less
      exact larger ⟨limit, limited, of_decide_eq_true less⟩
    push Not at larger
    rw [fits, and_iff_right larger]
    cases store.settings.storageLimit with
    | none => exact iff_of_true passed (by simp)
    | some limit =>
        by_cases beyond : limit < (store.storedBytes userId + size).bmod (2 ^ 64)
        · refine iff_of_false ?_ (by simpa using beyond)
          simp only [bind, Except.bind, if_pos beyond]
          exact nofun
        · refine iff_of_true ?_ (by simpa using beyond)
          simp only [bind, Except.bind, if_neg beyond]
          exact passed

/-- Once the row of an upload is inserted, no completions take the usage past 64 bits
exactly if what is announced stays within them. -/
theorem forall_completed_iff (userId : String) (sound : Sound store) :
    (∀ after, Relation.ReflTransGen Completes store after →
        ∃ total, after.sumUserStoredBytes userId = .ok total) ↔
      pledgedBytes store userId < 2 ^ 63 := by
  constructor
  · intro always
    obtain ⟨after, completions, settled⟩ := exists_completed userId sound
    have sum := always after completions
    have soundAfter := (sound_of_completes userId sound completions).1
    rw [exists_sumUserStoredBytes_iff userId soundAfter.1] at sum
    omega
  · intro within after completions
    obtain ⟨soundAfter, same⟩ := sound_of_completes userId sound completions
    have below := storedBytes_le_pledgedBytes userId soundAfter.1
    rw [exists_sumUserStoredBytes_iff userId soundAfter.1]
    omega

/-- An accepted upload is admitted as the limits say, without an overflow, exactly if
the sizes leave room. -/
theorem exactlyAdmits_iff_leavesRoom {mapId attachmentId : String} {body : InitAttachmentRequest}
    {map : Vault.StoredMindMap} (sound : Sound store) (used : store.storedBytes userId < 2 ^ 63)
    (owned : Accounts.findOwned store.db mapId userId = .ok map)
    (accepted : Accounts.validateAttachmentInit body = .ok ()) (declared : body.size < 2 ^ 63)
    (new : attachmentId ∉ store.db.attachments.rows.map StoredMindMapAttachment.id) :
    ExactlyAdmits store userId
        (Accounts.initAttachment attachmentId mapId userId body store.clock) ↔
      LeavesRoom store userId body.size := by
  obtain ⟨present, rfl, belongs⟩ := Accounts.findOwned_eq_ok.mp owned
  have ownsIt : ownsMap store.db userId map.id = true :=
    List.any_eq_true.mpr ⟨map, present, by simp [belongs]⟩
  have size := validateAttachmentInit_size accepted
  have positive := storedBytes_nonneg userId sound.1
  generalize attachment : Accounts.initAttachment attachmentId map.id userId body store.clock = row
  have sized : row.sizeBytes = body.size := by rw [← attachment]; rfl
  have onMap : row.mapId = map.id := by rw [← attachment]; rfl
  have pending : row.status = .pending := by rw [← attachment]; rfl
  have named : row.id = attachmentId := by rw [← attachment]; rfl
  have fresh : row.id ∉ store.db.attachments.rows.map StoredMindMapAttachment.id := named ▸ new
  have vault : (store.db.mindMaps.rows.any fun other => other.id == row.mapId) = true :=
    List.any_eq_true.mpr ⟨map, present, by simp [onMap]⟩
  have inserts : executeAttachment store (.createMindMapAttachment row) = .ok
      { store with
        db := { store.db with attachments := store.db.attachments.insert row fresh } } := by
    simp only [executeAttachment]
    rw [dif_pos fresh, if_pos vault]
  have soundInserted : Sound { store with
      db := { store.db with attachments := store.db.attachments.insert row fresh } } :=
    ⟨⟨forall_mem_insert sound.1.attachments fresh (sized ▸ size), sound.1.shares,
      sound.1.shareAttachments⟩, sound.2⟩
  have later : (∀ inserted,
      executeAttachment store (.createMindMapAttachment row) = .ok inserted →
        ∀ after, Relation.ReflTransGen Completes inserted after →
          ∃ total, after.sumUserStoredBytes userId = .ok total) ↔
      pledgedBytes store userId + body.size < 2 ^ 63 := by
    rw [inserts, ← sized, ← pledgedBytes_insertAttachment fresh (onMap ▸ ownsIt)
      (by rw [pending]; decide), ← forall_completed_iff userId soundInserted]
    exact ⟨fun always => always _ rfl, fun always inserted same =>
      Except.ok.inj same ▸ always⟩
  have check := enforceStorageLimits_eq_ok_iff userId body.size sound.1 used
  by_cases larger : ∃ limit ∈ store.settings.attachmentLimit, limit < body.size
  · obtain ⟨limit, limited, less⟩ := larger
    have refused : ¬ ∀ limit ∈ store.settings.attachmentLimit, body.size ≤ limit :=
      fun within => absurd less (not_lt.mpr (within limit limited))
    refine iff_of_true ⟨?_, ?_, ?_⟩ (.inl ⟨limit, limited, less⟩)
    · rw [sized, check]
      exact iff_of_false (fun both => refused both.1) fun both => refused both.1
    · exact fun within => absurd (sized ▸ within) refused
    · intro admitted
      rw [sized, check] at admitted
      exact absurd admitted.1 refused
  · have room : LeavesRoom store userId body.size ↔
        store.storedBytes userId + body.size < 2 ^ 63 ∧
          ((∃ limit ∈ store.settings.storageLimit,
              limit < store.storedBytes userId + body.size) ∨
            pledgedBytes store userId + body.size < 2 ^ 63) := or_iff_right larger
    push Not at larger
    rw [room]
    have announced := storedBytes_le_pledgedBytes userId sound.1
    by_cases within : store.storedBytes userId + body.size < 2 ^ 63
    · rw [Int.bmod_eq_of_le (by omega) (by omega), and_iff_right larger] at check
      rw [and_iff_right within]
      constructor
      · intro exact
        by_cases beyond : ∃ limit ∈ store.settings.storageLimit,
            limit < store.storedBytes userId + body.size
        · exact .inl beyond
        · push Not at beyond
          exact .inr (later.mp (exact.summed (sized.symm ▸ check.mpr beyond)))
      · intro room
        refine ⟨?_, fun _ _ => sized.symm ▸ within, ?_⟩
        · rw [sized, check, and_iff_right larger]
        · intro admitted
          rw [sized, check] at admitted
          refine later.mpr (room.resolve_left ?_)
          rintro ⟨limit, limited, beyond⟩
          exact absurd beyond (not_lt.mpr (admitted limit limited))
    · refine iff_of_false (fun exact => ?_) fun room => within room.1
      cases unlimited : store.settings.storageLimit with
      | some limit =>
          exact within (sized ▸ exact.checked (sized.symm ▸ larger) (by rw [unlimited]; rfl))
      | none =>
          rw [unlimited] at check
          have sums := later.mp (exact.summed (sized.symm ▸ check.mpr ⟨larger, by simp⟩))
          omega

end Checks

/-- The user of one vault, with an attachment of one byte. -/
def oneByte (settings : InstanceSettings) : Store :=
  let row := Accounts.initAttachment "a1" "m1" "u1" (uploadOf 1) 0
  unused Shares.oneVault (fun _ => none) settings 0 |> fun store =>
    { store with
      db := { store.db with
        attachments := .insert .empty (completed ⟨"", none⟩ row) (by simp [Table.empty]) } }

theorem oneByte_sound (settings : InstanceSettings) : Sound (oneByte settings) := by
  refine ⟨⟨?_, ?_, ?_⟩, ?_⟩
  · simp [oneByte, Table.empty, Table.insert, completed, Accounts.initAttachment, uploadOf]
  all_goals simp [oneByte, unused, Store.unshared, Table.empty, Store.AttachmentsOwned]

/-- Ten more bytes find room where the limit is a hundred. -/
theorem exactlyAdmits_tenBytes :
    ExactlyAdmits (oneByte ⟨100, 0⟩) "u1"
        (Accounts.initAttachment "a2" "m1" "u1" (uploadOf 10) 0) ↔
      LeavesRoom (oneByte ⟨100, 0⟩) "u1" 10 :=
  exactlyAdmits_iff_leavesRoom (oneByte_sound _) (by decide) rfl
    (by decide : Accounts.validateAttachmentInit (uploadOf 10) = .ok ()) (by decide) (by decide)

/-- The largest size of 64 bits wraps around beside a byte, and is admitted under a
limit of a hundred. -/
theorem wrapping_size_admitted :
    ¬ ∀ (store : Store) (userId mapId attachmentId : String)
        (body : InitAttachmentRequest) (map : Vault.StoredMindMap), Sound store →
      store.storedBytes userId < 2 ^ 63 →
        Accounts.findOwned store.db mapId userId = .ok map →
          Accounts.validateAttachmentInit body = .ok () → body.size < 2 ^ 63 →
            attachmentId ∉ store.db.attachments.rows.map StoredMindMapAttachment.id →
              ExactlyAdmits store userId
                (Accounts.initAttachment attachmentId mapId userId body store.clock) := by
  intro always
  have admits := (always (oneByte ⟨100, 0⟩) "u1" "m1" "a2" (uploadOf (2 ^ 63 - 1)) _
    (oneByte_sound _) (by decide) rfl (by decide) (by decide) (by decide)).admitted
  have admitted : (oneByte ⟨100, 0⟩).enforceStorageLimits "u1" (2 ^ 63 - 1) = .ok () := by
    decide
  exact absurd ((admits.mp admitted).2 100 rfl) (by decide)

end Storage
end MindMapVault
