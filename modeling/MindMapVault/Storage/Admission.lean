import MindMapVault.Storage.Overflow
import MindMapVault.Storage.Requesters

/-!
# The storage limit

The check of the limit adds the size of one upload to what the account has available, and sees
neither the rows of uploads that are not completed nor the requests that have passed the check
and not inserted their row. The limit holds in every state of a run if every check that admits
a size would have admitted it with these counted as well, and its sum stays within 64 bits.
Otherwise any number of uploads may each have found room and not find it together.
-/

namespace MindMapVault
namespace Storage

open Remote Threads Transition Result
open Accounts (Database StoredMindMapAttachment)
open Shares (Store ShareFlight ShareAct InstanceSettings StoredMindMapShare)
open Vault (DateTime Objects)

/-- The bytes an account has available are within the limit, if there is one. -/
def WithinQuota (store : Store) (userId : String) : Prop :=
  ∀ limit ∈ store.settings.storageLimit, store.storedBytes userId ≤ limit

/-- The user against whose limit what a request announces is still to be checked. -/
def checkedFor : StorageFlight → Option String
  | .inl (.creating userId _) | .inl (.attaching userId _ _ _) | .inr (.initializing userId _)
  | .inr (.admittingCopy userId _ _) => some userId
  | _ => none

namespace Announcement

/-- What a row counts for once it is available. -/
def pledge (store : Store) (userId : String) : Announcement → Int
  | .attachment row => attachmentPledge userId store.db row
  | .share row => sharePledge userId store.db row
  | .shareAttachment row => sharedPledge store userId row

/-- The row is for a vault of the user, or for a share of one. -/
def IsOf (store : Store) (userId : String) : Announcement → Prop
  | .attachment row => ownsMap store.db userId row.mapId = true
  | .share row => ownsMap store.db userId row.mapId = true
  | .shareAttachment row =>
      OwnsShare store (fun vault => ownsMap store.db userId vault = true) row.shareId

end Announcement

/-- The bytes of a user that a request has been admitted with and not announced in a row yet. -/
def admittedBytes (store : Store) (userId : String) (flight : StorageFlight) : Nat :=
  match checkedFor flight, announcement flight with
  | none, some row => (row.pledge store userId).toNat
  | _, _ => 0

/-- The bytes of a user once everything that has been admitted is available. -/
def outstandingBytes (pool : StoragePool) (userId : String) : Int :=
  pledgedBytes pool.shared userId + weight (admittedBytes pool.shared userId) pool.threads

/-- What a check of the user's limit lets pass finds room beside everything that has been
admitted, and the sum it takes is within 64 bits. -/
def ChecksCover (userId : String) (pool : StoragePool) : StorageMove → Prop
  | .advance thread .read =>
      ∀ flight ∈ pool.threads[thread]?, checkedFor flight = some userId →
        ∀ row ∈ announcement flight, ∀ limit ∈ pool.shared.settings.storageLimit,
          pool.shared.storedBytes userId + row.sizeBytes < 2 ^ 63 ∧
            (pool.shared.storedBytes userId + row.sizeBytes ≤ limit →
              outstandingBytes pool userId + row.sizeBytes ≤ limit)
  | _ => True

/-- What a request announces is for a vault of its user. -/
def Placed (store : Store) (flight : StorageFlight) : Prop :=
  ∀ row ∈ announcement flight, ∃ owner, row.IsOf store owner ∧
    ∀ userId ∈ checkedFor flight, userId = owner

section Decidable

instance (store : Store) (userId : String) : Decidable (WithinQuota store userId) :=
  inferInstanceAs (Decidable (∀ limit ∈ store.settings.storageLimit, _))

instance (userId : String) (pool : StoragePool) :
    (move : StorageMove) → Decidable (ChecksCover userId pool move)
  | .advance thread .read =>
      inferInstanceAs (Decidable (∀ flight ∈ pool.threads[thread]?, _ = _ →
        ∀ row ∈ announcement flight, ∀ limit ∈ pool.shared.settings.storageLimit, _ ∧ _))
  | .outside _ | .spawn _ | .advance _ (.readFails _) | .advance _ (.write _ _) => .isTrue trivial

end Decidable

section Pledges

variable {store after : Store} {userId owner : String} {row : Announcement}

theorem Announcement.pledge_le (store : Store) (userId : String) (nonneg : 0 ≤ row.sizeBytes) :
    row.pledge store userId ≤ row.sizeBytes := by
  cases row with
  | attachment row =>
      change attachmentPledge userId store.db row ≤ row.sizeBytes
      unfold attachmentPledge
      split_ifs
      · exact le_rfl
      · exact nonneg
  | share row =>
      change sharePledge userId store.db row ≤ row.sizeBytes
      unfold sharePledge
      split_ifs
      · exact le_rfl
      · exact nonneg
  | shareAttachment row =>
      change sharedPledge store userId row ≤ row.sizeBytes
      unfold sharedPledge
      split_ifs
      · exact le_rfl
      · exact nonneg

/-- A vault is of one user. -/
theorem ownsMap_unique {db : Database} {mapId : String} (owns : ownsMap db owner mapId = true)
    (differs : owner ≠ userId) : ownsMap db userId mapId = false := by
  obtain ⟨map, present, same, belongs⟩ := ownsMap_eq_true.mp owns
  rw [← Bool.not_eq_true, ownsMap_eq_true]
  rintro ⟨other, otherPresent, otherSame, otherBelongs⟩
  have one := db.mindMaps.eq_of_key_eq present otherPresent (same.trans otherSame.symm)
  exact differs (belongs.symm.trans (one ▸ otherBelongs))

/-- What is announced for the vault of one user counts for no other. -/
theorem Announcement.IsOf.pledge_eq_zero (isOf : row.IsOf store owner)
    (differs : owner ≠ userId) : row.pledge store userId = 0 := by
  cases row with
  | attachment row =>
      have other := ownsMap_unique isOf differs
      simp [pledge, attachmentPledge, other]
  | share row =>
      have other := ownsMap_unique isOf differs
      simp [pledge, sharePledge, other]
  | shareAttachment row =>
      have other : ownsShare store userId row.shareId = false := by
        rw [← Bool.not_eq_true]
        intro owned
        obtain ⟨share, present, holds⟩ := List.any_eq_true.mp owned
        simp only [Bool.and_eq_true, beq_iff_eq] at holds
        have shared : OwnsShare store (fun vault => ownsMap store.db owner vault = true)
            row.shareId := isOf
        have ofOwner := shared.mapId present holds.1.1
        exact absurd holds.1.2 (by simp [ownsMap_unique ofOwner differs])
      simp [pledge, sharedPledge, other]

end Pledges

/-! ### What a write does to what is announced -/

section Writes

variable {store after : Store} {write : Write} {userId owner shareId : String}

/-- No write brings a share back that was revoked, or changes whose it is. -/
theorem ownsShare_of_execute (executed : write.execute store = .ok after)
    (present : ∃ share ∈ store.shares.rows, share.id = shareId)
    (owned : ownsShare after userId shareId = true) : ownsShare store userId shareId = true := by
  have updated : ∀ (condition : StoredMindMapShare → Bool)
      (change : StoredMindMapShare → StoredMindMapShare)
      (keepsId : ∀ share, (change share).id = share.id),
      (∀ share, (change share).mapId = share.mapId) →
        (∀ share, (change share).revoked = false → share.revoked = false) →
          ownsShare { store with shares := store.shares.update condition change keepsId }
              userId shareId = true → ownsShare store userId shareId = true := by
    intro condition change keepsId keepsMap keepsRevoked owned
    obtain ⟨_, isRow, holds⟩ := List.any_eq_true.mp owned
    obtain ⟨share, old, rfl⟩ := List.mem_map.mp isRow
    refine List.any_eq_true.mpr ⟨share, old, ?_⟩
    split_ifs at holds
    · simp only [keepsId, keepsMap, Bool.and_eq_true, Bool.not_eq_true'] at holds ⊢
      exact ⟨holds.1, keepsRevoked share holds.2⟩
    · exact holds
  cases write with
  | attachment write =>
      cases write with
      | createMindMapAttachment row =>
          simp only [Write.execute, executeAttachment] at executed
          split_ifs at executed
          cases executed
          exact owned
      | copyObject sourceKey destinationKey =>
          obtain ⟨body, rfl⟩ := executeAttachment_copyObject executed
          exact owned
      | completeMindMapAttachmentUpload | markMindMapAttachmentDeleted | uploadBlob
      | deleteObject =>
          cases executed
          exact owned
  | share write =>
      cases write with
      | createMindMapShare row =>
          simp only [Write.execute, Store.execute] at executed
          split_ifs at executed with new
          cases executed
          obtain ⟨share, isRow, holds⟩ := List.any_eq_true.mp owned
          rcases (Table.mem_rows_insert new).mp isRow with old | rfl
          · exact List.any_eq_true.mpr ⟨share, old, holds⟩
          · -- The id of a share that is new is not that of one that is there.
            simp only [Bool.and_eq_true, beq_iff_eq] at holds
            obtain ⟨other, isOther, same⟩ := present
            exact absurd (List.mem_map.mpr ⟨other, isOther, same.trans holds.1.1.symm⟩) new
      | completeMindMapShareUpload mapId shareId update =>
          cases executed
          exact updated _ _ (StoredMindMapShare.completed_id update store.clock)
            (fun _ => rfl) (fun _ => id) owned
      | setMindMapShareRevoked mapId shareId =>
          cases executed
          exact updated _ _ (StoredMindMapShare.withdrawn_id store.clock) (fun _ => rfl)
            (fun _ held => by cases held) owned
      | markMindMapSharePurged shareId =>
          cases executed
          exact updated _ _ (StoredMindMapShare.purged_id store.clock) (fun _ => rfl)
            (fun _ held => by cases held) owned
      | createMindMapShareAttachment row =>
          simp only [Write.execute, Store.execute] at executed
          split_ifs at executed
          cases executed
          exact owned
      | completeMindMapShareAttachmentUpload | uploadBlob | deleteObject =>
          cases executed
          exact owned

/-- What is announced for a vault stays announced for it. -/
theorem Announcement.IsOf.execute {row : Announcement} (isOf : row.IsOf store owner)
    (executed : write.execute store = .ok after) : row.IsOf after owner := by
  have keeps := keeps_execute executed
  cases row with
  | attachment row | share row => exact keeps.ownsMap.trans isOf
  | shareAttachment row =>
      have shared : OwnsShare store (fun vault => ownsMap store.db owner vault = true)
          row.shareId := isOf
      exact keeps.ownsShare (fun _ owns => keeps.ownsMap.trans owns) shared

/-- What is attached to a share counts for no more after a write than before. -/
theorem sharedPledge_execute_le {row : Shares.StoredMindMapShareAttachment}
    (executed : write.execute store = .ok after) (nonneg : 0 ≤ row.sizeBytes)
    (present : ∃ share ∈ store.shares.rows, share.id = row.shareId) :
    sharedPledge after userId row ≤ sharedPledge store userId row := by
  have fewer : ownsShare after userId row.shareId = true →
      ownsShare store userId row.shareId = true := ownsShare_of_execute executed present
  unfold sharedPledge
  cases owned : ownsShare after userId row.shareId with
  | false => split_ifs <;> simp [nonneg] at *
  | true => rw [fewer owned]

theorem Announcement.pledge_execute_le {row : Announcement} (nonneg : 0 ≤ row.sizeBytes)
    (isOf : row.IsOf store owner) (executed : write.execute store = .ok after) :
    row.pledge after userId ≤ row.pledge store userId := by
  have keeps := keeps_execute executed
  cases row with
  | attachment row =>
      simp only [pledge, attachmentPledge, keeps.ownsMap, le_refl]
  | share row =>
      simp only [pledge, sharePledge, keeps.ownsMap, le_refl]
  | shareAttachment row =>
      obtain ⟨share, present, same, -⟩ := isOf
      exact sharedPledge_execute_le executed nonneg ⟨share, present, same⟩

/-- Shares that are revoked count for nothing. -/
theorem total_sharePledge_revoked_le (userId : String) (nonneg : NonNegative store)
    (condition : StoredMindMapShare → Bool) {change : StoredMindMapShare → StoredMindMapShare}
    (keepsId : ∀ share, (change share).id = share.id)
    (revokes : ∀ share, (change share).revoked = true) :
    (store.shares.update condition change keepsId).total (sharePledge userId store.db) ≤
      store.shares.total (sharePledge userId store.db) := by
  rw [Table.total_update]
  refine Table.total_le fun share present => ?_
  split_ifs
  · have size := nonneg.shares share present
    have counts : sharePledge userId store.db (change share) = 0 := by
      simp [sharePledge, revokes]
    exact counts.trans_le ((shareWeight_nonneg store.db size).trans
      (shareWeight_le_pledge store.db size))
  · exact le_rfl

variable (userId) in
/-- A write announces no more than the row it inserts. -/
theorem pledgedBytes_execute_le (sound : Sound store) (executed : write.execute store = .ok after) :
    pledgedBytes after userId ≤
      pledgedBytes store userId + write.inserts.elim 0 (·.pledge store userId) := by
  have shared : store.shareAttachments.total (sharedPledge after userId) ≤
      store.shareAttachments.total (sharedPledge store userId) :=
    Table.total_le fun row present => sharedPledge_execute_le executed
      (sound.1.shareAttachments row present) (sound.2 row present)
  have completes : Completion write → pledgedBytes after userId ≤
      pledgedBytes store userId + write.inserts.elim 0 (·.pledge store userId) := by
    intro completion
    have same := Completes.pledgedBytes_eq userId ⟨write, completion, executed⟩
    cases completion <;> exact same.le.trans_eq (add_zero _).symm
  cases write with
  | attachment write =>
      cases write with
      | createMindMapAttachment row =>
          simp only [Write.execute, executeAttachment] at executed
          split_ifs at executed with new
          cases executed
          refine le_of_eq ?_
          change (store.db.attachments.insert row new).total (attachmentPledge userId store.db) +
              store.shares.total (sharePledge userId store.db) +
                store.shareAttachments.total (sharedPledge store userId) =
            pledgedBytes store userId + attachmentPledge userId store.db row
          rw [Table.total_insert, pledgedBytes]
          omega
      | completeMindMapAttachmentUpload mapId attachmentId update =>
          exact completes (.attachment mapId attachmentId update)
      | markMindMapAttachmentDeleted mapId attachmentId =>
          cases executed
          refine (add_le_add_left (add_le_add_left ?_ _) _).trans (add_zero _).ge
          simp only [markMindMapAttachmentDeleted]
          rw [Table.total_update]
          refine Table.total_le fun attachment present => ?_
          split_ifs
          · have size := sound.1.attachments attachment present
            have counts : attachmentPledge userId store.db (markedDeleted attachment) = 0 := by
              simp [attachmentPledge, markedDeleted]
            exact counts.trans_le ((attachmentWeight_nonneg store.db size).trans
              (attachmentWeight_le_pledge store.db size))
          · exact le_rfl
      | copyObject sourceKey destinationKey =>
          obtain ⟨body, rfl⟩ := executeAttachment_copyObject executed
          exact (add_zero _).ge
      | uploadBlob | deleteObject =>
          cases executed
          exact (add_zero _).ge
  | share write =>
      cases write with
      | createMindMapShare row =>
          simp only [Write.execute, Store.execute] at executed
          split_ifs at executed with new
          cases executed
          refine (add_le_add_right shared _).trans_eq ?_
          change store.db.attachments.total (attachmentPledge userId store.db) +
              (store.shares.insert row new).total (sharePledge userId store.db) +
                store.shareAttachments.total (sharedPledge store userId) =
            pledgedBytes store userId + sharePledge userId store.db row
          rw [Table.total_insert, pledgedBytes]
          omega
      | completeMindMapShareUpload mapId shareId update =>
          exact completes (.share mapId shareId update)
      | setMindMapShareRevoked mapId shareId =>
          cases executed
          have revoked := total_sharePledge_revoked_le userId sound.1
            (fun share => share.mapId == mapId && share.id == shareId)
            (StoredMindMapShare.withdrawn_id store.clock) fun _ => rfl
          exact (add_le_add (add_le_add_right revoked _) shared).trans_eq (add_zero _).symm
      | markMindMapSharePurged shareId =>
          cases executed
          have revoked := total_sharePledge_revoked_le userId sound.1
            (fun share => share.id == shareId)
            (StoredMindMapShare.purged_id store.clock) fun _ => rfl
          exact (add_le_add (add_le_add_right revoked _) shared).trans_eq (add_zero _).symm
      | createMindMapShareAttachment row =>
          simp only [Write.execute, Store.execute] at executed
          split_ifs at executed with new
          cases executed
          refine le_of_eq ?_
          change store.db.attachments.total (attachmentPledge userId store.db) +
              store.shares.total (sharePledge userId store.db) +
                (store.shareAttachments.insert row new).total (sharedPledge store userId) =
            pledgedBytes store userId + sharedPledge store userId row
          rw [Table.total_insert, pledgedBytes]
          omega
      | completeMindMapShareAttachmentUpload shareId attachmentId update =>
          exact completes (.shareAttachment shareId attachmentId update)
      | uploadBlob | deleteObject =>
          cases executed
          exact (add_zero _).ge

end Writes

/-! ### Where a step leads what a request announces -/

/-- After a step a request announces nothing more, or is about to insert what it had been
admitted with, or has passed the check. -/
inductive Goes (store : Store) (flight after : StorageFlight) : ShareAct → Prop
  | ended {act : ShareAct} (nothing : announcement after = none) : Goes store flight after act
  | kept {outcome : Outcome} {error : AppError} (same : announcement after = announcement flight)
      (unchecked : checkedFor flight = none) (stays : checkedFor after = none)
      (inserts : ∀ write ∈ pendingWrite flight, write.inserts = none) :
      Goes store flight after (.write outcome error)
  | passed {userId : String} {row : Announcement} (due : checkedFor flight = some userId)
      (announced : announcement flight = some row) (same : announcement after = some row)
      (done : checkedFor after = none)
      (room : store.enforceStorageLimits userId row.sizeBytes = .ok ()) :
      Goes store flight after .read

section Steps

variable {store next : Store}

theorem goes_shareRead {flight after : ShareFlight} (read : flight.read store = some after) :
    Goes store (.inl flight) (.inl after) .read := by
  cases flight with
  | creating userId share =>
      cases read
      refine Shares.answerOr_ensures (fun after => Goes store _ (.inl after) .read) ?_
        fun _ => .ended rfl
      exact ensures_bind fun _ room => ensures_ok (.passed rfl rfl rfl rfl room)
  | attaching userId mapId sourceAttachmentId attachment =>
      cases read
      refine Shares.answerOr_ensures (fun after => Goes store _ (.inl after) .read) ?_
        fun _ => .ended rfl
      cases sourceAttachmentId with
      | none =>
          exact ensures_bind fun _ room =>
            ensures_ok (.passed rfl rfl rfl rfl room)
      | some sourceAttachmentId =>
          exact ensures_bind fun _ _ => ensures_bind fun _ room =>
            ensures_ok (.passed rfl rfl rfl rfl room)
  | completing | reloading | finding | completingAttachment | reloadingAttachment | looking
  | fetching | listing | sweeping | found | uploading | recording | rollingBack | revoking
  | deleting | marking | recordingAttachment | sweepingObjects | sweepMarking | answered =>
      exact .ended (Option.eq_none_iff_forall_not_mem.mpr fun row announced =>
        nomatch announcement_shareRead read row announced)
  | inserting | insertingAttachment => simp [ShareFlight.read] at read

theorem goes_attachmentRead {flight after : AttachmentFlight}
    (read : flight.read store = some after) : Goes store (.inr flight) (.inr after) .read := by
  cases flight with
  | initializing | admittingCopy =>
      cases read
      refine answerOr_ensures (fun after => Goes store _ (.inr after) .read) ?_
        fun _ => .ended rfl
      exact ensures_bind fun _ room => ensures_ok (.passed rfl rfl rfl rfl room)
  | completing | reloading =>
      cases read
      refine answerOr_ensures (fun after => Goes store _ (.inr after) .read) ?_
        fun _ => .ended rfl
      exact ensures_bind fun _ _ => ensures_ok (.ended rfl)
  | inserting | uploading | recording | rollingBack | copying | insertingCopy | deleting
  | marking | answered => simp [AttachmentFlight.read] at read

theorem goes_attachmentResume {flight : AttachmentFlight} {write : AttachmentWrite}
    (due : flight.pending = some write) (answer : Except AppError Unit) (outcome : Outcome)
    (error : AppError) :
    Goes store (.inr flight) (.inr (flight.resume answer)) (.write outcome error) := by
  cases flight with
  | copying sourceKey copy =>
      cases answer with
      | ok =>
          refine .kept rfl rfl rfl fun write pending => ?_
          cases pending
          rfl
      | error error => exact .ended rfl
  | deleting attachment =>
      refine .ended ?_
      simp only [AttachmentFlight.resume]
      split <;> rfl
  | inserting | uploading | recording | rollingBack | insertingCopy | marking =>
      cases answer <;> exact .ended rfl
  | initializing | completing | reloading | admittingCopy | answered =>
      simp [AttachmentFlight.pending] at due

/-- Every step of a request leads what it announces one of these ways. -/
theorem goes_of_advance {flight after : StorageFlight} {act : ShareAct}
    (action : storageRequests.advance store flight act = some (next, after)) :
    Goes store flight after act := by
  cases flight with
  | inl flight =>
      obtain ⟨_, advanced, same⟩ := Option.map_eq_some_iff.mp action
      cases same
      cases act with
      | read =>
          obtain ⟨_, read, same⟩ := Option.map_eq_some_iff.mp advanced
          cases same
          exact goes_shareRead read
      | readFails error =>
          obtain ⟨_, failed, same⟩ := Option.map_eq_some_iff.mp advanced
          cases same
          exact .ended (announcement_of_followsUp (Shares.followsUp_readFails failed))
      | write outcome error =>
          obtain ⟨write, due, same⟩ := Option.map_eq_some_iff.mp advanced
          cases same
          have next := (Option.filter_eq_some_iff.mp due).1
          exact .ended (announcement_of_followsUp (Shares.followsUp_resume next _))
  | inr flight =>
      obtain ⟨_, advanced, same⟩ := Option.map_eq_some_iff.mp action
      cases same
      cases act with
      | read =>
          obtain ⟨_, read, same⟩ := Option.map_eq_some_iff.mp advanced
          cases same
          exact goes_attachmentRead read
      | readFails error =>
          obtain ⟨_, failed, same⟩ := Option.map_eq_some_iff.mp advanced
          cases same
          refine .ended ?_
          unfold AttachmentFlight.readFails at failed
          split at failed <;> cases failed <;> rfl
      | write outcome error =>
          obtain ⟨write, due, same⟩ := Option.map_eq_some_iff.mp advanced
          cases same
          exact goes_attachmentResume due _ outcome error

end Steps

/-! ### Runs -/

section Runs

variable {store next : Store} {userId : String}

/-- A request on shares announces something for a vault that it has found to be its user's. -/
theorem placed_shareArrival (request : Shares.ShareRequest) :
    Placed store (.inl (Shares.answerOr (Shares.admitShareRequest store request))) ∧
      admittedBytes store userId
        (.inl (Shares.answerOr (Shares.admitShareRequest store request))) = 0 := by
  refine Shares.answerOr_ensures
    (fun flight => Placed store (.inl flight) ∧ admittedBytes store userId (.inl flight) = 0) ?_
    fun _ => ⟨fun _ => nofun, rfl⟩
  cases request with
  | createShare userId mapId shareId body =>
      refine ensures_bind fun _ owned => ensures_bind fun _ _ => ?_
      split
      · exact ensures_error _
      · refine ensures_ok ⟨?_, rfl⟩
        rintro _ ⟨⟩
        exact ⟨userId, ownsMap_of_findOwned owned, fun _ due => (Option.some.inj due).symm⟩
  | initShareAttachment userId mapId shareId attachmentId body =>
      refine ensures_bind fun _ owned => ensures_bind fun _ _ =>
        ensures_bind fun share found => ?_
      refine ensures_ite (ensures_error _) ?_
      refine ensures_ite (ensures_error _) ?_
      split
      · exact ensures_error _
      · refine ensures_ok ⟨?_, rfl⟩
        rintro _ ⟨⟩
        obtain ⟨present, same, rfl⟩ := of_findShare found
        exact ⟨userId, ⟨share, present, same, ownsMap_of_findOwned owned⟩,
          fun _ due => (Option.some.inj due).symm⟩
  | uploadShareBlob userId mapId shareId body
  | uploadShareAttachmentBlob userId mapId shareId attachmentId body =>
      refine ensures_ite (ensures_error _) ?_
      refine ensures_bind fun _ _ => ensures_bind fun _ _ => ?_
      exact ensures_ite (ensures_error _) (ensures_ok ⟨fun _ => nofun, rfl⟩)
  | completeShareUpload userId mapId shareId body
  | completeShareAttachmentUpload userId mapId shareId attachmentId body =>
      refine ensures_bind fun _ _ => ensures_bind fun _ _ => ?_
      exact ensures_bind fun _ _ => ensures_ok ⟨fun _ => nofun, rfl⟩
  | revokeShare userId mapId shareId =>
      exact ensures_bind fun _ _ => ensures_bind fun _ _ =>
        ensures_ok ⟨fun _ => nofun, rfl⟩
  | purgeExpiredShares | read endpoint shareId =>
      exact ensures_ok ⟨fun _ => nofun, rfl⟩

theorem placed_attachmentArrival (request : AttachmentRequest) :
    Placed store (.inr (answerOr (admitAttachmentRequest store request))) ∧
      admittedBytes store userId (.inr (answerOr (admitAttachmentRequest store request))) = 0 := by
  refine answerOr_ensures
    (fun flight => Placed store (.inr flight) ∧ admittedBytes store userId (.inr flight) = 0) ?_
    fun _ => ⟨fun _ => nofun, rfl⟩
  cases request with
  | initAttachment userId mapId attachmentId body =>
      refine ensures_bind fun _ owned => ensures_bind fun _ _ =>
        ensures_ok ⟨?_, rfl⟩
      rintro _ ⟨⟩
      exact ⟨userId, ownsMap_of_findOwned owned, fun _ due => (Option.some.inj due).symm⟩
  | copyAttachment userId mapId attachmentId newId nodeId =>
      refine ensures_bind fun _ owned => ensures_bind fun _ _ => ?_
      refine ensures_ite (ensures_error _) (ensures_ok ⟨?_, rfl⟩)
      rintro _ ⟨⟩
      exact ⟨userId, ownsMap_of_findOwned owned, fun _ due => (Option.some.inj due).symm⟩
  | uploadAttachmentBlob userId mapId attachmentId body =>
      refine ensures_ite (ensures_error _) ?_
      exact ensures_bind fun _ _ => ensures_bind fun _ _ =>
        ensures_ok ⟨fun _ => nofun, rfl⟩
  | completeAttachmentUpload userId mapId attachmentId body
  | deleteAttachment userId mapId attachmentId =>
      exact ensures_bind fun _ _ => ensures_bind fun _ _ =>
        ensures_ok ⟨fun _ => nofun, rfl⟩

variable {flight after other : StorageFlight} {act : ShareAct}

theorem admittedBytes_eq {row : Announcement} (unchecked : checkedFor flight = none)
    (announced : announcement flight = some row) :
    admittedBytes store userId flight = (row.pledge store userId).toNat := by
  simp only [admittedBytes, unchecked, announced]

theorem admittedBytes_eq_zero (nothing : announcement flight = none) :
    admittedBytes store userId flight = 0 := by
  unfold admittedBytes
  rw [nothing]
  split
  · contradiction
  · rfl

/-- A request whose write is due has passed its check. -/
theorem checkedFor_of_pendingWrite {write : Write} (due : pendingWrite flight = some write) :
    checkedFor flight = none := by
  cases flight with
  | inl flight => cases flight <;> first | rfl | cases due
  | inr flight => cases flight <;> first | rfl | cases due

/-- A step of a request leaves the settings. -/
theorem Steps.settings (steps : Steps store flight act next) (sound : Sound store) :
    next.settings = store.settings := by
  cases act with
  | read | readFails _ =>
      cases steps
      rfl
  | write outcome error =>
      obtain ⟨write, -, ⟨rfl, -⟩ | ⟨-, executed⟩⟩ := steps
      · rfl
      · exact (Write.execute_frame sound.2 executed).1

variable (userId) in
/-- What any request announces stays placed, and counts for no more, when one takes a step. -/
theorem Placed.steps (placed : Placed store other) (announced : Announced store other)
    (steps : Steps store flight act next) :
    Placed next other ∧ admittedBytes next userId other ≤ admittedBytes store userId other := by
  cases act with
  | read | readFails _ =>
      cases steps
      exact ⟨placed, le_rfl⟩
  | write outcome error =>
      obtain ⟨write, due, ⟨rfl, -⟩ | ⟨-, executed⟩⟩ := steps
      · exact ⟨placed, le_rfl⟩
      refine ⟨fun row present => ?_, ?_⟩
      · obtain ⟨owner, isOf, due⟩ := placed row present
        exact ⟨owner, isOf.execute executed, due⟩
      · cases isDue : announcement other with
        | none => rw [admittedBytes_eq_zero isDue, admittedBytes_eq_zero isDue]
        | some row =>
            cases checked : checkedFor other with
            | some _ => simp [admittedBytes, checked]
            | none =>
                obtain ⟨owner, isOf, -⟩ := placed row isDue
                rw [admittedBytes_eq checked isDue, admittedBytes_eq checked isDue]
                exact Int.toNat_le_toNat
                  (Announcement.pledge_execute_le (announced row isDue) isOf executed)

/-- Where a step leads a request, what it announces is still placed. -/
theorem Goes.placed (goes : Goes store flight after act) (placed : Placed store flight) :
    Placed store after := by
  intro row announced
  cases goes with
  | ended nothing => rw [nothing] at announced; contradiction
  | kept same _ stays =>
      obtain ⟨owner, isOf, -⟩ := placed row (same ▸ announced)
      exact ⟨owner, isOf, by simp [stays]⟩
  | passed _ isDue same done =>
      rw [same] at announced
      obtain ⟨owner, isOf, -⟩ := placed row (isDue.trans announced)
      exact ⟨owner, isOf, by simp [done]⟩

variable (userId) in
/-- Only a check of the user's limit that admits a size adds to what has been admitted. -/
theorem Goes.outstanding (goes : Goes store flight after act)
    (steps : Steps store flight act next) (sound : Sound store)
    (announced : Announced store flight) (placed : Placed store flight) :
    pledgedBytes next userId + admittedBytes store userId after ≤
        pledgedBytes store userId + admittedBytes store userId flight ∨
      act = .read ∧ checkedFor flight = some userId ∧ ∃ row ∈ announcement flight,
        store.enforceStorageLimits userId row.sizeBytes = .ok () ∧
          pledgedBytes next userId + admittedBytes store userId after ≤
            pledgedBytes store userId + admittedBytes store userId flight + row.sizeBytes := by
  cases goes with
  | ended nothing =>
      left
      rw [admittedBytes_eq_zero nothing]
      cases act with
      | read | readFails _ =>
          cases steps
          omega
      | write outcome error =>
          obtain ⟨write, due, ⟨rfl, -⟩ | ⟨-, executed⟩⟩ := steps
          · omega
          have grown := pledgedBytes_execute_le userId sound executed
          cases inserted : write.inserts with
          | none =>
              simp only [inserted, Option.elim_none] at grown
              omega
          | some row =>
              have isDue := inserts_of_pendingWrite due row inserted
              rw [admittedBytes_eq (checkedFor_of_pendingWrite due) isDue]
              simp only [inserted, Option.elim_some] at grown
              have counted := Int.self_le_toNat (row.pledge store userId)
              omega
  | kept same unchecked stays inserts =>
      left
      have sameBytes : admittedBytes store userId after = admittedBytes store userId flight := by
        unfold admittedBytes
        rw [same, unchecked, stays]
      obtain ⟨write, due, ⟨rfl, -⟩ | ⟨-, executed⟩⟩ := steps
      · omega
      · have grown := pledgedBytes_execute_le userId sound executed
        simp only [inserts write due, Option.elim_none] at grown
        omega
  | passed due isDue same done room =>
      next owner row =>
      cases steps
      have waiting : admittedBytes store userId flight = 0 := by
        simp [admittedBytes, due]
      by_cases isUser : owner = userId
      · subst isUser
        refine .inr ⟨rfl, due, row, isDue, room, ?_⟩
        have size := announced row isDue
        have counted := Announcement.pledge_le store owner size
        rw [admittedBytes_eq done same]
        omega
      · left
        obtain ⟨_, isOf, sameOwner⟩ := placed row isDue
        obtain rfl := sameOwner owner due
        rw [admittedBytes_eq done same, isOf.pledge_eq_zero isUser]
        omega

/-- What a run keeps while its checks cover what they do not see. -/
structure Covered (userId : String) (pool : StoragePool) : Prop where
  holds : Holds Sound Announced pool
  placed : ∀ flight ∈ pool.threads, Placed pool.shared flight
  within : ∀ limit ∈ pool.shared.settings.storageLimit, outstandingBytes pool userId ≤ limit

/-- What is available is part of what has been admitted. -/
theorem Covered.withinQuota {pool : StoragePool} (covered : Covered userId pool) :
    WithinQuota pool.shared userId := by
  intro limit limited
  have below := storedBytes_le_pledgedBytes userId covered.holds.1.1
  have room := covered.within limit limited
  unfold outstandingBytes at room
  omega

/-- The step of a request leaves what has been admitted within the limit. -/
theorem outstandingBytes_advance_le {pool : StoragePool} {thread : Nat}
    (covered : Covered userId pool) (present : pool.threads[thread]? = some flight)
    (action : storageRequests.advance pool.shared flight act = some (next, after))
    (covers : ChecksCover userId pool (.advance thread act)) {limit : Int}
    (limited : limit ∈ pool.shared.settings.storageLimit) :
    outstandingBytes ⟨next, pool.threads.set thread after⟩ userId ≤ limit := by
  have member := List.mem_of_getElem? present
  have announced := covered.holds.2 flight member
  have placed := covered.placed flight member
  have steps := steps_of_advance action
  have goes := goes_of_advance action
  -- Everyone's share in the total shrinks or stays, before the own step is counted.
  have others : weight (admittedBytes next userId) (pool.threads.set thread after) ≤
      weight (admittedBytes pool.shared userId) (pool.threads.set thread after) := by
    refine weight_le (forall_mem_set (fun own isOwn =>
      ((covered.placed own isOwn).steps userId (covered.holds.2 own isOwn) steps).2) ?_)
    exact ((goes.placed placed).steps userId
      (fun row later => announced row (announcement_advance action row later)) steps).2
  have moved : weight (admittedBytes pool.shared userId) (pool.threads.set thread after) +
      admittedBytes pool.shared userId flight = _ := weight_set present after
  have room := covered.within limit limited
  change pledgedBytes next userId +
    weight (admittedBytes next userId) (pool.threads.set thread after) ≤ limit
  unfold outstandingBytes at room
  rcases goes.outstanding userId steps covered.holds.1 announced placed with
    less | ⟨rfl, due, row, isDue, admitted, less⟩
  · omega
  · obtain ⟨within, fits⟩ := covers flight present due row isDue limit limited
    have size := announced row isDue
    have used := storedBytes_nonneg userId covered.holds.1.1
    have checked := ((enforceStorageLimits_eq_ok_iff userId row.sizeBytes covered.holds.1.1
      (by omega)).mp admitted).2 limit limited
    rw [Int.bmod_eq_of_le (by omega) (by omega)] at checked
    have beside := fits checked
    unfold outstandingBytes at beside
    omega

/-- A move whose check covers what it does not see keeps the invariant. -/
theorem covered_preserved (pool : StoragePool) (move : StorageMove) (after : StoragePool)
    (covered : Covered userId pool) (covers : ChecksCover userId pool move)
    (moved : storageRequests.system pool move = some after) : Covered userId after := by
  suffices kept : (∀ flight ∈ after.threads, Placed after.shared flight) ∧
      ∀ limit ∈ after.shared.settings.storageLimit, outstandingBytes after userId ≤ limit from
    ⟨sound_preserved pool move after covered.holds moved, kept.1, kept.2⟩
  revert covers
  refine Program.system_cases (motive := fun move after => ChecksCover userId pool move →
    (∀ flight ∈ after.threads, Placed after.shared flight) ∧
      ∀ limit ∈ after.shared.settings.storageLimit, outstandingBytes after userId ≤ limit)
    ?_ ?_ ?_ moved
  · intro now store passed _
    simp only [storageRequests, Shares.shareRequests] at passed
    split_ifs at passed
    cases passed
    exact ⟨covered.placed, covered.within⟩
  · intro request store flight arrived _
    have arrives : store = pool.shared ∧
        Placed pool.shared flight ∧ admittedBytes pool.shared userId flight = 0 := by
      cases request with
      | inl request =>
          cases arrived
          exact ⟨rfl, placed_shareArrival request⟩
      | inr request =>
          cases arrived
          exact ⟨rfl, placed_attachmentArrival request⟩
    obtain ⟨rfl, placed, nothing⟩ := arrives
    refine ⟨forall_mem_append_singleton covered.placed placed, fun limit limited => ?_⟩
    have room := covered.within limit limited
    unfold outstandingBytes at room ⊢
    rw [weight_append_singleton, nothing]
    exact room
  · intro thread act before store later present action covers
    have announced := covered.holds.2
    have steps := steps_of_advance action
    have goes := goes_of_advance action
    have member := List.mem_of_getElem? present
    refine ⟨forall_mem_set (fun own isOwn =>
      ((covered.placed own isOwn).steps userId (announced own isOwn) steps).1) ?_,
      fun limit limited => ?_⟩
    · exact ((goes.placed (covered.placed before member)).steps userId
        (fun row isDue => announced before member row (announcement_advance action row isDue))
          steps).1
    · refine outstandingBytes_advance_le covered present action covers ?_
      rwa [← steps.settings covered.holds.1]

end Runs

/-- The bytes a user has available are within the limit in every state of a run if every check
of the user's limit covers what it does not see. -/
theorem withinQuota_of_checksCover
    (db : Database) (objects : Objects) (settings : InstanceSettings) (clock : DateTime)
    (userId : String) (moves : List StorageMove)
    (covers : EveryStepAllowed storageRequests.system (ChecksCover userId)
      ⟨unused db objects settings clock, []⟩ moves) :
    EveryState storageRequests.system (fun pool => WithinQuota pool.shared userId)
      ⟨unused db objects settings clock, []⟩ moves := by
  refine everyState_of_allowed covered_preserved (fun _ covered => covered.withinQuota) ?_ covers
  refine ⟨⟨sound_unused db objects settings clock, by simp⟩, by simp, fun limit limited => ?_⟩
  have nothing : outstandingBytes ⟨unused db objects settings clock, []⟩ userId = 0 := rfl
  change settings.storageLimit = some limit at limited
  unfold InstanceSettings.storageLimit at limited
  split_ifs at limited with positive
  cases limited
  omega

/-- Sixty bytes are announced and completed under a limit of a hundred, forty more are announced
with two uploads that leave room for each other, and a further one is refused. -/
def uploadsInTurn : List StorageMove :=
  [.spawn (.inr (.initAttachment "u1" "m1" "a1" (uploadOf 60))), .advance 0 .read,
    .advance 0 (.write .done (.storage "")),
    .spawn (.inr (.uploadAttachmentBlob "u1" "m1" "a1" [1])),
    .advance 1 (.write .done (.storage "")),
    .spawn (.inr (.completeAttachmentUpload "u1" "m1" "a1" ⟨"", none⟩)),
    .advance 2 .read, .advance 2 (.write .done (.storage "")),
    .spawn (.inr (.initAttachment "u1" "m1" "a2" (uploadOf 30))),
    .spawn (.inr (.initAttachment "u1" "m1" "a3" (uploadOf 10))), .advance 3 .read,
    .advance 4 .read, .advance 4 (.write .done (.storage "")),
    .advance 3 (.write .done (.storage "")),
    .spawn (.inr (.initAttachment "u1" "m1" "a4" (uploadOf 50))), .advance 5 .read]

theorem withinQuota_of_checksCover_uploadsInTurn :
    EveryState storageRequests.system (fun pool => WithinQuota pool.shared "u1")
      ⟨unused Shares.oneVault (fun _ => none) ⟨100, 0⟩ 0, []⟩ uploadsInTurn :=
  withinQuota_of_checksCover Shares.oneVault (fun _ => none) ⟨100, 0⟩ 0 "u1" uploadsInTurn
    (by decide)

/-- Two uploads of 60 bytes are announced where the limit is 100, both find room, and
both are completed. -/
theorem pending_uploads_exceed_limit :
    ¬ ∀ db objects settings clock userId moves,
      EveryState storageRequests.system (fun pool => WithinQuota pool.shared userId)
        ⟨unused db objects settings clock, []⟩ moves := by
  intro always
  have within := always Shares.oneVault (fun _ => none) ⟨100, 0⟩ 0 "u1"
    [.spawn (.inr (.initAttachment "u1" "m1" "a1" (uploadOf 60))), .advance 0 .read,
      .advance 0 (.write .done (.storage "")),
      .spawn (.inr (.initAttachment "u1" "m1" "a2" (uploadOf 60))), .advance 1 .read,
      .advance 1 (.write .done (.storage "")),
      .spawn (.inr (.uploadAttachmentBlob "u1" "m1" "a1" [1])),
      .advance 2 (.write .done (.storage "")),
      .spawn (.inr (.completeAttachmentUpload "u1" "m1" "a1" ⟨"", none⟩)),
      .advance 3 .read, .advance 3 (.write .done (.storage "")),
      .spawn (.inr (.uploadAttachmentBlob "u1" "m1" "a2" [2])),
      .advance 4 (.write .done (.storage "")),
      .spawn (.inr (.completeAttachmentUpload "u1" "m1" "a2" ⟨"", none⟩)),
      .advance 5 .read, .advance 5 (.write .done (.storage ""))]
  revert within
  decide

end Storage
end MindMapVault
