import MindMapVault.Shares.Handlers

/-!
# What the purge can reach

A share that is revoked or past its expiry should keep no ciphertext, and as long as
it does the listing of the purge should return it. The listing asks for rows that are
`available`, and a revocation takes that status away before anything is deleted. So,
while its rows fit into one batch, the listing returns all such shares in every state of
a run exactly if no step takes one out of its reach: no share is revoked, marked as
purged, uploaded to or let expire while it has objects and no status that is listed.
-/

namespace MindMapVault
namespace Shares

open Remote Threads Transition
open Vault (DateTime Bytes Objects)

/-- The share is revoked or past its expiry. -/
def StoredMindMapShare.isOver (now : DateTime) (share : StoredMindMapShare) : Bool :=
  share.revoked || share.expiresAt.any fun expiresAt => decide (expiresAt < now)

namespace Store

/-- The key is that of the share or of an attachment shared with it. -/
def Names (store : Store) (share : StoredMindMapShare) (objectKey : String) : Prop :=
  share.s3Key = objectKey ∨
    ∃ attachment ∈ store.shareAttachments.rows,
      attachment.shareId = share.id ∧ attachment.s3Key = objectKey

/-- Something the share names is still in storage. -/
def HasCiphertext (store : Store) (share : StoredMindMapShare) : Prop :=
  (store.objects share.s3Key).isSome = true ∨
    ∃ attachment ∈ store.shareAttachments.rows,
      attachment.shareId = share.id ∧ (store.objects attachment.s3Key).isSome = true

/-- The listing of the purge returns the share. -/
def Lists (store : Store) (share : StoredMindMapShare) : Prop :=
  share.id ∈ (store.listPurgeableMindMapShares store.clock sharePurgeBatch).map (·.id)

/-- The listing returns every share that is over and still has ciphertext. -/
def PurgeReaches (store : Store) : Prop :=
  ∀ share ∈ store.shares.rows, share.isOver store.clock = true →
    store.HasCiphertext share → store.Lists share

/-- The rows that the listing asks for are no more than a batch. -/
def WithinBatch (store : Store) (now : DateTime) : Prop :=
  (store.shares.select (purgeable now)).length ≤ sharePurgeBatch

/-- What is over and still has ciphertext is `available`. -/
def AvailableWhileStored (store : Store) : Prop :=
  ∀ share ∈ store.shares.rows, share.isOver store.clock = true →
    store.HasCiphertext share → share.status = .available

/-- Attachments are shared with a share that exists. -/
def AttachmentsOwned (store : Store) : Prop :=
  ∀ attachment ∈ store.shareAttachments.rows,
    ∃ share ∈ store.shares.rows, share.id = attachment.shareId

end Store

/-- The write takes no share with ciphertext out of the reach of the purge: it
withdraws a share only when its objects are gone, and stores an object of a share
that is over only while its row is listed. -/
def StoreWrite.KeepsReach (store : Store) : StoreWrite → Prop
  | .setMindMapShareRevoked mapId shareId =>
      ∀ share ∈ store.shares.rows, share.mapId = mapId → share.id = shareId →
        ¬ store.HasCiphertext share
  | .markMindMapSharePurged shareId =>
      ∀ share ∈ store.shares.rows, share.id = shareId → ¬ store.HasCiphertext share
  | .uploadBlob objectKey _ =>
      ∀ share ∈ store.shares.rows, share.isOver store.clock = true →
        store.Names share objectKey → share.status = .available
  | _ => True

/-- The move takes no share with ciphertext out of the reach of the purge. Time may
pass the expiry of such a share only while its row is listed. -/
def KeepsReach (pool : SharePool) : ShareMove → Prop
  | .outside now =>
      ∀ share ∈ pool.shared.shares.rows, share.isOver now = true →
        pool.shared.HasCiphertext share → share.status = .available
  | .advance thread (.write outcome _) =>
      outcome = .refused ∨
        ∀ write ∈ pool.threads[thread]?.bind ShareFlight.pending, write.KeepsReach pool.shared
  | _ => True

section Decidable

variable (store : Store) (share : StoredMindMapShare)

instance (objectKey : String) : Decidable (store.Names share objectKey) :=
  have := List.decidableBEx (fun attachment : StoredMindMapShareAttachment =>
    attachment.shareId = share.id ∧ attachment.s3Key = objectKey)
    store.shareAttachments.rows
  inferInstanceAs (Decidable (_ ∨ _))

instance : Decidable (store.HasCiphertext share) :=
  have := List.decidableBEx (fun attachment : StoredMindMapShareAttachment =>
    attachment.shareId = share.id ∧ (store.objects attachment.s3Key).isSome = true)
    store.shareAttachments.rows
  inferInstanceAs (Decidable (_ ∨ _))

instance : Decidable (store.Lists share) :=
  inferInstanceAs (Decidable (_ ∈ _))

instance : Decidable store.PurgeReaches := List.decidableBAll _ _

instance (write : StoreWrite) : Decidable (write.KeepsReach store) := by
  unfold StoreWrite.KeepsReach
  split
  · exact List.decidableBAll _ _
  · exact List.decidableBAll _ _
  · exact List.decidableBAll _ _
  · infer_instance

instance (pool : SharePool) (move : ShareMove) : Decidable (KeepsReach pool move) := by
  unfold KeepsReach
  split
  · exact List.decidableBAll _ _
  · infer_instance
  · infer_instance

instance (now : DateTime) : Decidable (store.WithinBatch now) :=
  inferInstanceAs (Decidable (_ ≤ _))

end Decidable

namespace Store

variable {store after : Store} {share : StoredMindMapShare}

/-- Where something is over, being listed is a matter of the status, if all rows fit. -/
theorem lists_iff (fits : store.WithinBatch store.clock) (present : share ∈ store.shares.rows)
    (isOver : share.isOver store.clock = true) :
    store.Lists share ↔ share.status = .available := by
  have condition : purgeable store.clock share = true ↔ share.status = .available := by
    unfold purgeable
    rw [Bool.and_eq_true, beq_iff_eq]
    exact and_iff_left isOver
  have sorted := List.perm_insertionSort
    (fun first second : StoredMindMapShare => first.updatedAt ≤ second.updatedAt)
    (store.shares.select (purgeable store.clock))
  constructor
  · intro listed
    obtain ⟨row, inBatch, sameId⟩ := List.mem_map.mp listed
    have selected := sorted.mem_iff.mp (List.mem_of_mem_take inBatch)
    obtain ⟨stored, matching⟩ := Table.mem_select.mp selected
    rw [store.shares.eq_of_key_eq stored present sameId] at matching
    exact condition.mp matching
  · intro available
    have selected := sorted.mem_iff.mpr (Table.mem_select.mpr ⟨present, condition.mpr available⟩)
    refine List.mem_map_of_mem ?_
    unfold listPurgeableMindMapShares
    rw [List.take_of_length_le (by rw [sorted.length_eq]; exact fits)]
    exact selected

/-- The listing returns what is over exactly if that is `available`. -/
theorem purgeReaches_iff (fits : store.WithinBatch store.clock) :
    store.PurgeReaches ↔ store.AvailableWhileStored :=
  forall₄_congr fun _ present isOver _ => lists_iff fits present isOver

/-- What a share has in storage depends on its id, its key, the attachments and the
objects. -/
theorem hasCiphertext_congr {other : StoredMindMapShare}
    (sameAttachments : after.shareAttachments = store.shareAttachments)
    (sameObjects : after.objects = store.objects)
    (sameId : other.id = share.id) (sameKey : other.s3Key = share.s3Key) :
    after.HasCiphertext other ↔ store.HasCiphertext share := by
  unfold HasCiphertext
  rw [sameAttachments, sameObjects, sameId, sameKey]

/-- Changing rows of shares, without their ids and keys, keeps them available exactly if
it does so for each changed row. -/
theorem available_update (condition : StoredMindMapShare → Bool)
    (change : StoredMindMapShare → StoredMindMapShare)
    (keepsId : ∀ share, (change share).id = share.id) (available : store.AvailableWhileStored)
    (keepsKey : ∀ share, (change share).s3Key = share.s3Key) :
    ({ store with shares := store.shares.update condition change keepsId } :
        Store).AvailableWhileStored ↔
      ∀ share ∈ store.shares.rows, condition share = true →
        (change share).isOver store.clock = true → store.HasCiphertext share →
          (change share).status = .available := by
  constructor
  · intro all share present changed isOver ciphertext
    have stored : change share ∈ (store.shares.update condition change keepsId).rows :=
      List.mem_map.mpr ⟨share, present, if_pos changed⟩
    exact all _ stored isOver ((hasCiphertext_congr rfl rfl (keepsId share)
      (keepsKey share)).mpr ciphertext)
  · intro each row present isOver ciphertext
    obtain ⟨share, old, rfl⟩ := List.mem_map.mp present
    split_ifs at isOver ciphertext ⊢ with changed
    · exact each share old changed isOver ((hasCiphertext_congr rfl rfl (keepsId share)
        (keepsKey share)).mp ciphertext)
    · exact available share old isOver ((hasCiphertext_congr rfl rfl rfl rfl).mp ciphertext)

/-- A write that goes through keeps what is over available exactly under its condition. -/
theorem execute_available_iff {write : StoreWrite}
    (owned : store.AttachmentsOwned) (available : store.AvailableWhileStored)
    (drawn : store.drawn write = true) (executed : store.execute write = .ok after) :
    after.AvailableWhileStored ↔ write.KeepsReach store := by
  cases write with
  | createMindMapShare new =>
      simp only [execute] at executed
      split_ifs at executed with unused
      cases executed
      refine iff_of_true ?_ trivial
      intro share present isOver ciphertext
      rcases (Table.mem_rows_insert unused).mp present with old | rfl
      · exact available share old isOver ((hasCiphertext_congr rfl rfl rfl rfl).mp ciphertext)
      · rcases ciphertext with stored | ⟨attachment, attached, sameShare, -⟩
        · simp [Store.drawn] at drawn
          simp [drawn] at stored
        · obtain ⟨row, old, sameId⟩ := owned attachment attached
          exact absurd (List.mem_map.mpr ⟨row, old, sameId.trans sameShare⟩) unused
  | completeMindMapShareUpload mapId shareId update =>
      cases executed
      refine (available_update _ _ (StoredMindMapShare.completed_id update store.clock) available
        fun _ => rfl).trans ?_
      exact iff_of_true (fun _ _ _ _ _ => rfl) trivial
  | setMindMapShareRevoked mapId shareId =>
      cases executed
      refine (available_update _ _ (StoredMindMapShare.withdrawn_id store.clock) available
        fun _ => rfl).trans ?_
      simp [StoreWrite.KeepsReach, StoredMindMapShare.withdrawn, StoredMindMapShare.isOver]
  | markMindMapSharePurged shareId =>
      cases executed
      refine (available_update _ _ (StoredMindMapShare.purged_id store.clock) available
        fun _ => rfl).trans ?_
      simp [StoreWrite.KeepsReach, StoredMindMapShare.purged, StoredMindMapShare.isOver]
  | createMindMapShareAttachment new =>
      simp only [execute] at executed
      split_ifs at executed with unused
      cases executed
      refine iff_of_true ?_ trivial
      intro share present isOver ciphertext
      refine available share present isOver ?_
      rcases ciphertext with stored | ⟨attachment, attached, sameShare, stored⟩
      · exact .inl stored
      · rcases (Table.mem_rows_insert unused).mp attached with old | rfl
        · exact .inr ⟨attachment, old, sameShare, stored⟩
        · simp [Store.drawn] at drawn
          simp [drawn] at stored
  | completeMindMapShareAttachmentUpload shareId attachmentId update =>
      cases executed
      refine iff_of_true ?_ trivial
      intro share present isOver ciphertext
      refine available share present isOver ?_
      rcases ciphertext with stored | ⟨row, attached, sameShare, stored⟩
      · exact .inl stored
      · obtain ⟨attachment, old, rfl⟩ := List.mem_map.mp attached
        refine .inr ⟨attachment, old, ?_, ?_⟩
        · split_ifs at sameShare <;> exact sameShare
        · split_ifs at stored <;> exact stored
  | uploadBlob objectKey body =>
      cases executed
      have grown : ∀ other, ((store.objects.put objectKey body) other).isSome = true ↔
          other = objectKey ∨ (store.objects other).isSome = true := by
        intro other
        unfold Objects.put
        split_ifs with same
        · simp [same]
        · simp [same]
      constructor
      · intro all share present isOver named
        refine all share present isOver ?_
        rcases named with own | ⟨attachment, attached, sameShare, own⟩
        · exact .inl ((grown _).mpr (.inl own))
        · exact .inr ⟨attachment, attached, sameShare, (grown _).mpr (.inl own)⟩
      · intro listed share present isOver ciphertext
        rcases ciphertext with stored | ⟨attachment, attached, sameShare, stored⟩
        · rcases (grown _).mp stored with own | before
          · exact listed share present isOver (.inl own)
          · exact available share present isOver (.inl before)
        · rcases (grown _).mp stored with own | before
          · exact listed share present isOver (.inr ⟨attachment, attached, sameShare, own⟩)
          · exact available share present isOver (.inr ⟨attachment, attached, sameShare, before⟩)
  | deleteObject objectKey =>
      cases executed
      refine iff_of_true ?_ trivial
      have shrunk : ∀ other, ((store.objects.delete objectKey) other).isSome = true →
          (store.objects other).isSome = true := by
        intro other
        unfold Objects.delete
        split_ifs
        · simp
        · exact id
      intro share present isOver ciphertext
      exact available share present isOver
        (ciphertext.imp (shrunk _) fun ⟨attachment, attached, sameShare, stored⟩ =>
          ⟨attachment, attached, sameShare, shrunk _ stored⟩)

/-- Ids of shares stay, so attachments keep their share. -/
theorem AttachmentsOwned.execute (owned : store.AttachmentsOwned) {write : StoreWrite}
    (executed : store.execute write = .ok after) : after.AttachmentsOwned := by
  have updated : ∀ (condition : StoredMindMapShare → Bool)
      (change : StoredMindMapShare → StoredMindMapShare)
      (keepsId : ∀ share, (change share).id = share.id),
      ∀ attachment ∈ store.shareAttachments.rows,
        ∃ share ∈ (store.shares.update condition change keepsId).rows,
          share.id = attachment.shareId := by
    intro condition change keepsId attachment attached
    obtain ⟨share, present, sameId⟩ := owned attachment attached
    refine ⟨_, List.mem_map.mpr ⟨share, present, rfl⟩, ?_⟩
    split_ifs
    · rw [keepsId, sameId]
    · exact sameId
  cases write with
  | createMindMapShare new =>
      simp only [Store.execute] at executed
      split_ifs at executed with unused
      cases executed
      intro attachment attached
      obtain ⟨share, present, sameId⟩ := owned attachment attached
      exact ⟨share, (Table.mem_rows_insert unused).mpr (.inl present), sameId⟩
  | completeMindMapShareUpload _ _ update =>
      cases executed
      exact updated _ _ (StoredMindMapShare.completed_id update store.clock)
  | setMindMapShareRevoked _ _ =>
      cases executed
      exact updated _ _ (StoredMindMapShare.withdrawn_id store.clock)
  | markMindMapSharePurged _ =>
      cases executed
      exact updated _ _ (StoredMindMapShare.purged_id store.clock)
  | createMindMapShareAttachment new =>
      simp only [Store.execute] at executed
      split_ifs at executed with unused there
      cases executed
      intro attachment attached
      rcases (Table.mem_rows_insert unused).mp attached with old | rfl
      · exact owned attachment old
      · obtain ⟨share, present, sameId⟩ := List.any_eq_true.mp there
        exact ⟨share, present, by simpa using sameId⟩
  | completeMindMapShareAttachmentUpload _ _ _ =>
      cases executed
      intro row attached
      obtain ⟨attachment, old, rfl⟩ := List.mem_map.mp attached
      obtain ⟨share, present, sameId⟩ := owned attachment old
      refine ⟨share, present, sameId.trans ?_⟩
      split_ifs <;> rfl
  | uploadBlob _ _ | deleteObject _ =>
      cases executed
      exact owned

/-- Only an insert can be refused by the tables, and an insert takes nothing out of
reach. -/
theorem keepsReach_of_refusal {write : StoreWrite} {refusal : AppError}
    (refused : store.execute write = .error refusal) : write.KeepsReach store := by
  cases write with
  | createMindMapShare _ | createMindMapShareAttachment _ => trivial
  | completeMindMapShareUpload _ _ _ | setMindMapShareRevoked _ _
  | markMindMapSharePurged _ | completeMindMapShareAttachmentUpload _ _ _
  | uploadBlob _ _ | deleteObject _ => cases refused

/-- A store nobody has shared from yet. -/
def unshared (db : Accounts.Database) (objects : Objects) (settings : InstanceSettings)
    (clock : DateTime) : Store where
  db := db
  shares := .empty
  shareAttachments := .empty
  objects := objects
  settings := settings
  clock := clock

end Store

/-- What holds while everything that is over is available to the purge. -/
def Reachable (pool : SharePool) : Prop :=
  pool.shared.AttachmentsOwned ∧ pool.shared.AvailableWhileStored

/-- One move keeps what is over available exactly under its condition, and attachments
keep their share. -/
theorem shareRequests_available_iff (pool : SharePool) (move : ShareMove) (next : SharePool)
    (reachable : Reachable pool) (moved : shareRequests.system pool move = some next) :
    next.shared.AttachmentsOwned ∧ (next.shared.AvailableWhileStored ↔ KeepsReach pool move) := by
  obtain ⟨owned, available⟩ := reachable
  refine Program.system_cases (motive := fun move next =>
    next.shared.AttachmentsOwned ∧
      (next.shared.AvailableWhileStored ↔ KeepsReach pool move)) ?_ ?_ ?_ moved
  · intro now store passed
    simp only [shareRequests] at passed
    split_ifs at passed
    cases passed
    exact ⟨owned, Iff.rfl⟩
  · intro request store flight arrived
    cases arrived
    exact ⟨owned, iff_of_true available trivial⟩
  · intro thread act before store after present action
    cases act with
    | read =>
        obtain ⟨_, -, same⟩ := Option.map_eq_some_iff.mp action
        cases same
        exact ⟨owned, iff_of_true available trivial⟩
    | readFails error =>
        obtain ⟨_, -, same⟩ := Option.map_eq_some_iff.mp action
        cases same
        exact ⟨owned, iff_of_true available trivial⟩
    | write outcome error =>
        obtain ⟨write, due, same⟩ := Option.map_eq_some_iff.mp action
        cases same
        obtain ⟨next, drawn⟩ := Option.filter_eq_some_iff.mp due
        have condition : KeepsReach pool (.advance thread (.write outcome error)) ↔
            outcome = .refused ∨ write.KeepsReach pool.shared := by
          simp only [KeepsReach, present, Option.bind_some, next, Option.mem_def,
            Option.some.injEq, forall_eq']
        rw [condition]
        rcases outcome.perform_cases pool.shared (pool.shared.execute write) error with
          ⟨unchanged, refused⟩ | ⟨effective, executed⟩
        · simp only [Store.perform, unchanged]
          refine ⟨owned, iff_of_true available (refused.imp_right ?_)⟩
          rintro ⟨refusal, refused⟩
          exact Store.keepsReach_of_refusal refused
        · refine ⟨owned.execute executed, ?_⟩
          rw [or_iff_right effective]
          exact Store.execute_available_iff owned available drawn executed

/-- In every run what is over stays available exactly if no move takes it out of the
reach of the purge. -/
theorem available_iff_keepsReach
    (db : Accounts.Database) (objects : Objects) (settings : InstanceSettings)
    (clock : DateTime) (moves : List ShareMove) :
    EveryState shareRequests.system (fun pool => pool.shared.AvailableWhileStored)
        ⟨.unshared db objects settings clock, []⟩ moves ↔
      EveryStepAllowed shareRequests.system KeepsReach
        ⟨.unshared db objects settings clock, []⟩ moves :=
  everyState_iff_everyStepAllowed
    (fun pool (reachable : Reachable pool) => reachable.2)
    (fun pool move next reachable moved =>
      (shareRequests_available_iff pool move next reachable moved).2)
    (fun pool move next reachable moved available =>
      ⟨(shareRequests_available_iff pool move next reachable moved).1, available⟩)
    ⟨by simp [Store.AttachmentsOwned, Store.unshared, Table.empty],
      by simp [Store.AvailableWhileStored, Store.unshared, Table.empty]⟩ moves

/-- From a store nobody has shared from yet, and while the rows it asks for fit into one
batch, the listing of the purge returns every share that is over and has ciphertext, in
every state of a run, exactly if no move of the run takes one out of its reach. -/
theorem purgeReaches_iff_keepsReach
    (db : Accounts.Database) (objects : Objects) (settings : InstanceSettings)
    (clock : DateTime) (moves : List ShareMove)
    (fits : EveryState shareRequests.system
      (fun pool => pool.shared.WithinBatch pool.shared.clock)
      ⟨.unshared db objects settings clock, []⟩ moves) :
    EveryState shareRequests.system (fun pool => pool.shared.PurgeReaches)
        ⟨.unshared db objects settings clock, []⟩ moves ↔
      EveryStepAllowed shareRequests.system KeepsReach
        ⟨.unshared db objects settings clock, []⟩ moves := by
  rw [← available_iff_keepsReach]
  exact everyState_congr (fun _ => Store.purgeReaches_iff) fits

/-- One user with one vault. -/
def oneVault : Accounts.Database where
  users := .empty
  mindMaps := .insert .empty (Vault.createMindMap "m1" "u1" "m1"
    { titleEncrypted := "title", ephClassicalPublic := "eph", ephPqCiphertext := "pq",
      wrappedDek := "dek" } 0) (by simp [Table.empty])
  attachments := .empty
  unlockMethods := .empty

/-- A share of the whole vault, until a given time. -/
def shareRequest (expiresAt : Option DateTime) : CreateMapShareRequest where
  name := "plan"
  scope := .map
  includeAttachments := false
  passphraseHint := none
  expiresAt := expiresAt
  contentType := "application/octet-stream"
  sizeBytes := 1
  encryptionMeta := some .null

/-- A share that is uploaded and completed expires, and the purge empties it. -/
def expiringShare : List ShareMove :=
  [.spawn (.createShare "u1" "m1" "s1" (shareRequest (some 1))), .advance 0 .read,
    .advance 0 (.write .done (.storage "")),
    .spawn (.uploadShareBlob "u1" "m1" "s1" [1]),
    .advance 1 (.write .done (.storage "")),
    .spawn (.completeShareUpload "u1" "m1" "s1" ⟨"", none⟩), .advance 2 .read,
    .advance 2 (.write .done (.storage "")), .outside 2,
    .spawn .purgeExpiredShares, .advance 3 .read, .advance 3 (.write .done (.storage "")),
    .advance 3 (.write .done (.storage ""))]

theorem purgeReaches_iff_keepsReach_expiringShare :
    EveryState shareRequests.system (fun pool => pool.shared.PurgeReaches)
      ⟨.unshared oneVault (fun _ => none) ⟨0, 0⟩ 0, []⟩ expiringShare :=
  (purgeReaches_iff_keepsReach oneVault (fun _ => none) ⟨0, 0⟩ 0 expiringShare
    (by decide)).mpr (by decide)

/-- A share that does not expire is created, uploaded and completed. -/
def uploadedShare : List ShareMove :=
  [.spawn (.createShare "u1" "m1" "s1" (shareRequest none)), .advance 0 .read,
    .advance 0 (.write .done (.storage "")), .spawn (.uploadShareBlob "u1" "m1" "s1" [1]),
    .advance 1 (.write .done (.storage "")),
    .spawn (.completeShareUpload "u1" "m1" "s1" ⟨"", none⟩), .advance 2 .read,
    .advance 2 (.write .done (.storage ""))]

/-- The owner revokes a share, and the store refuses to delete its blob: the row is
revoked, the blob stays, and no listing returns it any more. -/
theorem failed_revocation_keeps_ciphertext :
    ¬ ∀ db objects settings clock moves,
      EveryState shareRequests.system (fun pool => pool.shared.PurgeReaches)
        ⟨.unshared db objects settings clock, []⟩ moves := by
  intro always
  have reached := always oneVault (fun _ => none) ⟨0, 0⟩ 0
    (uploadedShare ++
      [.spawn (.revokeShare "u1" "m1" "s1"), .advance 3 (.write .done (.storage "")),
        .advance 3 .read, .advance 3 (.write .refused (.storage "timeout"))])
  revert reached
  decide

end Shares
end MindMapVault
