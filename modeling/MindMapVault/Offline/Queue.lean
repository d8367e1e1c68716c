import MindMapVault.Foundations.Table
import MindMapVault.Vault.Handlers

/-!
# The queue of offline saves

What a client keeps on the device while it is offline: the operations it will replay,
in the order they were queued, and one cached blob a vault with the version it was
last known to be. Saving a vault offline queues the new envelope and, separately, the
upload of whatever the cache will hold by then.
-/

namespace MindMapVault
namespace Offline

open Vault (Bytes UpsertMindMapRequest UpdateVaultMetaRequest)

/-- A queued operation. An upload names the version the device had cached when it was
queued; the bytes stay in the cache. -/
inductive SyncOp
  | updateVault (payload : UpsertMindMapRequest)
  | uploadBlob (baseVersionId : Option String)
  | updateMeta (payload : UpdateVaultMetaRequest)
  deriving DecidableEq

/-- A row of `sync_queue`. -/
structure SyncQueueEntry where
  seq : Nat
  op : SyncOp
  vaultId : String
  attempts : Nat
  deriving DecidableEq

/-- A row of `vault_blobs`. -/
structure CachedBlob where
  buf : Bytes
  versionId : Option String
  deriving DecidableEq

/-- The queue, with the number the next entry gets. -/
structure SyncQueue where
  entries : Table SyncQueueEntry.seq
  nextSeq : Nat
  numbered : ∀ entry ∈ entries.rows, entry.seq < nextSeq

namespace SyncQueue

/-- Nothing is queued. -/
def empty : SyncQueue where
  entries := .empty
  nextSeq := 1
  numbered := by simp [Table.empty]

/-- The number of the next entry is new. -/
theorem nextSeq_new (queue : SyncQueue) :
    queue.nextSeq ∉ queue.entries.rows.map SyncQueueEntry.seq := by
  intro taken
  obtain ⟨entry, present, same⟩ := List.mem_map.mp taken
  have below := queue.numbered entry present
  omega

/-- `enqueue`. -/
def enqueue (queue : SyncQueue) (op : SyncOp) (vaultId : String) : SyncQueue where
  entries := queue.entries.insert
    { seq := queue.nextSeq, op := op, vaultId := vaultId, attempts := 0 }
    queue.nextSeq_new
  nextSeq := queue.nextSeq + 1
  numbered := by
    intro entry present
    rcases (Table.mem_rows_insert queue.nextSeq_new).mp present with old | rfl
    · have below := queue.numbered entry old
      omega
    · exact Nat.lt_succ_self _

/-- `dequeue`. -/
def dequeue (queue : SyncQueue) (seq : Nat) : SyncQueue where
  entries := queue.entries.delete (·.seq == seq)
  nextSeq := queue.nextSeq
  numbered := fun entry present =>
    queue.numbered entry (Table.mem_rows_delete.mp present).1

/-- One more attempt. -/
def retried (entry : SyncQueueEntry) : SyncQueueEntry :=
  { entry with attempts := entry.attempts + 1 }

@[simp] theorem retried_seq (entry : SyncQueueEntry) : (retried entry).seq = entry.seq :=
  rfl

/-- `incrementAttempts`. -/
def incrementAttempts (queue : SyncQueue) (seq : Nat) : SyncQueue where
  entries := queue.entries.update (·.seq == seq) retried retried_seq
  nextSeq := queue.nextSeq
  numbered := by
    intro entry present
    obtain ⟨old, oldPresent, rfl⟩ := Table.mem_rows_update.mp present
    split_ifs
    · exact queue.numbered old oldPresent
    · exact queue.numbered old oldPresent

/-- An entry whose request failed: it is counted, and given up the third time. -/
def failed (queue : SyncQueue) (seq : Nat) : SyncQueue :=
  let refreshed := queue.incrementAttempts seq
  if (refreshed.entries.find? seq).any (3 ≤ ·.attempts) then refreshed.dequeue seq
  else refreshed

end SyncQueue

/-- What the device keeps. -/
structure Device where
  queue : SyncQueue
  blobs : String → Option CachedBlob

namespace Device

/-- `setBlob`. -/
def setBlob (device : Device) (vaultId : String) (blob : CachedBlob) : Device :=
  { device with blobs := Function.update device.blobs vaultId (some blob) }

/-- `updateVault` while offline. -/
def updateVault (device : Device) (vaultId : String) (body : UpsertMindMapRequest) :
    Device :=
  { device with queue := device.queue.enqueue (.updateVault body) vaultId }

/-- `uploadBlob` while offline: the new bytes go under the version that was cached. -/
def uploadBlob (device : Device) (vaultId : String) (blob : Bytes) : Device :=
  let baseVersionId := (device.blobs vaultId).bind (·.versionId)
  let cached := device.setBlob vaultId ⟨blob, baseVersionId⟩
  { cached with queue := cached.queue.enqueue (.uploadBlob baseVersionId) vaultId }

/-- `updateMeta` while offline. -/
def updateMeta (device : Device) (vaultId : String) (body : UpdateVaultMetaRequest) :
    Device :=
  { device with queue := device.queue.enqueue (.updateMeta body) vaultId }

end Device

/-- The version the offline edits started from is not the one the server has. -/
def isStale (baseVersionId serverVersion : Option String) : Bool :=
  baseVersionId.isSome && serverVersion.isSome && baseVersionId != serverVersion

end Offline
end MindMapVault
