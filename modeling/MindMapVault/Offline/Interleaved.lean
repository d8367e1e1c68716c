import MindMapVault.Foundations.Threads
import MindMapVault.Offline.Drain

/-!
# Drains and resolutions running together

The calls of one adapter, interleaved at every `await`: each request to the server and
each transaction on the queue is one action. The shared state carries two records beside
the queue and the flag: which entries the server has carried out, in order, and which
the user gave up in a conflict.
-/

namespace MindMapVault
namespace Offline

open Remote (Outcome)

/-- What the calls of an adapter share. -/
structure SyncShared where
  queue : SyncQueue
  draining : Bool
  executed : List Nat
  discarded : List Nat

/-- The number of an entry the queue has. -/
def SyncQueue.Queued (queue : SyncQueue) (seq : Nat) : Prop :=
  ∃ entry ∈ queue.entries.rows, entry.seq = seq

instance (queue : SyncQueue) (seq : Nat) : Decidable (queue.Queued seq) :=
  List.decidableBEx (fun entry : SyncQueueEntry => entry.seq = seq) _

namespace SyncQueue

variable {queue : SyncQueue} {seq other : Nat}

theorem queued_enqueue {op : SyncOp} {vaultId : String} :
    (queue.enqueue op vaultId).Queued seq ↔ queue.Queued seq ∨ seq = queue.nextSeq := by
  unfold Queued enqueue
  constructor
  · rintro ⟨entry, present, rfl⟩
    rcases (Table.mem_rows_insert queue.nextSeq_new).mp present with old | rfl
    · exact .inl ⟨entry, old, rfl⟩
    · exact .inr rfl
  · rintro (⟨entry, old, same⟩ | rfl)
    · exact ⟨entry, (Table.mem_rows_insert queue.nextSeq_new).mpr (.inl old), same⟩
    · exact ⟨_, (Table.mem_rows_insert queue.nextSeq_new).mpr (.inr rfl), rfl⟩

theorem queued_dequeue :
    (queue.dequeue seq).Queued other ↔ queue.Queued other ∧ other ≠ seq := by
  unfold Queued dequeue
  constructor
  · rintro ⟨entry, present, rfl⟩
    obtain ⟨old, differs⟩ := Table.mem_rows_delete.mp present
    exact ⟨⟨entry, old, rfl⟩, by simpa using differs⟩
  · rintro ⟨⟨entry, old, rfl⟩, differs⟩
    exact ⟨entry, Table.mem_rows_delete.mpr ⟨old, by simpa using differs⟩, rfl⟩

theorem mem_incrementAttempts {entry : SyncQueueEntry} :
    entry ∈ (queue.incrementAttempts seq).entries.rows ↔
      ∃ old ∈ queue.entries.rows,
        (if old.seq == seq then retried old else old) = entry := List.mem_map

theorem queued_incrementAttempts :
    (queue.incrementAttempts seq).Queued other ↔ queue.Queued other := by
  have keys : (queue.incrementAttempts seq).entries.rows.map SyncQueueEntry.seq =
      queue.entries.rows.map SyncQueueEntry.seq :=
    Table.keys_update _ _ retried retried_seq
  have listed (rows : List SyncQueueEntry) :
      (∃ entry ∈ rows, entry.seq = other) ↔ other ∈ rows.map SyncQueueEntry.seq :=
    List.mem_map.symm
  rw [Queued, Queued, listed, listed, keys]

end SyncQueue

/-- Every entry was carried out once at most, and every entry that is not queued any more
was carried out or given up. -/
def SyncShared.OnceEach (shared : SyncShared) : Prop :=
  shared.executed.Nodup ∧ ∀ seq < shared.queue.nextSeq, 0 < seq →
    shared.queue.Queued seq ∨ seq ∈ shared.executed ∨ seq ∈ shared.discarded

instance (shared : SyncShared) : Decidable shared.OnceEach :=
  inferInstanceAs (Decidable (_ ∧ _))

/-- Why a call executes entries: it drains the queue, or keeps the local edits of a
vault in conflict. -/
inductive Purpose
  | drain
  | keepLocal
  deriving DecidableEq

/-- What comes next for the entry a call is at. -/
inductive Stage
  | checking
  | sending
  | refreshing
  | dequeuing
  | failed
  | counted
  | dropping
  deriving DecidableEq

/-- What a call still has to do. -/
inductive SyncCall
  | guarded
  | loaded (queue : List SyncQueueEntry)
  | resolving (vaultId : String)
  | looping (purpose : Purpose) (rest : List SyncQueueEntry)
  | working (purpose : Purpose) (stage : Stage) (entry : SyncQueueEntry)
      (rest : List SyncQueueEntry)
  | discarding (vaultId : String)
  | clearing (rest : List SyncQueueEntry)
  | finished
  deriving DecidableEq

/-- The choice a user makes in a conflict. -/
inductive ConflictChoice
  | keepLocal
  | keepServer
  deriving DecidableEq

/-- A call that starts. -/
inductive SyncRequest
  | drainSyncQueue
  | resolveConflict (vaultId : String) (choice : ConflictChoice)
  deriving DecidableEq

/-- An edit made offline. -/
structure Enqueue where
  op : SyncOp
  vaultId : String
  deriving DecidableEq

/-- What one action goes by: the queue or the flag alone, the answer to the version
check, the outcome of the write, or whether the detail was answered. -/
inductive SyncAct
  | step
  | checked (answer : Check)
  | requested (outcome : Outcome)
  | refreshed (answered : Bool)
  deriving DecidableEq

namespace SyncCall

/-- The first thing a call does about an entry. `resolveConflict` asks for no version. -/
def enter (purpose : Purpose) (entry : SyncQueueEntry) (rest : List SyncQueueEntry) : SyncCall :=
  match purpose, entry.op with
  | .drain, .uploadBlob _ => .working purpose .checking entry rest
  | .drain, .updateVault _ | .drain, .updateMeta _ | .keepLocal, _ =>
      .working purpose .sending entry rest

/-- The write was answered: an upload asks for the vault's detail first. -/
def answered (purpose : Purpose) (entry : SyncQueueEntry) (rest : List SyncQueueEntry) : SyncCall :=
  match entry.op with
  | .uploadBlob _ => .working purpose .refreshing entry rest
  | .updateVault _ | .updateMeta _ => .working purpose .dequeuing entry rest

/-- The `catch`: a drain counts the failure, a resolution goes on. -/
def caught (purpose : Purpose) (entry : SyncQueueEntry) (rest : List SyncQueueEntry) : SyncCall :=
  match purpose with
  | .drain => .working .drain .failed entry rest
  | .keepLocal => .looping .keepLocal rest

end SyncCall

namespace SyncShared

/-- The record of a write: whatever was not refused the server has carried out. -/
def record (shared : SyncShared) (outcome : Outcome) (seq : Nat) : SyncShared :=
  { shared with
    executed := outcome.applied (· ++ [seq]) shared.executed }

end SyncShared

/-- `drainSyncQueue` returns at once while another drain is running: all calls are those of
one window, which has the flag for itself. -/
def spawnSync (shared : SyncShared) : SyncRequest → Option (SyncShared × SyncCall)
  | .drainSyncQueue => if shared.draining then none else some (shared, .guarded)
  | .resolveConflict vaultId .keepLocal => some (shared, .resolving vaultId)
  | .resolveConflict vaultId .keepServer => some (shared, .discarding vaultId)

/-- The next action of a call. -/
def advanceSync (shared : SyncShared) :
    SyncCall → SyncAct → Option (SyncShared × SyncCall)
  | .guarded, .step => some (shared, .loaded shared.queue.entries.rows)
  | .loaded [], .step => some (shared, .finished)
  | .loaded (entry :: rest), .step =>
      some ({ shared with draining := true }, .looping .drain (entry :: rest))
  | .resolving vaultId, .step =>
      some (shared, .looping .keepLocal (shared.queue.ofVault vaultId))
  | .looping .drain [], .step => some ({ shared with draining := false }, .finished)
  | .looping .keepLocal [], .step => some (shared, .finished)
  | .looping purpose (entry :: rest), .step =>
      some (shared, .enter purpose entry rest)
  | .working purpose .checking entry rest, .checked .clear =>
      some (shared, .working purpose .sending entry rest)
  | .working purpose .checking _ rest, .checked .conflict =>
      some (shared, .looping purpose rest)
  | .working purpose .checking entry rest, .checked .failed =>
      some (shared, .caught purpose entry rest)
  | .working purpose .sending entry rest, .requested outcome =>
      some (shared.record outcome entry.seq,
        if outcome.reported then .answered purpose entry rest
        else .caught purpose entry rest)
  | .working purpose .refreshing entry rest, .refreshed answered =>
      some (shared,
        if answered then .working purpose .dequeuing entry rest
        else .caught purpose entry rest)
  | .working purpose .dequeuing entry rest, .step =>
      some ({ shared with queue := shared.queue.dequeue entry.seq }, .looping purpose rest)
  | .working purpose .failed entry rest, .step =>
      some ({ shared with queue := shared.queue.incrementAttempts entry.seq },
        .working purpose .counted entry rest)
  | .working purpose .counted entry rest, .step =>
      some (shared,
        if (shared.queue.entries.find? entry.seq).any (3 ≤ ·.attempts) then
          .working purpose .dropping entry rest
        else .looping purpose rest)
  | .working purpose .dropping entry rest, .step =>
      some ({ shared with queue := shared.queue.dequeue entry.seq }, .looping purpose rest)
  | .discarding vaultId, .step =>
      some (shared, .clearing (shared.queue.ofVault vaultId))
  | .clearing (entry :: rest), .step =>
      some
        ({ shared with
            queue := shared.queue.dequeue entry.seq
            discarded := shared.discarded ++ [entry.seq] },
          .clearing rest)
  | .clearing [], .step => some (shared, .finished)
  | _, _ => none

/-- The adapter. -/
def syncProgram : Threads.Program SyncShared SyncCall Enqueue SyncRequest SyncAct where
  outside := fun shared edit =>
    some { shared with queue := shared.queue.enqueue edit.op edit.vaultId }
  spawn := spawnSync
  advance := advanceSync

/-- Nothing was queued yet and nothing runs. -/
def startSync : Threads.Pool SyncShared SyncCall where
  shared := { queue := .empty, draining := false, executed := [], discarded := [] }
  threads := []

end Offline
end MindMapVault
