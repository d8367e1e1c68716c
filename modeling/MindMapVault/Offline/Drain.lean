import MindMapVault.Foundations.Remote
import MindMapVault.Offline.Queue

/-!
# Draining the queue

`drainSyncQueue` replays what is queued, in order, over the server's vaults. An upload
first asks which version the server has; nothing else does. The drain is taken here on
its own, with every call to the server ending as an environment chooses; what it does to
one vault depends on the entries of that vault only.
-/

namespace MindMapVault
namespace Offline

open Remote (Outcome)
open Vault (Bytes DateTime Reply VaultState updateMindMap updateVaultMeta)

/-- How the calls made for one entry end: whether the version check of an upload is
answered, how the write goes, and whether the detail is answered that an upload asks for
afterwards. The server takes the version it mints and the time from its own. -/
structure EntryCalls where
  check : Bool
  request : Outcome
  refresh : Bool
  minted : String
  now : DateTime
  deriving DecidableEq

/-- Every call is answered. -/
structure EntryCalls.Answered (calls : EntryCalls) : Prop where
  check : calls.check = true
  request : calls.request = .done
  refresh : calls.refresh = true

/-- The calls of a drain during which the server answers everything. -/
def answeredCalls (minted : Nat → String) (now : DateTime) (seq : Nat) : EntryCalls where
  check := true
  request := .done
  refresh := true
  minted := minted seq
  now := now

/-- A vault as the device has cached it and as the server has it. -/
structure Copies where
  cached : Option CachedBlob
  vault : Option VaultState

/-- A write to a vault: whether the client is told that it succeeded, and the vault
afterwards. What the server does not have it cannot write. -/
def request {α : Type} (outcome : Outcome) (handler : VaultState → Reply α) :
    Option VaultState → Bool × Option VaultState
  | none => (false, none)
  | some vault =>
      let reply := handler vault
      (outcome.reported && reply.result.isOk, some (outcome.applied (fun _ => reply.vault) vault))

/-- `executeQueueEntry`: whether it returns, and the copies it leaves behind. An upload
sends what the cache holds and then remembers the version the server gave it. -/
def executeQueueEntry (calls : EntryCalls) (copies : Copies) : SyncOp → Bool × Copies
  | .updateVault payload =>
      let sent := request calls.request
        (updateMindMap · payload calls.minted calls.now) copies.vault
      (sent.1, { copies with vault := sent.2 })
  | .uploadBlob _ =>
      match copies.cached with
      | none => (false, copies)
      | some cached =>
          let sent := request calls.request
            (Vault.uploadBlob · calls.minted cached.buf calls.now) copies.vault
          match sent.2 with
          | some vault =>
              if sent.1 && calls.refresh then
                (true, ⟨some ⟨cached.buf, vault.row.normalizedCurrent⟩, some vault⟩)
              else
                (false, ⟨some cached, some vault⟩)
          | none => (false, ⟨some cached, none⟩)
  | .updateMeta payload =>
      let sent := request calls.request (updateVaultMeta · payload calls.now) copies.vault
      (sent.1, { copies with vault := sent.2 })

/-- The bytes of the cached blob. -/
def Copies.content (copies : Copies) : Option Bytes := copies.cached.map (·.buf)

/-- Executing an upload sends the cached bytes and keeps them. It returns when the
server answered both the upload and the refresh. -/
theorem executeQueueEntry_uploadBlob
    (calls : EntryCalls) {copies : Copies} {cached : CachedBlob} {vault : VaultState}
    (held : copies.cached = some cached) (stored : copies.vault = some vault)
    (baseVersionId : Option String) :
    let reply := Vault.uploadBlob vault calls.minted cached.buf calls.now
    let executed := executeQueueEntry calls copies (.uploadBlob baseVersionId)
    executed.1 = (calls.request.reported && reply.result.isOk && calls.refresh) ∧
      executed.2.content = some cached.buf ∧
        executed.2.vault = some (calls.request.applied (fun _ => reply.vault) vault) := by
  simp only [executeQueueEntry, held, stored, request]
  split_ifs with returned
  · exact ⟨returned.symm, rfl, rfl⟩
  · exact ⟨(Bool.not_eq_true _ ▸ returned).symm, rfl, rfl⟩

/-- What an entry meets before it is executed. -/
inductive Check
  | failed
  | conflict
  | clear
  deriving DecidableEq

/-- The version check, made for uploads only. -/
def checkEntry (calls : EntryCalls) (vault : Option VaultState) : SyncOp → Check
  | .uploadBlob baseVersionId =>
      match vault with
      | some vault =>
          if !calls.check then .failed
          else if isStale baseVersionId vault.row.normalizedCurrent then .conflict
          else .clear
      | none => .failed
  | .updateVault _ | .updateMeta _ => .clear

/-- An upload goes ahead when the server answers and has no other version than the one
the edits started from. -/
theorem checkEntry_uploadBlob_eq_clear
    {calls : EntryCalls} {vault : VaultState} {baseVersionId : Option String} :
    checkEntry calls (some vault) (.uploadBlob baseVersionId) = .clear ↔
      calls.check = true ∧ isStale baseVersionId vault.row.normalizedCurrent = false := by
  unfold checkEntry
  cases answered : calls.check with
  | false => simp
  | true => cases stale : isStale baseVersionId vault.row.normalizedCurrent <;> simp [stale]

theorem checkEntry_uploadBlob_eq_conflict
    {calls : EntryCalls} {vault : VaultState} {baseVersionId : Option String}
    (answered : calls.check = true)
    (stale : isStale baseVersionId vault.row.normalizedCurrent = true) :
    checkEntry calls (some vault) (.uploadBlob baseVersionId) = .conflict := by
  simp [checkEntry, answered, stale]

/-- A drain under way: the device, the vaults of the server, and what the loop has
collected. -/
structure Drain where
  device : Device
  server : String → Option VaultState
  conflictEntries : List SyncQueueEntry
  anyError : Bool

namespace Drain

/-- Both copies of a vault. -/
def copies (drain : Drain) (vaultId : String) : Copies :=
  ⟨drain.device.blobs vaultId, drain.server vaultId⟩

/-- Both copies of a vault are replaced. -/
def withCopies (drain : Drain) (vaultId : String) (copies : Copies) : Drain :=
  { drain with
    device :=
      { drain.device with
        blobs := Function.update drain.device.blobs vaultId copies.cached }
    server := Function.update drain.server vaultId copies.vault }

/-- The entry is done with. -/
def dequeue (drain : Drain) (seq : Nat) : Drain :=
  { drain with
    device := { drain.device with queue := drain.device.queue.dequeue seq } }

/-- The `catch` of the loop. -/
def failed (drain : Drain) (seq : Nat) : Drain :=
  { drain with
    device := { drain.device with queue := drain.device.queue.failed seq }
    anyError := true }

/-- The body of the loop. -/
def entry (calls : EntryCalls) (drain : Drain) (entry : SyncQueueEntry) : Drain :=
  match checkEntry calls (drain.server entry.vaultId) entry.op with
  | .conflict => { drain with conflictEntries := drain.conflictEntries ++ [entry] }
  | .failed => drain.failed entry.seq
  | .clear =>
      let executed := executeQueueEntry calls (drain.copies entry.vaultId) entry.op
      let after := drain.withCopies entry.vaultId executed.2
      if executed.1 then after.dequeue entry.seq else after.failed entry.seq

/-- An entry in conflict is set aside. -/
theorem conflictEntries_entry {calls : EntryCalls} {drain : Drain} {queued : SyncQueueEntry}
    (conflict : checkEntry calls (drain.server queued.vaultId) queued.op = .conflict) :
    (drain.entry calls queued).conflictEntries = drain.conflictEntries ++ [queued] := by
  simp only [Drain.entry, conflict]

/-- The loop over a snapshot of the queue. -/
def entries (calls : Nat → EntryCalls) (drain : Drain) (queue : List SyncQueueEntry) : Drain :=
  queue.foldl (fun drain entry => drain.entry (calls entry.seq) entry) drain

@[simp] theorem entries_nil (calls : Nat → EntryCalls) (drain : Drain) :
    drain.entries calls [] = drain := rfl

@[simp] theorem entries_cons
    (calls : Nat → EntryCalls) (drain : Drain)
    (entry : SyncQueueEntry) (queue : List SyncQueueEntry) :
    drain.entries calls (entry :: queue) =
      (drain.entry (calls entry.seq) entry).entries calls queue := rfl

end Drain

/-- `drainSyncQueue`, with the calls for each entry by its number. -/
def drainSyncQueue (calls : Nat → EntryCalls) (device : Device)
    (server : String → Option VaultState) : Drain :=
  Drain.entries calls
    { device := device, server := server, conflictEntries := [], anyError := false }
    device.queue.entries.rows

/-- The state a client shows. -/
inductive SyncState
  | idle
  | conflict
  | error
  deriving DecidableEq

/-- What is emitted when a drain ends. -/
structure SyncStatus where
  state : SyncState
  pendingCount : Nat
  conflictVaultId : Option String
  deriving DecidableEq

/-- The status a drain ends with. -/
def Drain.status (drain : Drain) : SyncStatus :=
  let remaining := drain.device.queue.entries.rows.length
  match drain.conflictEntries with
  | first :: _ =>
      { state := .conflict
        pendingCount := remaining
        conflictVaultId := some first.vaultId }
  | [] =>
      if drain.anyError && 0 < remaining then
        { state := .error, pendingCount := remaining, conflictVaultId := none }
      else
        { state := .idle, pendingCount := 0, conflictVaultId := none }

/-- An entry of the vault was left in conflict. -/
def Drain.ConflictOn (drain : Drain) (vaultId : String) : Prop :=
  ∃ entry ∈ drain.conflictEntries, entry.vaultId = vaultId

instance (drain : Drain) (vaultId : String) : Decidable (drain.ConflictOn vaultId) :=
  List.decidableBEx (fun queued : SyncQueueEntry => queued.vaultId = vaultId) _

section OneVault

/-- What the loop does to the copies of the vault of an entry. -/
def replayEntry (calls : EntryCalls) (copies : Copies) (op : SyncOp) : Copies :=
  match checkEntry calls copies.vault op with
  | .failed | .conflict => copies
  | .clear => (executeQueueEntry calls copies op).2

theorem replayEntry_of_clear {calls : EntryCalls} {copies : Copies} {op : SyncOp}
    (clear : checkEntry calls copies.vault op = .clear) :
    replayEntry calls copies op = (executeQueueEntry calls copies op).2 := by
  simp only [replayEntry, clear]

theorem replayEntry_of_not_clear {calls : EntryCalls} {copies : Copies} {op : SyncOp}
    (blocked : checkEntry calls copies.vault op ≠ .clear) :
    replayEntry calls copies op = copies := by
  unfold replayEntry
  split
  · rfl
  · rfl
  · exact absurd ‹_› blocked

/-- The entries of one vault, replayed over its copies. -/
def replay (calls : Nat → EntryCalls) (copies : Copies) (queue : List SyncQueueEntry) : Copies :=
  queue.foldl (fun copies entry => replayEntry (calls entry.seq) copies entry.op) copies

@[simp] theorem replay_nil (calls : Nat → EntryCalls) (copies : Copies) :
    replay calls copies [] = copies := rfl

@[simp] theorem replay_cons
    (calls : Nat → EntryCalls) (copies : Copies)
    (entry : SyncQueueEntry) (queue : List SyncQueueEntry) :
    replay calls copies (entry :: queue) =
      replay calls (replayEntry (calls entry.seq) copies entry.op) queue := rfl

namespace Drain

variable {calls : EntryCalls} {drain : Drain} {op : SyncQueueEntry}

theorem copies_withCopies (drain : Drain) (vaultId other : String) (copies : Copies) :
    (drain.withCopies vaultId copies).copies other =
      if other = vaultId then copies else drain.copies other := by
  unfold withCopies Drain.copies
  by_cases same : other = vaultId
  · subst same
    simp
  · simp [same]

@[simp] theorem copies_dequeue (drain : Drain) (seq : Nat) :
    (drain.dequeue seq).copies = drain.copies := rfl

@[simp] theorem copies_failed (drain : Drain) (seq : Nat) :
    (drain.failed seq).copies = drain.copies := rfl

/-- An entry moves the copies of its own vault. -/
theorem copies_entry
    (calls : EntryCalls) (drain : Drain) (queued : SyncQueueEntry) (vaultId : String) :
    (drain.entry calls queued).copies vaultId =
      if queued.vaultId = vaultId then
        replayEntry calls (drain.copies vaultId) queued.op
      else
        drain.copies vaultId := by
  have stands (checked : checkEntry calls (drain.server queued.vaultId) queued.op ≠
      .clear) : (if queued.vaultId = vaultId then
        replayEntry calls (drain.copies vaultId) queued.op
      else drain.copies vaultId) = drain.copies vaultId := by
    split_ifs with same
    · subst same
      exact replayEntry_of_not_clear checked
    · rfl
  unfold Drain.entry
  split
  · rename_i checked
    rw [stands (by simp [checked])]
    rfl
  · rename_i checked
    rw [stands (by simp [checked]), copies_failed]
  · rename_i checked
    have moved : ((drain.withCopies queued.vaultId
        (executeQueueEntry calls (drain.copies queued.vaultId) queued.op).2).copies vaultId) =
        if queued.vaultId = vaultId then
          replayEntry calls (drain.copies vaultId) queued.op
        else
          drain.copies vaultId := by
      rw [copies_withCopies]
      by_cases same : queued.vaultId = vaultId
      · subst same
        have clear : checkEntry calls (drain.copies queued.vaultId).vault queued.op =
            .clear := checked
        rw [if_pos rfl, if_pos rfl, replayEntry_of_clear clear]
      · rw [if_neg (Ne.symm same), if_neg same]
    simp only
    split_ifs at moved ⊢ <;> simpa using moved

/-- A drain does to a vault what the entries of that vault do to it. -/
theorem copies_entries (calls : Nat → EntryCalls) (drain : Drain) (queue : List SyncQueueEntry)
    (vaultId : String) :
    (drain.entries calls queue).copies vaultId =
      replay calls (drain.copies vaultId) (queue.filter (·.vaultId = vaultId)) := by
  induction queue generalizing drain with
  | nil => rfl
  | cons queued queue ih =>
      rw [entries_cons, ih, copies_entry]
      by_cases same : queued.vaultId = vaultId
      · simp [same]
      · simp [same]

end Drain

/-- The entries queued for one vault. -/
def SyncQueue.ofVault (queue : SyncQueue) (vaultId : String) : List SyncQueueEntry :=
  queue.entries.rows.filter (·.vaultId = vaultId)

theorem copies_drainSyncQueue (calls : Nat → EntryCalls) (device : Device)
    (server : String → Option VaultState) (vaultId : String) :
    (drainSyncQueue calls device server).copies vaultId =
      replay calls ⟨device.blobs vaultId, server vaultId⟩ (device.queue.ofVault vaultId) :=
  Drain.copies_entries calls _ _ vaultId

end OneVault

end Offline
end MindMapVault
