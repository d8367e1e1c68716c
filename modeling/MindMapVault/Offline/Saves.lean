import MindMapVault.Offline.Drain
import MindMapVault.Vault.Upload

/-!
# Draining the saves of one vault

Saving a vault offline queues its envelope and the upload of its blob. Every upload
queued before the next drain names the same version, the one the device had cached, and
sends the same bytes, the last ones cached. The first upload of a drain moves the server
on from that version, so from the second on they are in conflict with the first.
-/

namespace MindMapVault
namespace Offline

open Vault (Bytes UpsertMindMapRequest VaultState CurrentIs UnusedVersionId
  contentUpdate validateUpsert)

/-- What a save sends: the new envelope, and the blob sealed under it. -/
structure OfflineSave where
  body : UpsertMindMapRequest
  blob : Bytes
  deriving DecidableEq

/-- A save the server accepts. -/
def OfflineSave.Accepted (save : OfflineSave) : Prop :=
  validateUpsert save.body = .ok () ∧ save.blob ≠ []

namespace Device

/-- The version the cached blob of a vault is known as. -/
def cachedVersion (device : Device) (vaultId : String) : Option String :=
  (device.blobs vaultId).bind (·.versionId)

/-- Saving a vault while offline. -/
def save (vaultId : String) (device : Device) (save : OfflineSave) : Device :=
  (device.updateVault vaultId save.body).uploadBlob vaultId save.blob

@[simp] theorem save_cachedVersion
    (device : Device) (vaultId : String) (saved : OfflineSave) :
    (device.save vaultId saved).cachedVersion vaultId = device.cachedVersion vaultId := by
  simp [save, cachedVersion, updateVault, uploadBlob, setBlob]

@[simp] theorem save_nextSeq
    (device : Device) (vaultId : String) (saved : OfflineSave) :
    (device.save vaultId saved).queue.nextSeq = device.queue.nextSeq + 2 := rfl

end Device

/-- The entries a sequence of saves queues. -/
def queuedSaves (vaultId : String) (baseVersionId : Option String) :
    Nat → List OfflineSave → List SyncQueueEntry
  | _, [] => []
  | seq, save :: rest =>
      ⟨seq, .updateVault save.body, vaultId, 0⟩ ::
        ⟨seq + 1, .uploadBlob baseVersionId, vaultId, 0⟩ ::
          queuedSaves vaultId baseVersionId (seq + 2) rest

/-- Every upload names the version that was cached before the first save. -/
theorem entries_saves (vaultId : String) (saves : List OfflineSave) (device : Device) :
    (saves.foldl (Device.save vaultId) device).queue.entries.rows =
      device.queue.entries.rows ++
        queuedSaves vaultId (device.cachedVersion vaultId) device.queue.nextSeq saves := by
  induction saves generalizing device with
  | nil => simp [queuedSaves]
  | cons save rest ih =>
      rw [List.foldl_cons, ih, Device.save_cachedVersion, Device.save_nextSeq]
      simp [queuedSaves, Device.save, Device.updateVault, Device.uploadBlob,
        Device.setBlob, Device.cachedVersion, SyncQueue.enqueue, Table.insert]

/-- What is cached are the bytes of the last save. -/
theorem content_saves (vaultId : String) (saves : List OfflineSave) (device : Device)
    {last : OfflineSave} (saved : last ∈ saves.getLast?) :
    ((saves.foldl (Device.save vaultId) device).blobs vaultId).map (·.buf) = some last.blob := by
  obtain ⟨before, rfl⟩ := List.getLast?_eq_some_iff.mp saved
  rw [List.foldl_concat]
  simp [Device.save, Device.updateVault, Device.uploadBlob, Device.setBlob]

/-- A drain that has met a conflict stays in conflict. -/
theorem Drain.conflictEntries_entries
    (calls : Nat → EntryCalls) (queue : List SyncQueueEntry) {drain : Drain}
    (met : drain.conflictEntries ≠ []) :
    (drain.entries calls queue).conflictEntries ≠ [] := by
  induction queue generalizing drain with
  | nil => exact met
  | cons entry queue ih =>
      rw [entries_cons]
      apply ih
      unfold Drain.entry
      split
      · simp
      · exact met
      · simp only
        split_ifs
        · exact met
        · exact met

theorem Drain.status_state_eq_conflict {drain : Drain} :
    drain.status.state = .conflict ↔ drain.conflictEntries ≠ [] := by
  unfold Drain.status
  cases drain.conflictEntries with
  | nil => simp only [ne_eq, not_true, iff_false]; split_ifs <;> simp
  | cons first rest => simp

/-- A drain that has met no conflict yet: the vault it writes, the bytes it uploads, and
the entries that are left. -/
structure Draining (drain : Drain) (vaultId : String) (vault : VaultState)
    (content : Bytes) (remaining : List SyncQueueEntry) : Prop where
  clear : drain.conflictEntries = []
  stored : drain.server vaultId = some vault
  cached : (drain.copies vaultId).content = some content
  queued : ∀ entry ∈ drain.device.queue.entries.rows, entry ∈ remaining

namespace Draining

variable {calls : EntryCalls} {drain : Drain} {vaultId : String} {vault after : VaultState}
variable {content : Bytes} {remaining : List SyncQueueEntry} {entry : SyncQueueEntry}

/-- An entry that is executed leaves the queue. -/
theorem executed (draining : Draining drain vaultId vault content (entry :: remaining))
    (sameVault : entry.vaultId = vaultId)
    (unblocked : checkEntry calls (some vault) entry.op = .clear)
    (succeeded : (executeQueueEntry calls (drain.copies vaultId) entry.op).1 = true)
    (written : (executeQueueEntry calls (drain.copies vaultId) entry.op).2.vault = some after)
    (kept : (executeQueueEntry calls (drain.copies vaultId) entry.op).2.content = some content) :
    Draining (drain.entry calls entry) vaultId after content remaining := by
  subst sameVault
  have moved : drain.entry calls entry =
      (drain.withCopies entry.vaultId
        (executeQueueEntry calls (drain.copies entry.vaultId) entry.op).2).dequeue entry.seq := by
    simp only [Drain.entry, draining.stored, unblocked, succeeded, if_true]
  have copies := Drain.copies_withCopies drain entry.vaultId entry.vaultId
    (executeQueueEntry calls (drain.copies entry.vaultId) entry.op).2
  rw [if_pos rfl] at copies
  rw [moved]
  refine ⟨draining.clear, ?_, ?_, ?_⟩
  · exact (congrArg Copies.vault copies).trans written
  · exact (congrArg Copies.content copies).trans kept
  · intro other present
    obtain ⟨inQueue, differs⟩ := Table.mem_rows_delete.mp present
    rcases List.mem_cons.mp (draining.queued other inQueue) with rfl | later
    · simp at differs
    · exact later

/-- An envelope that is accepted is written to the row. -/
theorem updateVault {body : UpsertMindMapRequest}
    (draining : Draining drain vaultId vault content (entry :: remaining))
    (sameVault : entry.vaultId = vaultId) (queuedOp : entry.op = .updateVault body)
    (answered : calls.Answered) (accepted : validateUpsert body = .ok ()) :
    Draining (drain.entry calls entry) vaultId
      { vault with row := vault.row.updateContent (contentUpdate body calls.now) }
      content remaining := by
  have stored : (drain.copies vaultId).vault = some vault := draining.stored
  apply draining.executed sameVault
  · rw [queuedOp]
    rfl
  · simp [queuedOp, executeQueueEntry, request, stored, Vault.updateMindMap, accepted,
      answered.request, Remote.Outcome.reported, Except.isOk, Except.toBool]
  · simp [queuedOp, executeQueueEntry, request, stored, Vault.updateMindMap, accepted,
      answered.request]
  · rw [queuedOp]
    exact draining.cached

/-- An upload that meets no conflict leaves what the handler leaves. -/
theorem uploadBlob {baseVersionId : Option String}
    (draining : Draining drain vaultId vault content (entry :: remaining))
    (sameVault : entry.vaultId = vaultId) (queuedOp : entry.op = .uploadBlob baseVersionId)
    (answered : calls.Answered) (fresh : isStale baseVersionId vault.row.normalizedCurrent = false)
    (unused : UnusedVersionId vault.row calls.minted) (nonempty : content ≠ []) :
    Draining (drain.entry calls entry) vaultId
      (Vault.uploadBlob vault calls.minted content calls.now).vault content
      remaining := by
  obtain ⟨cached, held, rfl⟩ := Option.map_eq_some_iff.mp draining.cached
  obtain ⟨returned, kept, written⟩ :=
    executeQueueEntry_uploadBlob calls held draining.stored baseVersionId
  obtain ⟨succeeds, _⟩ := Vault.uploadBlob_unused vault unused nonempty calls.now
  apply draining.executed sameVault
  · rw [queuedOp, checkEntry_uploadBlob_eq_clear]
    exact ⟨answered.check, fresh⟩
  · rw [queuedOp, returned, succeeds, answered.request, answered.refresh]
    rfl
  · rw [queuedOp, written, answered.request]
    rfl
  · rw [queuedOp, kept]

/-- The two entries of a save that meets no conflict make it the current version, under
its own envelope. -/
theorem save {calls : Nat → EntryCalls} {baseVersionId : Option String} {seq : Nat}
    {saved : OfflineSave} {rest : List OfflineSave}
    (draining : Draining drain vaultId vault content
      (queuedSaves vaultId baseVersionId seq (saved :: rest)))
    (answered : ∀ entry ∈ queuedSaves vaultId baseVersionId seq (saved :: rest),
      (calls entry.seq).Answered)
    (accepted : validateUpsert saved.body = .ok ()) (nonempty : content ≠ [])
    (fresh : isStale baseVersionId vault.row.normalizedCurrent = false)
    (unused : UnusedVersionId vault.row (calls (seq + 1)).minted) :
    ∃ after,
      Draining
        ((drain.entry (calls seq) ⟨seq, .updateVault saved.body, vaultId, 0⟩).entry
          (calls (seq + 1)) ⟨seq + 1, .uploadBlob baseVersionId, vaultId, 0⟩)
        vaultId after content (queuedSaves vaultId baseVersionId (seq + 2) rest) ∧
      CurrentIs after content ∧ after.row.envelope = saved.body.envelope ∧
      after.row.normalizedCurrent = some (calls (seq + 1)).minted ∧
      ∀ other, other ≠ (calls (seq + 1)).minted →
        UnusedVersionId vault.row other → UnusedVersionId after.row other := by
  have first := draining.updateVault rfl rfl (answered _ List.mem_cons_self) accepted
  have stillUnused := unused.updateContent (contentUpdate saved.body (calls seq).now)
  have second := first.uploadBlob rfl rfl
    (answered _ (List.mem_cons_of_mem _ List.mem_cons_self)) fresh stillUnused nonempty
  obtain ⟨_, current, written⟩ :=
    Vault.uploadBlob_unused
      { vault with row := vault.row.updateContent (contentUpdate saved.body (calls seq).now) }
      stillUnused nonempty (calls (seq + 1)).now
  refine ⟨_, second, current, ?_, ?_, ?_⟩
  · rw [written]
    rfl
  · rw [written]
    exact stillUnused.normalizedCurrent_recordVersion _ _
  · intro other differs otherUnused
    rw [written]
    exact stillUnused.recordVersion_other _ _ (otherUnused.updateContent _) differs

/-- Saves queued without a version to compare arrive one after the other. -/
theorem saves {calls : Nat → EntryCalls} {saves : List OfflineSave} {seq : Nat}
    (draining : Draining drain vaultId vault content (queuedSaves vaultId none seq saves))
    (answered : ∀ entry ∈ queuedSaves vaultId none seq saves, (calls entry.seq).Answered)
    (accepted : ∀ saved ∈ saves, validateUpsert saved.body = .ok ()) (nonempty : content ≠ [])
    (unused : ∀ entry ∈ queuedSaves vaultId none seq saves,
      UnusedVersionId vault.row (calls entry.seq).minted)
    (distinct : ((queuedSaves vaultId none seq saves).map
      fun entry => (calls entry.seq).minted).Nodup) :
    ∃ after,
      Draining (drain.entries calls (queuedSaves vaultId none seq saves)) vaultId after content [] ∧
      ∀ last ∈ saves.getLast?,
        CurrentIs after content ∧ after.row.envelope = last.body.envelope := by
  induction saves generalizing drain vault seq with
  | nil => exact ⟨vault, draining, by simp⟩
  | cons saved rest ih =>
      obtain ⟨middle, moved, current, envelope, _, others⟩ := draining.save answered
        (accepted saved List.mem_cons_self) nonempty rfl
        (unused _ (List.mem_cons_of_mem _ List.mem_cons_self))
      simp only [queuedSaves, List.map_cons, List.nodup_cons, List.mem_cons, not_or] at distinct
      have inTail {entry : SyncQueueEntry}
          (present : entry ∈ queuedSaves vaultId none (seq + 2) rest) :
          entry ∈ queuedSaves vaultId none seq (saved :: rest) := by
        simp [queuedSaves, present]
      obtain ⟨after, arrived, atEnd⟩ := ih moved
        (fun entry present => answered entry (inTail present))
        (fun other present => accepted other (List.mem_cons_of_mem _ present))
        (fun entry present => others _
          (fun same => distinct.2.1 (same ▸ List.mem_map_of_mem present))
          (unused entry (inTail present)))
        distinct.2.2
      refine ⟨after, arrived, fun last isLast => ?_⟩
      cases rest with
      | nil =>
          cases Option.some.inj isLast
          cases Option.some.inj (moved.stored.symm.trans arrived.stored)
          exact ⟨current, envelope⟩
      | cons next later => exact atEnd last (by simpa using isLast)

/-- The second of two saves that name the version both started from is in conflict with
the first. -/
theorem save_conflict {calls : Nat → EntryCalls} {baseVersionId : String} {seq : Nat}
    {first second : OfflineSave} {rest : List OfflineSave}
    (draining : Draining drain vaultId vault content
      (queuedSaves vaultId (some baseVersionId) seq (first :: second :: rest)))
    (current : vault.row.normalizedCurrent = some baseVersionId)
    (answered : ∀ entry ∈
      queuedSaves vaultId (some baseVersionId) seq (first :: second :: rest),
        (calls entry.seq).Answered)
    (accepted : ∀ saved ∈ first :: second :: rest, validateUpsert saved.body = .ok ())
    (nonempty : content ≠ [])
    (unused : UnusedVersionId vault.row (calls (seq + 1)).minted) :
    (drain.entries calls (queuedSaves vaultId (some baseVersionId) seq
      (first :: second :: rest))).conflictEntries ≠ [] := by
  have same : isStale (some baseVersionId) vault.row.normalizedCurrent = false := by
    simp [isStale, current]
  obtain ⟨middle, moved, _, _, minted, _⟩ := draining.save answered
    (accepted first (by simp)) nonempty same unused
  have secondAnswered : ∀ entry ∈
      queuedSaves vaultId (some baseVersionId) (seq + 2) (second :: rest),
        (calls entry.seq).Answered := fun entry present =>
    answered entry (List.mem_cons_of_mem _ (List.mem_cons_of_mem _ present))
  have written := moved.updateVault rfl rfl (secondAnswered _ List.mem_cons_self)
    (accepted second (by simp))
  have uploadAnswered := secondAnswered _ (List.mem_cons_of_mem _ List.mem_cons_self)
  have stale : isStale (some baseVersionId)
      (some (calls (seq + 1)).minted) = true := by
    have differs := unused.inactive
    rw [current] at differs
    simpa [isStale] using differs
  apply Drain.conflictEntries_entries calls (queuedSaves vaultId _ (seq + 2 + 2) rest)
  rw [Drain.conflictEntries_entry]
  · simp
  · rw [written.stored]
    refine checkEntry_uploadBlob_eq_conflict uploadAnswered.check ?_
    rw [← minted] at stale
    exact stale

end Draining

/-- After the drain there is no conflict and nothing left to send, and the server answers
the blob of the last save, under the envelope of that save. -/
def SavesArrive (drain : Drain) (vaultId : String) (saves : List OfflineSave) : Prop :=
  drain.status.state ≠ .conflict ∧ drain.device.queue.entries.rows = [] ∧
    ∀ last ∈ saves.getLast?, ∃ vault, drain.server vaultId = some vault ∧
      CurrentIs vault last.blob ∧ vault.row.envelope = last.body.envelope

theorem Draining.arrive
    {drain : Drain} {vaultId : String} {vault : VaultState} {saves : List OfflineSave}
    {last : OfflineSave} (drained : Draining drain vaultId vault last.blob [])
    (isLast : saves.getLast? = some last) (current : CurrentIs vault last.blob)
    (envelope : vault.row.envelope = last.body.envelope) :
    SavesArrive drain vaultId saves := by
  refine ⟨?_, List.eq_nil_iff_forall_not_mem.mpr fun entry present => ?_, ?_⟩
  · rw [ne_eq, Drain.status_state_eq_conflict, not_not]
    exact drained.clear
  · exact absurd (drained.queued entry present) List.not_mem_nil
  · intro other isOther
    cases isLast.symm.trans isOther
    exact ⟨vault, drained.stored, current, envelope⟩

/-- Saves of a vault nobody else writes, by a device that has sent everything else. The
server accepts every save and answers every call, and it mints ids no version ever had. -/
structure UndisturbedSaves (calls : Nat → EntryCalls) (device : Device)
    (server : String → Option VaultState) (vaultId : String) (vault : VaultState)
    (saves : List OfflineSave) : Prop where
  sent : device.queue.entries.rows = []
  stored : server vaultId = some vault
  untouched : ∀ versionId ∈ device.cachedVersion vaultId,
    vault.row.normalizedCurrent = some versionId
  accepted : ∀ save ∈ saves, save.Accepted
  answered : ∀ entry ∈ (saves.foldl (Device.save vaultId) device).queue.entries.rows,
    (calls entry.seq).Answered
  unused : ∀ entry ∈ (saves.foldl (Device.save vaultId) device).queue.entries.rows,
    UnusedVersionId vault.row (calls entry.seq).minted
  distinct : ((saves.foldl (Device.save vaultId) device).queue.entries.rows.map
    fun entry => (calls entry.seq).minted).Nodup

/-- The saves of a vault nobody else writes arrive exactly when the device had cached no
version of it, or when there is one save at most. -/
theorem savesArrive_iff
    {calls : Nat → EntryCalls} {device : Device} {server : String → Option VaultState}
    {vaultId : String} {vault : VaultState} {saves : List OfflineSave}
    (undisturbed : UndisturbedSaves calls device server vaultId vault saves) :
    SavesArrive (drainSyncQueue calls (saves.foldl (Device.save vaultId) device) server)
        vaultId saves ↔
      device.cachedVersion vaultId = none ∨ saves.length ≤ 1 := by
  obtain ⟨sent, stored, untouched, accepted, answered, unused, distinct⟩ := undisturbed
  have entries := entries_saves vaultId saves device
  rw [sent, List.nil_append] at entries
  rw [entries] at answered unused distinct
  unfold drainSyncQueue
  rw [entries]
  cases saves with
  | nil => simp [SavesArrive, queuedSaves, Drain.status_state_eq_conflict, sent]
  | cons first rest =>
      obtain ⟨last, isLast⟩ : ∃ last, (first :: rest).getLast? = some last :=
        ⟨_, List.getLast?_eq_some_getLast (by simp)⟩
      have lastAccepted := accepted last (List.mem_of_getLast? isLast)
      have bodies : ∀ saved ∈ first :: rest, validateUpsert saved.body = .ok () :=
        fun saved present => (accepted saved present).1
      have start : Draining
          { device := (first :: rest).foldl (Device.save vaultId) device
            server := server, conflictEntries := [], anyError := false }
          vaultId vault last.blob (queuedSaves vaultId (device.cachedVersion vaultId)
            device.queue.nextSeq (first :: rest)) :=
        ⟨rfl, stored, content_saves vaultId _ device isLast, fun entry present => by
          rwa [entries] at present⟩
      cases version : device.cachedVersion vaultId with
      | none =>
          rw [version] at start answered unused distinct
          obtain ⟨after, arrived, atEnd⟩ :=
            start.saves answered bodies lastAccepted.2 unused distinct
          obtain ⟨current, envelope⟩ := atEnd last isLast
          exact iff_of_true (arrived.arrive isLast current envelope) (.inl rfl)
      | some baseVersionId =>
          rw [version] at start answered unused
          have current := untouched baseVersionId version
          have uploadUnused := unused _ (List.mem_cons_of_mem _ List.mem_cons_self)
          cases rest with
          | nil =>
              cases Option.some.inj isLast
              have same : isStale (some baseVersionId) vault.row.normalizedCurrent =
                  false := by
                simp [isStale, current]
              obtain ⟨after, arrived, isCurrent, envelope, _⟩ := start.save answered
                (bodies first List.mem_cons_self) lastAccepted.2 same uploadUnused
              exact iff_of_true (arrived.arrive isLast isCurrent envelope) (.inr (by simp))
          | cons second later =>
              have conflict := start.save_conflict current answered bodies
                lastAccepted.2 uploadUnused
              refine iff_of_false (fun arrives => arrives.1 ?_) (by simp)
              exact Drain.status_state_eq_conflict.mpr conflict

section Samples

/-- A vault at version `v1`. -/
def savedVault : VaultState :=
  (Vault.uploadBlob
    { row := Vault.createMindMap "vault" "user" "user/vault.bin"
        ⟨"title", "classical", "pq", "dek"⟩ 1
      objects := fun _ => none }
    "v1" [1] 2).vault

/-- A device that has cached the vault, under this version. -/
def cachingDevice (versionId : Option String) : Device where
  queue := .empty
  blobs := fun _ => some ⟨[1], versionId⟩

/-- Two saves. -/
def twoSaves : List OfflineSave :=
  [⟨⟨"first", "classical1", "pq1", "dek1"⟩, [2]⟩, ⟨⟨"second", "classical2", "pq2", "dek2"⟩, [3]⟩]

/-- The ids the server mints for the four entries of two saves. -/
def mintedIds (seq : Nat) : String := (["m0", "m1", "m2", "m3", "m4"][seq]?).getD ""

theorem twoSaves_undisturbed
    {versionId : Option String} (cached : ∀ known ∈ versionId, known = "v1") :
    UndisturbedSaves (answeredCalls mintedIds 5) (cachingDevice versionId)
      (fun _ => some savedVault) "vault" savedVault twoSaves := by
  have entries := entries_saves "vault" twoSaves (cachingDevice versionId)
  have created : Vault.Recorded (Vault.createMindMap "vault" "user" "user/vault.bin"
      ⟨"title", "classical", "pq", "dek"⟩ 1) :=
    Vault.recorded_createMindMap "vault" "user" "user/vault.bin"
      ⟨"title", "classical", "pq", "dek"⟩ 1 50
  have valid : Vault.ValidVersionId "v1" := by decide
  have recorded : Vault.Recorded savedVault.row := created.recordVersion valid 2 1
  have minted : ∀ seq ∈ [1, 2, 3, 4], Vault.ValidVersionId (mintedIds seq) ∧
      mintedIds seq ∉ Vault.versionIds savedVault.row.versionHistory := by decide
  refine ⟨rfl, rfl, ?_, ?_, fun entry _ => ⟨rfl, rfl, rfl⟩, ?_, ?_⟩
  · intro known isKnown
    rw [cached known isKnown]
    decide
  · unfold OfflineSave.Accepted
    decide
  · intro entry present
    have numbered : entry.seq ∈ [1, 2, 3, 4] := by
      rw [entries] at present
      exact List.mem_map_of_mem (f := SyncQueueEntry.seq) present
    exact recorded.unused (minted _ numbered).1 (minted _ numbered).2
  · change ["m1", "m2", "m3", "m4"].Nodup
    decide

theorem savesArrive_iff_uncached :
    SavesArrive
      (drainSyncQueue (answeredCalls mintedIds 5)
        (twoSaves.foldl (Device.save "vault") (cachingDevice none))
        fun _ => some savedVault)
      "vault" twoSaves :=
  (savesArrive_iff (twoSaves_undisturbed (by simp))).mpr (.inl rfl)

/-- Two saves of a vault whose version is known are in conflict with each other. -/
theorem second_save_conflicts :
    ¬ ∀ (calls : Nat → EntryCalls) (device : Device)
        (server : String → Option VaultState) (vaultId : String) (vault : VaultState)
        (saves : List OfflineSave),
      UndisturbedSaves calls device server vaultId vault saves →
        SavesArrive
          (drainSyncQueue calls (saves.foldl (Device.save vaultId) device) server)
          vaultId saves := by
  intro always
  have arrives := always _ _ _ _ _ _
    (twoSaves_undisturbed (show ∀ known ∈ some "v1", known = "v1" by simp))
  exact absurd arrives.1 (by decide)

end Samples

end Offline
end MindMapVault
