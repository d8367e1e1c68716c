import MindMapVault.Offline.Drain

/-!
# A drain that ends in a conflict

Only uploads ask for the server's version. The envelope and the metadata queued with
them are written without asking, so that a vault left in conflict is as it was exactly
when those writes say nothing new and no upload got past the check.
-/

namespace MindMapVault
namespace Offline

open Remote (Outcome)
open Vault (Bytes DateTime Envelope StoredMindMap VaultState validateUpsert)

section Patches

/-- The value last written to each column of a row, for the columns written at all. -/
structure RowPatch where
  titleEncrypted : Option String := none
  envelope : Option Envelope := none
  updatedAt : Option DateTime := none
  vaultColor : Option String := none
  vaultNoteEncrypted : Option String := none
  vaultEncryptionMode : Option String := none
  maxVersions : Option Nat := none
  vaultLabels : Option (List String) := none
  deriving DecidableEq

namespace RowPatch

/-- Write the columns of a patch. -/
def apply (patch : RowPatch) (row : StoredMindMap) : StoredMindMap :=
  let envelope := patch.envelope.getD row.envelope
  { row with
    titleEncrypted := patch.titleEncrypted.getD row.titleEncrypted
    ephClassicalPublic := envelope.ephClassicalPublic
    ephPqCiphertext := envelope.ephPqCiphertext
    wrappedDek := envelope.wrappedDek
    updatedAt := patch.updatedAt.getD row.updatedAt
    vaultColor := patch.vaultColor.or row.vaultColor
    vaultNoteEncrypted := patch.vaultNoteEncrypted.or row.vaultNoteEncrypted
    vaultEncryptionMode := patch.vaultEncryptionMode.getD row.vaultEncryptionMode
    maxVersions := patch.maxVersions.getD row.maxVersions
    vaultLabels := patch.vaultLabels.getD row.vaultLabels }

/-- Two patches, one after the other. -/
def andThen (first second : RowPatch) : RowPatch where
  titleEncrypted := second.titleEncrypted.or first.titleEncrypted
  envelope := second.envelope.or first.envelope
  updatedAt := second.updatedAt.or first.updatedAt
  vaultColor := second.vaultColor.or first.vaultColor
  vaultNoteEncrypted := second.vaultNoteEncrypted.or first.vaultNoteEncrypted
  vaultEncryptionMode := second.vaultEncryptionMode.or first.vaultEncryptionMode
  maxVersions := second.maxVersions.or first.maxVersions
  vaultLabels := second.vaultLabels.or first.vaultLabels

/-- The row already has what the patch writes. -/
structure Agrees (patch : RowPatch) (row : StoredMindMap) : Prop where
  titleEncrypted : ∀ value ∈ patch.titleEncrypted, value = row.titleEncrypted
  envelope : ∀ value ∈ patch.envelope, value = row.envelope
  updatedAt : ∀ value ∈ patch.updatedAt, value = row.updatedAt
  vaultColor : ∀ value ∈ patch.vaultColor, some value = row.vaultColor
  vaultNoteEncrypted : ∀ value ∈ patch.vaultNoteEncrypted, some value = row.vaultNoteEncrypted
  vaultEncryptionMode : ∀ value ∈ patch.vaultEncryptionMode, value = row.vaultEncryptionMode
  maxVersions : ∀ value ∈ patch.maxVersions, value = row.maxVersions
  vaultLabels : ∀ value ∈ patch.vaultLabels, value = row.vaultLabels

@[simp] theorem apply_currentVersionId (patch : RowPatch) (row : StoredMindMap) :
    (patch.apply row).currentVersionId = row.currentVersionId := rfl

@[simp] theorem apply_normalizedCurrent (patch : RowPatch) (row : StoredMindMap) :
    (patch.apply row).normalizedCurrent = row.normalizedCurrent := rfl

@[simp] theorem apply_empty (row : StoredMindMap) :
    RowPatch.apply {} row = row := rfl

theorem getD_or {α : Type} (first second : Option α) (value : α) :
    (second.or first).getD value = second.getD (first.getD value) := by
  cases second with
  | none => rfl
  | some written => rfl

/-- Writing two patches is writing both at once, where the second one wins. -/
theorem apply_andThen (first second : RowPatch) (row : StoredMindMap) :
    (first.andThen second).apply row = second.apply (first.apply row) := by
  simp only [apply, andThen, getD_or, Option.or_assoc]
  rfl

theorem getD_eq_self {α : Type} {written : Option α} {value : α} :
    written.getD value = value ↔ ∀ new ∈ written, new = value := by
  cases written with
  | none => simp
  | some new => simp

theorem or_eq_self {α : Type} {written value : Option α} :
    written.or value = value ↔ ∀ new ∈ written, some new = value := by
  cases written with
  | none => simp
  | some new => simp

/-- A patch leaves a row as it is where it writes what is there. -/
theorem apply_eq_self {patch : RowPatch} {row : StoredMindMap} :
    patch.apply row = row ↔ patch.Agrees row := by
  constructor
  · intro same
    have column {α : Type} (field : StoredMindMap → α) :
        field (patch.apply row) = field row := by rw [same]
    exact
      { titleEncrypted := getD_eq_self.mp (column (·.titleEncrypted))
        envelope := getD_eq_self.mp (column (·.envelope))
        updatedAt := getD_eq_self.mp (column (·.updatedAt))
        vaultColor := or_eq_self.mp (column (·.vaultColor))
        vaultNoteEncrypted := or_eq_self.mp (column (·.vaultNoteEncrypted))
        vaultEncryptionMode := getD_eq_self.mp (column (·.vaultEncryptionMode))
        maxVersions := getD_eq_self.mp (column (·.maxVersions))
        vaultLabels := getD_eq_self.mp (column (·.vaultLabels)) }
  · intro agrees
    unfold apply
    rw [getD_eq_self.mpr agrees.titleEncrypted, getD_eq_self.mpr agrees.envelope,
      getD_eq_self.mpr agrees.updatedAt, or_eq_self.mpr agrees.vaultColor,
      or_eq_self.mpr agrees.vaultNoteEncrypted,
      getD_eq_self.mpr agrees.vaultEncryptionMode,
      getD_eq_self.mpr agrees.maxVersions, getD_eq_self.mpr agrees.vaultLabels]
    rfl

end RowPatch

/-- What an entry writes to the row without asking for its version. -/
def entryPatch (calls : EntryCalls) : SyncOp → RowPatch
  | .updateVault payload =>
      match calls.request, validateUpsert payload with
      | .refused, _ | _, .error _ => {}
      | .done, .ok () | .unanswered, .ok () =>
          { titleEncrypted := some payload.titleEncrypted
            envelope := some payload.envelope
            updatedAt := some calls.now }
  | .uploadBlob _ => {}
  | .updateMeta payload =>
      if calls.request = .refused ∨ payload.maxVersions = some 0 then {}
      else
        { titleEncrypted := payload.titleEncrypted
          updatedAt := payload.titleEncrypted.map fun _ => calls.now
          vaultColor := payload.vaultColor
          vaultNoteEncrypted := payload.vaultNoteEncrypted
          vaultEncryptionMode := payload.vaultEncryptionMode
          maxVersions := payload.maxVersions
          vaultLabels := payload.vaultLabels }

/-- What the entries of a queue write to the row together. -/
def queuePatch (calls : Nat → EntryCalls) : List SyncQueueEntry → RowPatch
  | [] => {}
  | entry :: queue =>
      (entryPatch (calls entry.seq) entry.op).andThen (queuePatch calls queue)

end Patches

/-- An upload that finds no other version on the server and takes effect there. -/
def Uploads (calls : EntryCalls) (current : Option String) (content : Option Bytes) :
    SyncOp → Prop
  | .uploadBlob baseVersionId =>
      calls.check = true ∧ isStale baseVersionId current = false ∧
        calls.request ≠ .refused ∧ ∃ bytes, content = some bytes ∧ bytes ≠ []
  | .updateVault _ | .updateMeta _ => False

section Replay

variable {calls : EntryCalls} {copies : Copies} {vault : VaultState} {op : SyncOp}

/-- An upload that takes effect moves the vault to the version minted for it. -/
theorem replayEntry_uploads (stored : copies.vault = some vault)
    (uploads : Uploads calls vault.row.normalizedCurrent copies.content op) :
    (replayEntry calls copies op).content = copies.content ∧
      ∃ after, (replayEntry calls copies op).vault = some after ∧
        after.row.currentVersionId = some calls.minted := by
  cases op with
  | updateVault payload => exact uploads.elim
  | updateMeta payload => exact uploads.elim
  | uploadBlob baseVersionId =>
      obtain ⟨answered, fresh, effective, bytes, content, nonempty⟩ := uploads
      obtain ⟨cached, held, rfl⟩ := Option.map_eq_some_iff.mp content
      have clear : checkEntry calls copies.vault (.uploadBlob baseVersionId) = .clear := by
        rw [stored]
        exact checkEntry_uploadBlob_eq_clear.mpr ⟨answered, fresh⟩
      obtain ⟨_, kept, written⟩ := executeQueueEntry_uploadBlob calls held stored baseVersionId
      rw [replayEntry_of_clear clear]
      refine ⟨kept.trans content.symm, _, written, ?_⟩
      have minted : (Vault.uploadBlob vault calls.minted cached.buf
          calls.now).vault.row.currentVersionId = some calls.minted := by
        simp only [Vault.uploadBlob, if_neg nonempty, Vault.saveVersion,
          Vault.updateUpload_currentVersionId]
      cases outcome : calls.request with
      | done => exact minted
      | refused => exact absurd outcome effective
      | unanswered => exact minted

/-- Any other entry writes its patch, and nothing else. -/
theorem replayEntry_patches (stored : copies.vault = some vault)
    (quiet : ¬ Uploads calls vault.row.normalizedCurrent copies.content op) :
    (replayEntry calls copies op).content = copies.content ∧
      (replayEntry calls copies op).vault =
        some { vault with row := (entryPatch calls op).apply vault.row } := by
  cases op with
  | updateVault payload =>
      refine ⟨rfl, ?_⟩
      simp only [replayEntry, checkEntry, executeQueueEntry, request, stored,
        Vault.updateMindMap, entryPatch]
      cases validated : validateUpsert payload with
      | error error => cases calls.request <;> simp
      | ok accepted => cases calls.request <;> rfl
  | updateMeta payload =>
      refine ⟨rfl, ?_⟩
      simp only [replayEntry, checkEntry, executeQueueEntry, request, stored,
        Vault.updateVaultMeta, Vault.metaUpdate, entryPatch]
      by_cases unlimited : payload.maxVersions = some 0
      · cases calls.request <;> simp [unlimited]
      · cases calls.request with
        | refused => simp
        | done | unanswered =>
            cases titled : payload.titleEncrypted <;>
              simp [unlimited, StoredMindMap.updateMeta, RowPatch.apply, StoredMindMap.envelope]
  | uploadBlob baseVersionId =>
      by_cases clear : checkEntry calls copies.vault (.uploadBlob baseVersionId) = .clear
      · rw [replayEntry_of_clear clear]
        cases held : copies.cached with
        | none => simp [executeQueueEntry, held, stored, entryPatch]
        | some cached =>
            obtain ⟨_, kept, written⟩ :=
              executeQueueEntry_uploadBlob calls held stored baseVersionId
            refine ⟨kept.trans (by simp [Copies.content, held]), written.trans ?_⟩
            have ineffective : calls.request = .refused ∨ cached.buf = [] := by
              by_contra! effective
              rw [stored, checkEntry_uploadBlob_eq_clear] at clear
              exact quiet ⟨clear.1, clear.2, effective.1, cached.buf,
                by simp [Copies.content, held], effective.2⟩
            rcases ineffective with refused | empty
            · simp [refused, entryPatch]
            · have unchanged : (Vault.uploadBlob vault calls.minted cached.buf
                  calls.now).vault = vault := by
                simp [Vault.uploadBlob, empty]
              cases calls.request <;> simp [unchanged, entryPatch]
      · rw [replayEntry_of_not_clear clear]
        exact ⟨rfl, stored⟩

/-- No entry takes the vault back to a version it had before. -/
theorem replayEntry_currentVersionId
    (calls : EntryCalls) (op : SyncOp) (stored : copies.vault = some vault) :
    ∃ after, (replayEntry calls copies op).vault = some after ∧
      (after.row.currentVersionId = vault.row.currentVersionId ∨
        after.row.currentVersionId = some calls.minted) := by
  by_cases uploads : Uploads calls vault.row.normalizedCurrent copies.content op
  · obtain ⟨_, after, written, minted⟩ := replayEntry_uploads stored uploads
    exact ⟨after, written, .inr minted⟩
  · obtain ⟨_, written⟩ := replayEntry_patches stored uploads
    exact ⟨_, written, .inl (RowPatch.apply_currentVersionId _ _)⟩

end Replay

section Queue

variable (calls : Nat → EntryCalls) (copies : Copies) {vault : VaultState}
variable {queue : List SyncQueueEntry}

/-- A vault at a minted version stays at a minted version. -/
theorem replay_stays_minted (stored : copies.vault = some vault)
    (minted : ∃ seq, vault.row.currentVersionId = some (calls seq).minted) :
    ∃ after, (replay calls copies queue).vault = some after ∧
      ∃ seq, after.row.currentVersionId = some (calls seq).minted := by
  induction queue generalizing copies vault with
  | nil => exact ⟨vault, stored, minted⟩
  | cons entry queue ih =>
      obtain ⟨after, written, current⟩ := replayEntry_currentVersionId
        (calls entry.seq) entry.op stored
      refine ih _ written ?_
      rcases current with same | new
      · rw [same]
        exact minted
      · exact ⟨entry.seq, new⟩

/-- Where no upload takes effect the entries together write their patches. -/
theorem replay_patches (stored : copies.vault = some vault)
    (quiet : ∀ entry ∈ queue,
      ¬ Uploads (calls entry.seq) vault.row.normalizedCurrent copies.content entry.op) :
    (replay calls copies queue).vault =
      some { vault with row := (queuePatch calls queue).apply vault.row } := by
  induction queue generalizing copies vault with
  | nil => exact stored
  | cons entry queue ih =>
      obtain ⟨kept, written⟩ := replayEntry_patches stored (quiet entry List.mem_cons_self)
      rw [replay_cons, ih _ written]
      · rw [queuePatch, RowPatch.apply_andThen]
      · intro later present
        rw [kept, RowPatch.apply_normalizedCurrent]
        exact quiet later (List.mem_cons_of_mem _ present)

/-- Where an upload takes effect the vault ends at a minted version. -/
theorem replay_uploads (stored : copies.vault = some vault)
    (uploads : ∃ entry ∈ queue,
      Uploads (calls entry.seq) vault.row.normalizedCurrent copies.content entry.op) :
    ∃ after, (replay calls copies queue).vault = some after ∧
      ∃ seq, after.row.currentVersionId = some (calls seq).minted := by
  induction queue generalizing copies vault with
  | nil => simp at uploads
  | cons entry queue ih =>
      by_cases first : Uploads (calls entry.seq) vault.row.normalizedCurrent copies.content entry.op
      · obtain ⟨_, after, written, minted⟩ := replayEntry_uploads stored first
        rw [replay_cons]
        exact replay_stays_minted calls _ written ⟨entry.seq, minted⟩
      · obtain ⟨kept, written⟩ := replayEntry_patches stored first
        obtain ⟨later, present, effective⟩ := uploads
        rcases List.mem_cons.mp present with rfl | inQueue
        · exact absurd effective first
        · refine ih _ written ⟨later, inQueue, ?_⟩
          rw [kept, RowPatch.apply_normalizedCurrent]
          exact effective

end Queue

/-- A vault left in conflict is as it was when the drain started exactly when none of its
queued uploads got past the check and took effect, and its queued envelope and metadata
updates last wrote to every column what the row had in it. -/
theorem conflict_keepsVault_iff {calls : Nat → EntryCalls} {device : Device}
    {server : String → Option VaultState} {vaultId : String} {vault : VaultState}
    (stored : server vaultId = some vault)
    (minted : ∀ seq, vault.row.currentVersionId ≠ some (calls seq).minted) :
    (drainSyncQueue calls device server).ConflictOn vaultId →
      ((drainSyncQueue calls device server).server vaultId = server vaultId ↔
        (∀ entry ∈ device.queue.ofVault vaultId,
          ¬ Uploads (calls entry.seq) vault.row.normalizedCurrent
            ((device.blobs vaultId).map (·.buf)) entry.op) ∧
          (queuePatch calls (device.queue.ofVault vaultId)).Agrees vault.row) := by
  intro _
  have drained := congrArg Copies.vault (copies_drainSyncQueue calls device server vaultId)
  change (drainSyncQueue calls device server).server vaultId = _ at drained
  rw [drained, stored]
  constructor
  · intro unchanged
    have quiet : ∀ entry ∈ device.queue.ofVault vaultId,
        ¬ Uploads (calls entry.seq) vault.row.normalizedCurrent
          ((device.blobs vaultId).map (·.buf)) entry.op := by
      intro entry present effective
      obtain ⟨after, written, seq, current⟩ :=
        replay_uploads calls ⟨device.blobs vaultId, some vault⟩ rfl ⟨entry, present, effective⟩
      cases written.symm.trans unchanged
      exact minted seq current
    refine ⟨quiet, RowPatch.apply_eq_self.mp ?_⟩
    have patched := replay_patches calls ⟨device.blobs vaultId, some vault⟩ rfl quiet
    exact congrArg VaultState.row (Option.some.inj (patched.symm.trans unchanged))
  · rintro ⟨quiet, agrees⟩
    rw [replay_patches calls
      ⟨device.blobs vaultId, some vault⟩ rfl quiet,
      RowPatch.apply_eq_self.mpr agrees]

/-- A vault another client saved as `v2` under its own envelope. -/
def savedElsewhere : VaultState :=
  (Vault.uploadBlob
    { row := Vault.createMindMap "vault" "user" "user/vault.bin"
        ⟨"title", "classical", "pq", "dek"⟩ 1
      objects := fun _ => none }
    "v2" [2] 3).vault

/-- A device whose cache still holds `v1` of that vault. -/
def staleDevice : Device where
  queue := .empty
  blobs := fun _ => some ⟨[1], some "v1"⟩

theorem conflict_keepsVault_iff_uploadAlone :
    (drainSyncQueue (answeredCalls (fun _ => "v3") 9) (staleDevice.uploadBlob "vault" [5])
      fun _ => some savedElsewhere).server "vault" = some savedElsewhere := by
  have differs : savedElsewhere.row.currentVersionId ≠ some "v3" := by decide
  refine (conflict_keepsVault_iff rfl (fun _ => differs) (by decide)).mpr ⟨?_, ?_⟩
  · rintro entry (_ | ⟨_, ⟨⟩⟩)
    rintro ⟨_, fresh, _⟩
    revert fresh
    decide
  · exact RowPatch.apply_eq_self.mp rfl

/-- The envelope of an offline save replaces the one on the server before the upload of
the same save is found to be in conflict. -/
theorem conflict_overwrites_envelope :
    ¬ ∀ (calls : Nat → EntryCalls) (device : Device)
        (server : String → Option VaultState) (vaultId : String),
      (drainSyncQueue calls device server).ConflictOn vaultId →
        (drainSyncQueue calls device server).server vaultId = server vaultId := by
  intro always
  have kept := always (answeredCalls (fun _ => "v3") 9)
    ((staleDevice.updateVault "vault" ⟨"title", "classical'", "pq'", "dek'"⟩).uploadBlob
      "vault" [5]) (fun _ => some savedElsewhere) "vault" (by decide)
  have envelopes := congrArg (Option.map (·.row.envelope)) kept
  revert envelopes
  decide

end Offline
end MindMapVault
