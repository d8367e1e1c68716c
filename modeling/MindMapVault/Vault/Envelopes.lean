import MindMapVault.Foundations.Threads
import MindMapVault.Vault.Handlers

/-!
# Envelopes and the blobs they open

A save sends its envelope and its ciphertext in separate requests. The envelope
replaces the one on the row before the ciphertext exists, and the snapshot of
the new version copies whatever envelope the row held when the second request
read it. Clients run any number of saves against one vault and may stop anywhere;
the steps that keep every envelope with its own blob are exactly those that
announce no new envelope over a saved version and record a version while the row
still carries the envelope it was sealed under.
-/

namespace MindMapVault
namespace Vault

open Transition Threads

/-- A vault with what its clients know about the versions minted so far: the
envelope each one's ciphertext is sealed under. The server reads neither
column. -/
structure SealedVault extends VaultState where
  minted : List String
  sealedUnder : String → Envelope

/-- A client's save under way. The envelope is the one its ciphertext is sealed
under; a row is what the request in progress has read. -/
inductive Save
  | announced (envelope : Envelope) (blob : Bytes) (versionId : String)
  | uploaded (envelope : Envelope) (versionId : String)
  | confirming (envelope : Envelope) (map : StoredMindMap) (versionId : String)
  | uploading
      (envelope : Envelope) (map : StoredMindMap)
      (versionId : String) (blob : Bytes)
  | recording
      (envelope : Envelope) (map : StoredMindMap)
      (versionId : String) (sizeBytes : Int)
  | finished
  deriving DecidableEq

/-- How a save goes on: write to the upload URL, ask for the confirmation of
what was written, send the ciphertext through the server under an id the server
mints, or let the request in progress take its next step. -/
inductive SaveStep
  | presignedPut
  | confirmUpload
  | uploadBlob (minted : String)
  | proceed (now : DateTime)

/-- The first request of a save. -/
structure Announcement where
  body : UpsertMindMapRequest
  blob : Bytes
  minted : String
  now : DateTime

namespace SealedVault

/-- A minted id is well formed and new. -/
def Mints (vault : SealedVault) (versionId : String) : Prop :=
  ValidVersionId versionId ∧ versionId ∉ vault.minted

instance (vault : SealedVault) (versionId : String) :
    Decidable (vault.Mints versionId) :=
  inferInstanceAs (Decidable (_ ∧ _))

/-- Hand out a version id to a save. -/
def mint (vault : SealedVault) (versionId : String) (envelope : Envelope) :
    SealedVault :=
  { vault with
    minted := versionId :: vault.minted
    sealedUnder := fun other =>
      if other = versionId then envelope else vault.sealedUnder other }

@[simp] theorem mint_sealedUnder_self
    (vault : SealedVault) (versionId : String) (envelope : Envelope) :
    (vault.mint versionId envelope).sealedUnder versionId = envelope :=
  if_pos rfl

/-- Minting an id says nothing new about the ids handed out before. -/
theorem mint_sealedUnder_of_mem
    {vault : SealedVault} {versionId known : String} (envelope : Envelope)
    (new : versionId ∉ vault.minted) (present : known ∈ vault.minted) :
    (vault.mint versionId envelope).sealedUnder known = vault.sealedUnder known :=
  if_neg (by rintro rfl; exact new present)

end SealedVault

/-- `PUT /{id}` starts a save: the row takes the new envelope and an upload URL
for a new version comes back. -/
def announce (vault : SealedVault) (announcement : Announcement) :
    Option (SealedVault × Save) :=
  if vault.Mints announcement.minted then
    match validateUpsert announcement.body with
    | .error _ => some (vault, .finished)
    | .ok () =>
        some
          ({ vault.mint announcement.minted announcement.body.envelope with
              row := vault.row.updateContent (contentUpdate announcement.body announcement.now) },
            .announced announcement.body.envelope announcement.blob announcement.minted)
  else
    none

/-- The next step of a save. -/
def advanceSave (vault : SealedVault) :
    Save → SaveStep → Option (SealedVault × Save)
  | .announced envelope blob versionId, .presignedPut =>
      some
        ({ vault with
            objects := vault.objects.put (versionKey vault.row.objectKey versionId) blob },
          .uploaded envelope versionId)
  | .uploaded envelope versionId, .confirmUpload =>
      match validateVersionId versionId with
      | .ok verifiedVid => some (vault, .confirming envelope vault.row verifiedVid)
      | .error _ => some (vault, .finished)
  | .announced envelope blob _, .uploadBlob minted =>
      if vault.Mints minted then
        if blob = [] then
          some (vault, .finished)
        else
          some (vault.mint minted envelope, .uploading envelope vault.row minted blob)
      else
        none
  | .confirming envelope map versionId, .proceed _ =>
      match vault.objects.headSize (versionKey map.objectKey versionId) with
      | .ok sizeBytes => some (vault, .recording envelope map versionId sizeBytes)
      | .error _ => some (vault, .finished)
  | .uploading envelope map versionId blob, .proceed _ =>
      some
        ({ vault with
            objects := vault.objects.put (versionKey map.objectKey versionId) blob },
          .recording envelope map versionId blob.length)
  | .recording _ map versionId sizeBytes, .proceed now =>
      let (versionHistory, prunedKeys) := recordVersion map versionId now sizeBytes
      some
        ({ vault with
            row := vault.row.updateUpload versionId versionHistory
            objects := prunedKeys.foldl Objects.delete vault.objects },
          .finished)
  | _, _ => none

/-- Any number of saves on one vault, interleaved request by request and step by
step. -/
def saves : Program SealedVault Save Empty Announcement SaveStep where
  outside := fun _ event => nomatch event
  spawn := announce
  advance := advanceSave

/-- A vault and the saves under way on it. -/
abbrev SavePool := Pool SealedVault Save

/-- Every snapshot carries the envelope its blob was sealed under, and so does
the row for the current version. -/
def EnvelopesMatch (vault : SealedVault) : Prop :=
  (∀ snapshot ∈ vault.row.versionHistory,
    snapshot.envelope = vault.sealedUnder snapshot.versionId) ∧
  ∀ versionId ∈ vault.row.currentVersionId, vault.row.envelope = vault.sealedUnder versionId

instance (vault : SealedVault) : Decidable (EnvelopesMatch vault) :=
  inferInstanceAs (Decidable (_ ∧ _))

/-- Where a save can take the step without parting a blob from its envelope. A
first request replaces no envelope that a saved version still needs; a version
is recorded when the row its request read, and the row now, carry the envelope
it was sealed under. -/
def KeepsTogether (pool : SavePool) :
    Move Empty Announcement SaveStep → Prop
  | .spawn announcement =>
      validateUpsert announcement.body = .ok () →
        pool.shared.row.currentVersionId = none ∨
          announcement.body.envelope = pool.shared.row.envelope
  | .advance thread (.proceed _) =>
      ∀ save ∈ pool.threads[thread]?,
        match save with
        | .recording envelope map _ _ =>
            map.envelope = envelope ∧ pool.shared.row.envelope = envelope
        | _ => True
  | _ => True

/-- The history of a row a request has read: handed-out ids with the envelopes
they were sealed under. -/
def HistoryKnown (vault : SealedVault) (map : StoredMindMap) : Prop :=
  Recorded map ∧ map.objectKey = vault.row.objectKey ∧
    ∀ snapshot ∈ map.versionHistory,
      snapshot.versionId ∈ vault.minted ∧ snapshot.envelope = vault.sealedUnder snapshot.versionId

/-- A version belongs to the save that minted it. -/
def VersionKnown (vault : SealedVault) (envelope : Envelope) (versionId : String) : Prop :=
  ValidVersionId versionId ∧ versionId ∈ vault.minted ∧ vault.sealedUnder versionId = envelope

/-- What a save knows about the vault. -/
def Save.Known (vault : SealedVault) : Save → Prop
  | .announced envelope _ versionId
  | .uploaded envelope versionId => VersionKnown vault envelope versionId
  | .confirming envelope map versionId
  | .uploading envelope map versionId _
  | .recording envelope map versionId _ =>
      HistoryKnown vault map ∧ VersionKnown vault envelope versionId
  | .finished => True

/-- The vault's own history is known and its envelopes match. -/
def Matched (vault : SealedVault) : Prop := HistoryKnown vault vault.row ∧ EnvelopesMatch vault

/-- Minting a version makes nothing known before false. -/
theorem HistoryKnown.mint {vault : SealedVault} {map : StoredMindMap} {minted : String}
    (known : HistoryKnown vault map) (new : vault.Mints minted) (envelope : Envelope) :
    HistoryKnown (vault.mint minted envelope) map := by
  obtain ⟨recorded, sameKey, entries⟩ := known
  refine ⟨recorded, sameKey, fun snapshot present => ?_⟩
  obtain ⟨old, same⟩ := entries snapshot present
  rw [SealedVault.mint_sealedUnder_of_mem envelope new.2 old]
  exact ⟨List.mem_cons_of_mem _ old, same⟩

theorem VersionKnown.mint {vault : SealedVault} {versionId minted : String} {envelope : Envelope}
    (known : VersionKnown vault envelope versionId) (new : vault.Mints minted) (other : Envelope) :
    VersionKnown (vault.mint minted other) envelope versionId := by
  obtain ⟨valid, old, same⟩ := known
  refine ⟨valid, List.mem_cons_of_mem _ old, ?_⟩
  rw [SealedVault.mint_sealedUnder_of_mem other new.2 old, same]

/-- Knowledge depends on the minted ids and the vault's bare key only. -/
theorem Save.Known.mono {vault after : SealedVault}
    (history : ∀ map, HistoryKnown vault map → HistoryKnown after map)
    (version : ∀ envelope versionId, VersionKnown vault envelope versionId →
      VersionKnown after envelope versionId) :
    ∀ save : Save, save.Known vault → save.Known after
  | .announced _ _ _, known | .uploaded _ _, known => version _ _ known
  | .confirming _ _ _, known | .uploading _ _ _ _, known
  | .recording _ _ _ _, known => ⟨history _ known.1, version _ _ known.2⟩
  | .finished, _ => trivial

/-- The history a save writes is known, if the row it read was. -/
theorem HistoryKnown.recordVersion
    {vault : SealedVault} {map : StoredMindMap} {versionId : String} {envelope : Envelope}
    (known : HistoryKnown vault map) (version : VersionKnown vault envelope versionId)
    (unchanged : map.envelope = envelope) (now : DateTime) (sizeBytes : Int) :
    ∀ snapshot ∈ (Vault.recordVersion map versionId now sizeBytes).1,
      snapshot.versionId ∈ vault.minted ∧
        snapshot.envelope = vault.sealedUnder snapshot.versionId := by
  obtain ⟨recorded, _, entries⟩ := known
  obtain ⟨_, minted, sealedAs⟩ := version
  intro snapshot present
  rw [recordVersion_eq] at present
  rcases List.mem_append.mp present with kept | added
  · exact entries snapshot (recorded.retained_subset kept)
  · rw [List.mem_singleton.mp added, newSnapshot_envelope,
      newSnapshot_versionId, sealedAs]
    exact ⟨minted, unchanged⟩

theorem EnvelopesMatch.mint {vault : SealedVault} {minted : String}
    (matching : EnvelopesMatch vault) (known : HistoryKnown vault vault.row)
    (new : vault.Mints minted) (envelope : Envelope) :
    EnvelopesMatch (vault.mint minted envelope) := by
  refine ⟨fun snapshot present => ?_, fun versionId saved => ?_⟩
  · rw [SealedVault.mint_sealedUnder_of_mem envelope new.2
      (known.2.2 snapshot present).1]
    exact matching.1 snapshot present
  · obtain ⟨snapshot, stored, rfl⟩ := exists_mem_of_mem_versionIds
      (known.1.current versionId saved)
    rw [SealedVault.mint_sealedUnder_of_mem envelope new.2 (known.2.2 snapshot stored).1]
    exact matching.2 _ saved

/-- What a step of a save does: it touches storage only, it mints a version for
an upload, or it writes the row. -/
theorem advanceSave_cases {vault shared : SealedVault} {before after : Save} {step : SaveStep}
    (row : HistoryKnown vault vault.row) (known : before.Known vault)
    (taken : advanceSave vault before step = some (shared, after)) :
    (∃ objects, shared = { vault with objects := objects } ∧
      after.Known vault ∧
        ∀ envelope map versionId sizeBytes now,
          before = .recording envelope map versionId sizeBytes → step ≠ .proceed now) ∨
    (∃ minted envelope, vault.Mints minted ∧ step = .uploadBlob minted ∧
      shared = vault.mint minted envelope ∧ after.Known (vault.mint minted envelope)) ∨
    ∃ envelope map versionId sizeBytes now,
      before = .recording envelope map versionId sizeBytes ∧
        step = .proceed now ∧ after = .finished ∧
          shared =
            { vault with
              row := vault.row.updateUpload versionId (recordVersion map versionId now sizeBytes).1
              objects := (recordVersion map versionId now sizeBytes).2.foldl
                Objects.delete vault.objects } := by
  cases before with
  | announced envelope blob versionId =>
      cases step with
      | presignedPut =>
          cases taken
          exact .inl ⟨_, rfl, known, by simp⟩
      | uploadBlob minted =>
          simp only [advanceSave] at taken
          split_ifs at taken with new empty
          · cases taken
            exact .inl ⟨vault.objects, rfl, trivial, by simp⟩
          · cases taken
            refine .inr (.inl ⟨minted, envelope, new, rfl, rfl, row.mint new envelope,
              new.1, List.mem_cons_self, ?_⟩)
            exact SealedVault.mint_sealedUnder_self vault minted envelope
      | confirmUpload => cases taken
      | proceed now => cases taken
  | uploaded envelope versionId =>
      cases step with
      | confirmUpload =>
          have validated := known.1.validate
          simp only [advanceSave, validated, Option.some.injEq, Prod.mk.injEq] at taken
          obtain ⟨rfl, rfl⟩ := taken
          exact .inl ⟨vault.objects, rfl, ⟨row, known⟩, by simp⟩
      | presignedPut => cases taken
      | uploadBlob minted => cases taken
      | proceed now => cases taken
  | confirming envelope map versionId =>
      cases step with
      | proceed now =>
          simp only [advanceSave] at taken
          split at taken
          · cases taken
            exact .inl ⟨vault.objects, rfl, known, by simp⟩
          · cases taken
            exact .inl ⟨vault.objects, rfl, trivial, by simp⟩
      | presignedPut => cases taken
      | confirmUpload => cases taken
      | uploadBlob minted => cases taken
  | uploading envelope map versionId blob =>
      cases step with
      | proceed now =>
          cases taken
          exact .inl ⟨_, rfl, known, by simp⟩
      | presignedPut => cases taken
      | confirmUpload => cases taken
      | uploadBlob minted => cases taken
  | recording envelope map versionId sizeBytes =>
      cases step with
      | proceed now =>
          cases taken
          exact .inr (.inr ⟨envelope, map, versionId, sizeBytes, now, rfl, rfl, rfl, rfl⟩)
      | presignedPut => cases taken
      | confirmUpload => cases taken
      | uploadBlob minted => cases taken
  | finished => cases step <;> cases taken

/-- A first request keeps the envelopes matched exactly when no saved version
loses its own. -/
theorem envelopesMatch_announce_iff {vault : SealedVault} {announcement : Announcement}
    (matched : Matched vault) (new : vault.Mints announcement.minted) :
    EnvelopesMatch
        { vault.mint announcement.minted announcement.body.envelope with
          row := vault.row.updateContent (contentUpdate announcement.body announcement.now) } ↔
      (vault.row.currentVersionId = none ∨ announcement.body.envelope = vault.row.envelope) := by
  obtain ⟨⟨recorded, _, entries⟩, snapshots, current⟩ := matched
  have sameSnapshots :
      ∀ snapshot ∈ vault.row.versionHistory,
        snapshot.envelope =
          (vault.mint announcement.minted
            announcement.body.envelope).sealedUnder snapshot.versionId := by
    intro snapshot present
    rw [SealedVault.mint_sealedUnder_of_mem _ new.2 (entries snapshot present).1]
    exact snapshots snapshot present
  have rowEnvelope : (vault.row.updateContent
      (contentUpdate announcement.body announcement.now)).envelope =
        announcement.body.envelope := rfl
  unfold EnvelopesMatch
  rw [updateContent_versionHistory, updateContent_currentVersionId, rowEnvelope]
  cases saved : vault.row.currentVersionId with
  | none => simpa [saved] using sameSnapshots
  | some versionId =>
      obtain ⟨snapshot, stored, same⟩ := exists_mem_of_mem_versionIds
        (recorded.current versionId saved)
      have old : versionId ∈ vault.minted := same ▸ (entries snapshot stored).1
      have rowSealed := current versionId saved
      simp only [Option.mem_def, Option.some.injEq, forall_eq', reduceCtorEq, false_or, rowSealed]
      rw [SealedVault.mint_sealedUnder_of_mem _ new.2 old]
      exact ⟨fun holds => holds.2, fun same => ⟨sameSnapshots, same⟩⟩

/-- Recording a version keeps the envelopes matched exactly when the row that
was read, and the row now, carry the envelope of its blob. -/
theorem envelopesMatch_recordVersion_iff
    {vault : SealedVault} {map : StoredMindMap} {versionId : String} {envelope : Envelope}
    (history : HistoryKnown vault map) (version : VersionKnown vault envelope versionId)
    (objects : Objects) (now : DateTime) (sizeBytes : Int) :
    EnvelopesMatch
        { vault with
          row := vault.row.updateUpload versionId (recordVersion map versionId now sizeBytes).1
          objects := objects } ↔
      map.envelope = envelope ∧ vault.row.envelope = envelope := by
  have sealedAs := version.2.2
  unfold EnvelopesMatch
  simp only [updateUpload_versionHistory, updateUpload_currentVersionId,
    updateUpload_envelope, Option.mem_def, Option.some.injEq, forall_eq',
    sealedAs]
  constructor
  · rintro ⟨snapshots, row⟩
    have added := snapshots (newSnapshot map versionId now sizeBytes) (by simp [recordVersion_eq])
    rw [newSnapshot_envelope, newSnapshot_versionId, sealedAs] at added
    exact ⟨added, row⟩
  · rintro ⟨read, row⟩
    exact ⟨fun snapshot present =>
      (history.recordVersion version read now sizeBytes snapshot present).2, row⟩

/-- What the announcement of a save can do: it is refused, or the row takes the new
envelope under an id that was not in use. -/
theorem announce_cases {vault next : SealedVault} {announcement : Announcement} {save : Save}
    (action : announce vault announcement = some (next, save)) :
    (∃ error, validateUpsert announcement.body = .error error ∧ next = vault ∧
        save = .finished) ∨
      (vault.Mints announcement.minted ∧ validateUpsert announcement.body = .ok () ∧
        next = { vault.mint announcement.minted announcement.body.envelope with
          row := vault.row.updateContent (contentUpdate announcement.body announcement.now) } ∧
        save = .announced announcement.body.envelope announcement.blob announcement.minted) := by
  unfold announce at action
  split_ifs at action with new
  cases validated : validateUpsert announcement.body with
  | error error =>
      simp only [validated, Option.some.injEq, Prod.mk.injEq] at action
      exact .inl ⟨error, rfl, action.1.symm, action.2.symm⟩
  | ok accepted =>
      simp only [validated, Option.some.injEq, Prod.mk.injEq] at action
      exact .inr ⟨new, rfl, action.1.symm, action.2.symm⟩

/-- One step of the saves keeps the envelopes matched exactly when it keeps
blobs and envelopes together. -/
theorem envelopesMatch_step_iff
    (pool : SavePool) (move : Move Empty Announcement SaveStep) (next : SavePool)
    (holds : Holds Matched Save.Known pool) (taken : saves.system pool move = some next) :
    EnvelopesMatch next.shared ↔ KeepsTogether pool move := by
  obtain ⟨matched, known⟩ := holds
  refine Program.system_cases
    (motive := fun move next =>
      EnvelopesMatch next.shared ↔ KeepsTogether pool move) ?_ ?_ ?_ taken
  · exact fun event => nomatch event
  · intro announcement shared save action
    rcases announce_cases action with
      ⟨error, validated, rfl, -⟩ | ⟨new, validated, rfl, -⟩
    · simp [KeepsTogether, validated, matched.2]
    · simp only [KeepsTogether, validated, forall_const]
      exact envelopesMatch_announce_iff matched new
  · intro thread step before shared after present action
    have beforeKnown := known before (List.mem_of_getElem? present)
    rcases advanceSave_cases matched.1 beforeKnown action with
      ⟨objects, rfl, _, notWrite⟩ | ⟨minted, envelope, new, rfl, rfl, _⟩ |
      ⟨envelope, map, versionId, sizeBytes, now, rfl, rfl, rfl, rfl⟩
    · have allowed : KeepsTogether pool (.advance thread step) := by
        cases step with
        | proceed now =>
            intro save found
            cases Option.some.inj (present.symm.trans found)
            cases before with
            | recording envelope map versionId sizeBytes =>
                exact absurd rfl (notWrite envelope map versionId sizeBytes now rfl)
            | announced _ _ _ | uploaded _ _ | confirming _ _ _
            | uploading _ _ _ _ | finished => trivial
        | presignedPut | confirmUpload | uploadBlob _ => trivial
      exact ⟨fun _ => allowed, fun _ => matched.2⟩
    · exact ⟨fun _ => trivial, fun _ => matched.2.mint matched.1 new envelope⟩
    · rw [envelopesMatch_recordVersion_iff beforeKnown.1 beforeKnown.2]
      simp [KeepsTogether, present]

/-- A step that keeps the envelopes matched keeps what everybody knows true. -/
theorem matched_preserved
    (pool : SavePool) (move : Move Empty Announcement SaveStep) (next : SavePool)
    (holds : Holds Matched Save.Known pool) (taken : saves.system pool move = some next)
    (still : EnvelopesMatch next.shared) :
    Holds Matched Save.Known next := by
  have allowed := (envelopesMatch_step_iff pool move next holds taken).mp still
  refine holds_preserved KeepsTogether ?_ ?_ ?_ pool move next holds allowed taken
  · exact fun _ event => nomatch event
  · intro pool announcement shared save ⟨matched, _⟩ permitted action
    rcases announce_cases action with
      ⟨error, -, rfl, rfl⟩ | ⟨new, validated, rfl, rfl⟩
    · exact ⟨matched, trivial, fun _ known => known⟩
    · have history := matched.1.mint new announcement.body.envelope
      refine ⟨⟨⟨?_, rfl, history.2.2⟩, ?_⟩, ⟨new.1, List.mem_cons_self, ?_⟩, ?_⟩
      · exact history.1.congr rfl rfl rfl
      · exact (envelopesMatch_announce_iff matched new).mpr (permitted validated)
      · exact SealedVault.mint_sealedUnder_self _ _ _
      · exact Save.Known.mono (fun _ known => known.mint new _) (fun _ _ known => known.mint new _)
  · intro pool thread step before shared after ⟨matched, _⟩ permitted present
      beforeKnown action
    rcases advanceSave_cases matched.1 beforeKnown action with
      ⟨objects, rfl, afterKnown, _⟩ | ⟨minted, envelope, new, rfl, rfl, afterKnown⟩ |
      ⟨envelope, map, versionId, sizeBytes, now, rfl, rfl, rfl, rfl⟩
    · exact ⟨matched, Save.Known.mono (fun _ known => known)
        (fun _ _ known => known) after afterKnown,
        Save.Known.mono (fun _ known => known) (fun _ _ known => known)⟩
    · exact ⟨⟨matched.1.mint new envelope, matched.2.mint matched.1 new envelope⟩,
        afterKnown, Save.Known.mono (fun _ known => known.mint new _)
          (fun _ _ known => known.mint new _)⟩
    · obtain ⟨history, version⟩ := beforeKnown
      have together : map.envelope = envelope ∧ pool.shared.row.envelope = envelope :=
        permitted _ present
      refine ⟨⟨⟨?_, rfl, ?_⟩, ?_⟩, trivial,
        Save.Known.mono (fun _ known => known) (fun _ _ known => known)⟩
      · exact (history.1.recordVersion version.1 now sizeBytes).congr history.2.1.symm rfl rfl
      · exact history.recordVersion version together.1 now sizeBytes
      · exact (envelopesMatch_recordVersion_iff history version _ now sizeBytes).mpr together

/-- A fresh vault without a save under way. -/
def freshSaves (id userId objectKey : String) (body : UpsertMindMapRequest) (now : DateTime)
    (maxVersions : Nat) (objects : Objects) (minted : List String)
    (sealedUnder : String → Envelope) : SavePool where
  shared :=
    { row :=
        { createMindMap id userId objectKey body now with
          maxVersions := maxVersions }
      objects := objects
      minted := minted
      sealedUnder := sealedUnder }
  threads := []

/-- From a fresh vault, every envelope opens its own blob in every state of a run
exactly when every step keeps blobs and envelopes together. -/
theorem envelopesMatch_iff_keepsTogether (id userId objectKey : String)
    (body : UpsertMindMapRequest) (now : DateTime) (maxVersions : Nat) (objects : Objects)
    (minted : List String) (sealedUnder : String → Envelope)
    (run : List (Move Empty Announcement SaveStep)) :
    let start := freshSaves id userId objectKey body now maxVersions objects minted sealedUnder
    EveryState saves.system (fun pool => EnvelopesMatch pool.shared) start run ↔
      EveryStepAllowed saves.system KeepsTogether start run := by
  intro start
  have recorded : Recorded start.shared.row :=
    recorded_createMindMap id userId objectKey body now maxVersions
  have matched : Matched start.shared := by
    refine ⟨⟨recorded, rfl, ?_⟩, ?_, ?_⟩ <;> simp [start, freshSaves, createMindMap]
  exact everyState_iff_everyStepAllowed
    (fun _ holds => holds.1.2) envelopesMatch_step_iff matched_preserved
    ⟨matched, by simp [start, freshSaves]⟩ run

/-- A client that stops after its first request leaves the saved version under
an envelope that is not its own. -/
theorem interrupted_save_parts_envelope :
    ¬ EveryState saves.system (fun pool => EnvelopesMatch pool.shared)
      (freshSaves "map" "user" "key" ⟨"title", "c0", "p0", "d0"⟩ 0 50
        (fun _ => none) [] fun _ => ⟨"", "", ""⟩)
      [.spawn ⟨⟨"title", "c1", "p1", "d1"⟩, [1], "u1", 1⟩,
        .advance 0 (.uploadBlob "v1"), .advance 0 (.proceed 2),
        .advance 0 (.proceed 3),
        .spawn ⟨⟨"title", "c2", "p2", "d2"⟩, [2], "u2", 4⟩] := by
  decide

end Vault
end MindMapVault
