import MindMapVault.Vault.Migrated

/-!
# The bare object

A run deletes the bare object once the row points at the copies. The copy of the
current version is proved in the run that makes it, but a destination that is
already there is taken as it is. So the bare object is safe in a run that finds
its bytes for some entry, and otherwise not. Between two runs the vault is served
as usual.
-/

namespace MindMapVault
namespace Vault

open Transition

section Requests

variable {map : StoredMindMap}

/-- A save adds an entry that names its object. -/
theorem Kept.recordVersion (kept : Kept map) {versionId : String} (valid : ValidVersionId versionId)
    (savedAt : DateTime) (sizeBytes : Int) :
    Kept (map.updateUpload versionId (recordVersion map versionId savedAt sizeBytes).1) := by
  rw [recordVersion_eq]
  have old : ∀ snapshot ∈ map.retained, snapshot ∈ map.versionHistory :=
    fun snapshot present =>
      mem_of_mem_normalizeVersionHistory kept.valid (List.mem_of_mem_drop present)
  constructor
  · intro snapshot present
    rcases List.mem_append.mp present with retained | added
    · exact kept.valid snapshot (old snapshot retained)
    · rw [List.mem_singleton.mp added]
      exact valid
  · intro snapshot present objectKey stored
    rcases List.mem_append.mp present with retained | added
    · exact kept.keyed snapshot (old snapshot retained) objectKey stored
    · rw [List.mem_singleton.mp added] at stored ⊢
      exact (Option.some.inj stored).symm

/-- A deletion takes entries away. -/
theorem Kept.deletion (kept : Kept map) {target current : String} {history : List VersionSnapshot}
    (written : deletionRow map target = .ok (current, history)) :
    Kept (map.updateUpload current history) := by
  obtain ⟨_, filtered⟩ := deletionRow_eq_ok.mp written
  have old : ∀ snapshot ∈ history, snapshot ∈ map.versionHistory := by
    intro snapshot present
    rw [← filtered] at present
    exact mem_of_mem_normalizeVersionHistory kept.valid (List.mem_of_mem_filter present)
  exact ⟨fun snapshot present => kept.valid snapshot (old snapshot present),
    fun snapshot present => kept.keyed snapshot (old snapshot present)⟩

/-- Requests keep rows as the server keeps them. -/
theorem kept_requests {vault next : VaultState} {request : VaultRequest}
    (kept : Kept vault.row) (taken : requests vault request = some next) :
    Kept next.row := by
  rcases requests_row taken with
    ⟨objectKey, history, _⟩ | ⟨versionId, savedAt, sizeBytes, valid, row⟩ |
      ⟨_, target, current, history, _, update, row⟩
  · constructor
    · rw [history]
      exact kept.valid
    · rw [history, objectKey]
      exact kept.keyed
  · rw [row]
    exact kept.recordVersion valid savedAt sizeBytes
  · rw [row]
    exact kept.deletion update

end Requests

/-- What happens to a vault: a start of the server runs the migration, and until
the next one requests are served. -/
inductive ServerEvent
  | migrate (faults : MigrationFaults)
  | serve (request : VaultRequest)

/-- A vault over any number of starts and requests. -/
def server : System LegacyVault ServerEvent
  | vault, .migrate faults => some (runMigration faults vault)
  | vault, .serve request =>
      (requests ⟨vault.row, vault.objects⟩ request).map fun next =>
        { vault with row := next.row, objects := next.objects }

/-- Starts and requests keep rows as the server keeps them. -/
theorem kept_server {vault next : LegacyVault} {event : ServerEvent}
    (kept : Kept vault.row) (taken : server vault event = some next) :
    Kept next.row := by
  cases event with
  | migrate faults =>
      cases taken
      exact kept_runMigration kept
  | serve request =>
      obtain ⟨served, done, rfl⟩ := Option.map_eq_some_iff.mp taken
      exact kept_requests kept done

/-- The bare object is gone only if a version the history names holds its
bytes. -/
def BareKept (before after : LegacyVault) : Prop :=
  ∀ bytes, before.objects before.row.objectKey = some bytes →
    after.objects before.row.objectKey = none →
      ∃ versionId objectKey,
        resolveBlobKey after.row (some versionId) = .ok objectKey ∧
          after.objects objectKey = some bytes

/-- The run finds the bytes of the bare object for some version: an entry that
stays has them under its key when the rescues are done, or the history lacks the
current version and they are found for it. -/
def CopiesBare (vault : LegacyVault) (faults : MigrationFaults) : Prop :=
  isMigrated vault.row.versionHistory vault.row.currentVersionId = true ∨
    ∀ current ∈ vault.row.migrationCurrent,
      ∀ bytes ∈ vault.objects vault.row.objectKey,
        (∃ snapshot ∈ vault.row.versionHistory,
          (snapshot.objectKey ≠ none ∨ vault.runFinds faults current snapshot.versionId ≠ none) ∧
          vault.runLeaves faults current snapshot.versionId = some bytes) ∨
        (current ∉ versionIds vault.row.versionHistory ∧
          vault.finds faults.current vault.objects current true none = some bytes)

instance (vault : LegacyVault) (faults : MigrationFaults) :
    Decidable (CopiesBare vault faults) :=
  inferInstanceAs (Decidable (_ ∨ ∀ _ ∈ _, ∀ _ ∈ _, _))

/-- A run that finds the bytes of the bare object keeps them. -/
theorem bareKept_runMigration
    {vault : LegacyVault} {faults : MigrationFaults} (kept : Kept vault.row)
    (copies : CopiesBare vault faults) :
    BareKept vault (runMigration faults vault) := by
  intro bytes held gone
  rcases runMigration_cases faults kept with
    ⟨_, unharmed⟩ | ⟨current, migrated, after, pending, read, complete, written, objects⟩
  · rw [unharmed.bare, held] at gone
    cases gone
  rcases objects with stays | deleted
  · rw [stays, complete.bare, held] at gone
    cases gone
  have stored : ∀ versionId, versionId ∈ versionIds migrated →
      after (versionKey vault.row.objectKey versionId) = some bytes →
        ∃ versionId objectKey,
          resolveBlobKey (runMigration faults vault).row (some versionId) =
              .ok objectKey ∧
            (runMigration faults vault).objects objectKey = some bytes := by
    intro versionId listed there
    refine ⟨versionId, versionKey vault.row.objectKey versionId, ?_, ?_⟩
    · rw [written]
      exact complete.resolves listed
    · rw [deleted, Objects.delete_of_ne _ (versionKey_ne_objectKey _ _)]
      exact there
  rcases copies with done | copies
  · rw [pending] at done
    cases done
  rcases copies current read bytes held with
    ⟨snapshot, present, found, there⟩ | ⟨outside, finds⟩
  · apply stored snapshot.versionId (complete.survived snapshot present found)
    rw [complete.left _ (mem_versionIds_of_mem present)]
    exact there
  · obtain ⟨other, same, there⟩ := complete.added outside
    rw [finds] at same
    cases Option.some.inj same
    exact stored current complete.listed there

/-- What a migration run deletes is kept elsewhere. -/
def RunsKeepBare (before : LegacyVault) (event : ServerEvent) (after : LegacyVault) :
    Prop :=
  match event with
  | .migrate _ => BareKept before after
  | .serve _ => True

/-- A start finds the bytes of the bare object. -/
def StartsCopyBare (vault : LegacyVault) : ServerEvent → Prop
  | .migrate faults => CopiesBare vault faults
  | .serve _ => True

instance (vault : LegacyVault) (event : ServerEvent) :
    Decidable (StartsCopyBare vault event) :=
  match event with
  | .migrate faults => inferInstanceAs (Decidable (CopiesBare vault faults))
  | .serve _ => .isTrue trivial

/-- Where every start finds the bytes of the bare object, no run deletes their last
copy. -/
theorem runsKeepBare_of_startsCopyBare (vault : LegacyVault) (kept : Kept vault.row)
    (events : List ServerEvent) (copies : EveryStepAllowed server StartsCopyBare vault events) :
    EveryStep server RunsKeepBare vault events := by
  have preserved : ∀ vault event next, Kept vault.row → StartsCopyBare vault event →
      server vault event = some next → Kept next.row :=
    fun _ _ _ kept _ taken => kept_server kept taken
  apply everyStep_of_allowed preserved _ kept copies
  · intro vault event next kept found taken
    cases event with
    | migrate faults =>
        cases taken
        exact bareKept_runMigration kept found
    | serve request => trivial

/-- A vault saved once before versions had keys of their own. -/
def legacyVault : LegacyVault where
  row := (createMindMap "map" "user" "key" ⟨"title", "classical", "pq", "dek"⟩
    0).updateUpload "v1" [⟨"v1", "classical", "pq", "dek", 0, none, none⟩]
  objects := Objects.put (fun _ => none) "key" [1]
  versions := none

theorem kept_legacyVault : Kept legacyVault.row := by
  refine ⟨by decide, ?_⟩
  intro snapshot present objectKey stored
  cases List.mem_singleton.mp present
  cases stored

/-- A run whose row is refused, and one that finds the copy the first made. -/
theorem runsKeepBare_of_startsCopyBare_example :
    EveryStep server RunsKeepBare legacyVault
      [.migrate { rowWrite := .refused }, .serve (.uploadBlob "v2" [2] 1), .migrate {}] :=
  runsKeepBare_of_startsCopyBare _ kept_legacyVault _ (by decide)

/-- A run that notices a bad copy leaves it, and the next run takes it for the
version and deletes the bare object. -/
theorem trusted_destination_loses_bare :
    ¬ EveryStep server RunsKeepBare legacyVault
      [.migrate { rescue := fun _ => { upload := .garbled [9] } }, .migrate {}] := by
  intro everyStep
  obtain ⟨versionId, objectKey, resolved, there⟩ := everyStep.2.1 [1] (by decide) (by decide)
  have written : (runMigration {} (runMigration
      { rescue := fun _ => { upload := .garbled [9] } } legacyVault)).row =
        legacyVault.row.updateUpload "v1"
          [⟨"v1", "classical", "pq", "dek", 0, some "key/v/v1", some 1⟩] := by
    decide
  have recorded : Recorded (legacyVault.row.updateUpload "v1"
      [⟨"v1", "classical", "pq", "dek", 0, some "key/v/v1", some 1⟩]) :=
    ⟨by decide, by decide, by rintro _ ⟨⟩; exact List.mem_cons_self, nofun⟩
  rw [written, recorded.resolveBlobKey_some] at resolved
  cases accepted : validateVersionId versionId with
  | error error => simp [accepted, Except.bind] at resolved
  | ok wanted =>
      simp only [accepted, Except.bind] at resolved
      split_ifs at resolved with listed
      cases List.mem_singleton.mp listed
      cases resolved
      exact absurd there (by decide)

end Vault
end MindMapVault
