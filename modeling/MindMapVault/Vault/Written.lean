import MindMapVault.Vault.BareObject
import MindMapVault.Vault.Concurrency
import MindMapVault.Vault.Upload

/-!
# Rows of any age

A row may come from a build that knew no keys of versions, have been saved or
migrated since, and hold entries of both kinds. Ids are normalised whenever a
history is read, one pass at a time, and a key is never rewritten. So the last
segment of a key is an id as it was when the key was chosen, and the id of the entry
is what some passes have made of it.
-/

namespace MindMapVault
namespace Vault

open Transition Threads

/-- Some passes of normalisation lead from one id to another. -/
def NormalizesTo (raw versionId : String) : Prop :=
  ∃ passes : Nat, normalizeVersionId^[passes] raw = versionId

namespace NormalizesTo

variable {raw versionId other : String}

theorem refl (versionId : String) : NormalizesTo versionId versionId := ⟨0, rfl⟩

/-- One more pass. -/
theorem normalize (leads : NormalizesTo raw versionId) :
    NormalizesTo raw (normalizeVersionId versionId) := by
  obtain ⟨passes, rfl⟩ := leads
  exact ⟨passes + 1, Function.iterate_succ_apply' _ _ _⟩

/-- Normalisation stops at a valid id. -/
theorem iterate_of_valid (valid : ValidVersionId versionId) (passes : Nat) :
    normalizeVersionId^[passes] versionId = versionId :=
  Function.iterate_fixed valid.normalize passes

/-- An id leads to at most one valid id. -/
theorem valid_unique (leads : NormalizesTo raw versionId) (otherLeads : NormalizesTo raw other)
    (valid : ValidVersionId versionId) (otherValid : ValidVersionId other) :
    versionId = other := by
  obtain ⟨passes, rfl⟩ := leads
  obtain ⟨otherPasses, rfl⟩ := otherLeads
  -- the one that is reached first is a fixed point
  rcases Nat.le_total passes otherPasses with earlier | later
  · have split : otherPasses = (otherPasses - passes) + passes := by omega
    rw [split, Function.iterate_add_apply, iterate_of_valid valid]
  · have split : passes = (passes - otherPasses) + otherPasses := by omega
    rw [split, Function.iterate_add_apply, iterate_of_valid otherValid]

end NormalizesTo

/-- What a pass strips is white space and quotes. -/
theorem mem_normalizeVersionId {versionId : String} {char : Char}
    (present : char ∈ versionId.toList) :
    char ∈ (normalizeVersionId versionId).toList ∨ isWhitespace char = true ∨ char = '"' := by
  rcases Text.mem_trimMatches_or isWhitespace present with kept | space
  · rcases Text.mem_trimMatches_or (· == '"') kept with stays | quote
    · exact .inl stays
    · exact .inr (.inr (beq_iff_eq.mp quote))
  · exact .inr (.inl space)

/-- An id that leads to a valid one has no separator in it. -/
theorem NormalizesTo.no_separator {raw versionId : String}
    (leads : NormalizesTo raw versionId) (valid : ValidVersionId versionId) :
    '/' ∉ raw.toList := by
  obtain ⟨passes, rfl⟩ := leads
  intro present
  have stays : '/' ∈ (normalizeVersionId^[passes] raw).toList := by
    clear valid
    induction passes with
    | zero => exact present
    | succ passes ih =>
        rw [Function.iterate_succ_apply']
        rcases mem_normalizeVersionId ih with kept | space | quote
        · exact kept
        · exact absurd space (by decide)
        · exact absurd quote (by decide)
  have accepted := List.all_eq_true.mp valid.2.2.1 '/' stays
  exact absurd accepted (by decide)

/-- The rows a vault can have. Builds that knew no keys of versions left any ids and
any current version; since then a row is saved, trimmed by a deletion or migrated.
What a request writes follows from the row it has read, which may have been replaced
since. -/
inductive Written : StoredMindMap → Prop
  | legacy {map : StoredMindMap}
      (keyless : ∀ snapshot ∈ map.versionHistory, snapshot.objectKey = none) :
      Written map
  | changed {map other : StoredMindMap}
      (written : Written map)
      (objectKey : other.objectKey = map.objectKey)
      (history : other.versionHistory = map.versionHistory)
      (current : other.currentVersionId = map.currentVersionId) :
      Written other
  | saved {map read : StoredMindMap} {versionId : String}
      (written : Written map) (readWritten : Written read)
      (objectKey : read.objectKey = map.objectKey)
      (valid : ValidVersionId versionId) (savedAt : DateTime) (sizeBytes : Int) :
      Written (map.updateUpload versionId (recordVersion read versionId savedAt sizeBytes).1)
  | deleted {map read : StoredMindMap} {target current : String}
      {history : List VersionSnapshot}
      (written : Written map) (readWritten : Written read)
      (objectKey : read.objectKey = map.objectKey)
      (row : deletionRow read target = .ok (current, history)) :
      Written (map.updateUpload current history)
  | migrated {vault : LegacyVault}
      (written : Written vault.row) (faults : MigrationFaults) :
      Written (runMigration faults vault).row

/-- Every key of the history is one of the vault, made of an id that leads to that
of its entry; and where there is a key, the current version is a valid id. -/
structure Addressed (map : StoredMindMap) : Prop where
  keyed : ∀ snapshot ∈ map.versionHistory, ∀ objectKey,
    snapshot.objectKey = some objectKey →
      ∃ raw, objectKey = versionKey map.objectKey raw ∧ NormalizesTo raw snapshot.versionId
  current : ∀ snapshot ∈ map.versionHistory, snapshot.objectKey ≠ none →
    ∃ versionId, map.currentVersionId = some versionId ∧ ValidVersionId versionId

namespace Addressed

variable {map read : StoredMindMap}

/-- Reading the history normalises its ids once more. -/
theorem keyed_normalized (addressed : Addressed map) {snapshot : VersionSnapshot}
    (present : snapshot ∈ normalizeVersionHistory map.versionHistory)
    {objectKey : String} (owned : snapshot.objectKey = some objectKey) :
    ∃ raw, objectKey = versionKey map.objectKey raw ∧ NormalizesTo raw snapshot.versionId := by
  obtain ⟨stored, held, rfl⟩ := exists_of_mem_normalizeVersionHistory present
  obtain ⟨raw, rfl, leads⟩ := addressed.keyed stored held objectKey owned
  exact ⟨raw, rfl, leads.normalize⟩

/-- Where the history as it is read has a key, the current version is valid, and the
handlers read it as it is stored. -/
theorem current_normalized (addressed : Addressed map) {snapshot : VersionSnapshot}
    (present : snapshot ∈ normalizeVersionHistory map.versionHistory)
    (owned : snapshot.objectKey ≠ none) :
    ∃ versionId, map.normalizedCurrent = some versionId ∧ ValidVersionId versionId := by
  obtain ⟨stored, held, rfl⟩ := exists_of_mem_normalizeVersionHistory present
  obtain ⟨versionId, same, valid⟩ := addressed.current stored held owned
  refine ⟨versionId, ?_, valid⟩
  simp [StoredMindMap.normalizedCurrent, same, valid.normalize, valid.1]

/-- A row that was saved. -/
theorem saved (addressed : Addressed read) (objectKey : read.objectKey = map.objectKey)
    {versionId : String} (valid : ValidVersionId versionId) (savedAt : DateTime) (sizeBytes : Int) :
    Addressed (map.updateUpload versionId (recordVersion read versionId savedAt sizeBytes).1) := by
  rw [recordVersion_eq]
  constructor
  · intro snapshot present key owned
    rcases List.mem_append.mp present with retained | added
    · rw [updateUpload_objectKey, ← objectKey]
      exact addressed.keyed_normalized (List.mem_of_mem_drop retained) owned
    · rw [List.mem_singleton.mp added, newSnapshot_objectKey] at owned
      rw [List.mem_singleton.mp added, newSnapshot_versionId]
      refine ⟨versionId, ?_, .refl versionId⟩
      rw [updateUpload_objectKey, ← objectKey]
      exact (Option.some.inj owned).symm
  · exact fun _ _ _ => ⟨versionId, rfl, valid⟩

/-- A row after a deletion. -/
theorem deleted (addressed : Addressed read) (objectKey : read.objectKey = map.objectKey)
    {target current : String} {history : List VersionSnapshot}
    (row : deletionRow read target = .ok (current, history)) :
    Addressed (map.updateUpload current history) := by
  obtain ⟨active, rfl⟩ := deletionRow_eq_ok.mp row
  constructor
  · intro snapshot present key owned
    rw [updateUpload_objectKey, ← objectKey]
    exact addressed.keyed_normalized (List.mem_of_mem_filter present) owned
  · intro snapshot present owned
    obtain ⟨versionId, same, valid⟩ :=
      addressed.current_normalized (List.mem_of_mem_filter present) owned
    rw [active] at same
    cases same
    exact ⟨current, rfl, valid⟩

/-- A row that was migrated. -/
theorem migrated {vault : LegacyVault} (addressed : Addressed vault.row)
    (faults : MigrationFaults) : Addressed (runMigration faults vault).row := by
  rcases runMigration_stages faults vault with
    ⟨same, _⟩ | ⟨current, rescued, outcome, middle, migrated, final, after, _, read,
      loop, last, written, _⟩
  · rw [same]
    exact addressed
  obtain ⟨_, _, validated⟩ := migrationCurrent_eq_some.mp read
  have valid := (validateVersionId_eq_ok.mp validated).2
  have keyed : ∀ snapshot ∈ rescued, ∀ objectKey,
      snapshot.objectKey = some objectKey →
        ∃ raw, objectKey = versionKey vault.row.objectKey raw ∧
          NormalizesTo raw snapshot.versionId := by
    intro snapshot present objectKey owned
    rcases (rescueHistory_ok loop).keys snapshot present with ⟨old, _⟩ | moved
    · exact addressed.keyed snapshot old objectKey owned
    · rw [moved] at owned
      exact ⟨snapshot.versionId, (Option.some.inj owned).symm, .refl _⟩
  rw [written]
  refine ⟨?_, fun _ _ _ => ⟨current, rfl, valid⟩⟩
  intro snapshot present objectKey owned
  rcases rescueCurrent_ok last with ⟨_, rfl, _⟩ | ⟨_, sizeBytes, _, rfl⟩
  · exact keyed snapshot present objectKey owned
  rcases List.mem_append.mp present with old | added
  · exact keyed snapshot old objectKey owned
  · rw [List.mem_singleton.mp added] at owned ⊢
    exact ⟨current, (Option.some.inj owned).symm, .refl current⟩

end Addressed

/-- The keys of every row are its own. -/
theorem Written.addressed {map : StoredMindMap} (written : Written map) :
    Addressed map := by
  induction written with
  | legacy keyless =>
      constructor
      · intro snapshot present objectKey owned
        rw [keyless snapshot present] at owned
        cases owned
      · exact fun snapshot present owned => absurd (keyless snapshot present) owned
  | changed _ objectKey history current ih =>
      constructor
      · rw [objectKey, history]
        exact ih.keyed
      · rw [history, current]
        exact ih.current
  | saved _ _ objectKey valid savedAt sizeBytes _ readAddressed =>
      exact readAddressed.saved objectKey valid savedAt sizeBytes
  | deleted _ _ objectKey row _ readAddressed =>
      exact readAddressed.deleted objectKey row
  | migrated _ faults ih =>
      exact ih.migrated faults

section Server

/-- Requests served one at a time. -/
theorem written_requests {vault next : VaultState} {request : VaultRequest}
    (written : Written vault.row) (taken : requests vault request = some next) :
    Written next.row := by
  rcases requests_row taken with
    ⟨objectKey, history, current⟩ | ⟨versionId, savedAt, sizeBytes, valid, row⟩ |
      ⟨_, target, current, history, _, update, row⟩
  · exact written.changed objectKey history current
  · rw [row]
    exact written.saved written rfl valid savedAt sizeBytes
  · rw [row]
    exact written.deleted written rfl update

/-- Starts of the server and the requests between them. -/
theorem written_server {vault next : LegacyVault} {event : ServerEvent}
    (written : Written vault.row) (taken : server vault event = some next) :
    Written next.row := by
  cases event with
  | migrate faults =>
      cases taken
      exact written.migrated faults
  | serve request =>
      obtain ⟨served, done, rfl⟩ := Option.map_eq_some_iff.mp taken
      exact written_requests written done

/-- The row a request under way has read. -/
def Flight.Read (vault : TrackedVault) : Flight → Prop
  | .uploadRead map versionId _
  | .confirmRead map versionId
  | .recording map versionId _ =>
      Written map ∧ map.objectKey = vault.row.objectKey ∧ ValidVersionId versionId
  | .deleteRead map _ _
  | .deleteStored map _ => Written map ∧ map.objectKey = vault.row.objectKey
  | .answered _ => True

/-- What a request knows of a row it knows of every row with the same key. -/
theorem Flight.Read.congr {vault other : TrackedVault} {flight : Flight}
    (objectKey : other.row.objectKey = vault.row.objectKey)
    (read : flight.Read vault) : flight.Read other := by
  cases flight <;> simp only [Flight.Read, objectKey] at read ⊢ <;> exact read

/-- A request reads the row as it is. -/
theorem readRow_read {vault after : TrackedVault} {request : VersionRequest} {flight : Flight}
    (written : Written vault.row) (taken : readRow vault request = some (after, flight)) :
    after = vault ∧ flight.Read vault := by
  cases request with
  | uploadBlob minted body =>
      simp only [readRow] at taken
      split_ifs at taken with new empty
      · cases taken
        exact ⟨rfl, trivial⟩
      · cases taken
        exact ⟨rfl, written, rfl, new.1⟩
  | confirmUpload given =>
      simp only [readRow] at taken
      split_ifs at taken with empty
      · cases taken
        exact ⟨rfl, trivial⟩
      · split at taken
        case h_1 versionId validated =>
          cases taken
          exact ⟨rfl, written, rfl, (validateVersionId_eq_ok.mp validated).2⟩
        case h_2 =>
          cases taken
          exact ⟨rfl, trivial⟩
  | deleteVaultVersion given =>
      simp only [readRow] at taken
      split at taken
      · cases taken
        exact ⟨rfl, trivial⟩
      · split at taken
        · cases taken
          exact ⟨rfl, trivial⟩
        · cases taken
          exact ⟨rfl, written, rfl⟩

/-- A step of a request writes a row that follows from the one it has read. -/
theorem advanceFlight_read {vault after : TrackedVault} {before next : Flight} {now : DateTime}
    (written : Written vault.row) (read : before.Read vault)
    (taken : advanceFlight vault before now = some (after, next)) :
    Written after.row ∧ after.row.objectKey = vault.row.objectKey ∧ next.Read after := by
  cases before with
  | uploadRead map minted body =>
      cases taken
      exact ⟨written, rfl, read⟩
  | confirmRead map versionId =>
      simp only [advanceFlight] at taken
      split at taken
      · cases taken
        exact ⟨written, rfl, read⟩
      · cases taken
        exact ⟨written, rfl, trivial⟩
  | recording map versionId sizeBytes =>
      cases taken
      obtain ⟨readWritten, objectKey, valid⟩ := read
      exact ⟨written.saved readWritten objectKey valid now sizeBytes, rfl, trivial⟩
  | deleteRead map target objectKey =>
      cases taken
      exact ⟨written, rfl, read⟩
  | deleteStored map target =>
      simp only [advanceFlight] at taken
      split at taken
      case h_1 row =>
        cases taken
        exact ⟨written.deleted read.1 read.2 row, rfl, trivial⟩
      case h_2 =>
        cases taken
        exact ⟨written, rfl, trivial⟩
  | answered prunedKeys =>
      cases prunedKeys with
      | nil => cases taken
      | cons objectKey prunedKeys =>
          cases taken
          exact ⟨written, rfl, trivial⟩

/-- Requests that interleave write rows of the same kind, however old the row that
a request has read. -/
theorem written_versionRequests
    (pool : VaultPool) (move : Move VaultEvent VersionRequest DateTime) (next : VaultPool)
    (holds : Holds (fun vault => Written vault.row) Flight.Read pool)
    (taken : versionRequests.system pool move = some next) :
    Holds (fun vault => Written vault.row) Flight.Read next := by
  refine holds_preserved (fun _ _ => True) ?_ ?_ ?_ pool move next holds trivial taken
  · intro pool event shared holds _ taken
    cases event with
    | presignedPut versionId body =>
        cases taken
        exact ⟨holds.1, fun _ read => read.congr rfl⟩
    | updateMindMap update =>
        cases taken
        exact ⟨holds.1.changed rfl rfl rfl, fun _ read => read.congr rfl⟩
  · intro pool request shared flight holds _ taken
    obtain ⟨same, read⟩ := readRow_read holds.1 taken
    subst same
    exact ⟨holds.1, read, fun _ known => known⟩
  · intro pool thread now before shared after holds _ _ read taken
    obtain ⟨written, objectKey, known⟩ := advanceFlight_read holds.1 read taken
    exact ⟨written, known, fun _ other => other.congr objectKey⟩

end Server

end Vault
end MindMapVault
