import MindMapVault.Vault.BareObject

/-!
# Versions stay retrievable

The bytes at the bare key are those of the version that was saved last before
versions had keys of their own, whatever has been saved since. The migration takes
them for the current version's. So a run in which nothing fails keeps every version
retrievable exactly when it finds the bytes of the bare object for the version they
belong to, and for a current version that is read from there.
-/

namespace MindMapVault
namespace Vault

/-- The key of the entry that requests find for an id. -/
def StoredMindMap.entryKey (map : StoredMindMap) (versionId : String) :
    Option String :=
  (map.versionHistory.find? (·.versionId = versionId)).bind VersionSnapshot.objectKey

/-- Normalisation keeps the first entry of an id. -/
theorem find?_normalizeVersionHistoryFrom
    {seen : List String} {history : List VersionSnapshot} {wanted : String}
    (valid : ∀ snapshot ∈ history, ValidVersionId snapshot.versionId) (unseen : wanted ∉ seen) :
    (normalizeVersionHistoryFrom seen history).find? (·.versionId = wanted) =
      history.find? (·.versionId = wanted) := by
  induction history generalizing seen with
  | nil => rfl
  | cons snapshot rest ih =>
      have restValid : ∀ later ∈ rest, ValidVersionId later.versionId :=
        fun later present => valid later (List.mem_cons_of_mem _ present)
      have accepted := valid snapshot List.mem_cons_self
      simp only [normalizeVersionHistoryFrom, accepted.normalize, accepted.1, false_or]
      by_cases same : snapshot.versionId = wanted
      · have fresh : snapshot.versionId ∉ seen := by
          rw [same]
          exact unseen
        rw [if_neg fresh, List.find?_cons_of_pos (by simpa using same),
          List.find?_cons_of_pos (by simpa using same)]
      · rw [List.find?_cons_of_neg (by simpa using same)]
        split_ifs with old
        · exact ih restValid unseen
        · rw [List.find?_cons_of_neg (by simpa using same)]
          apply ih restValid
          rw [List.mem_cons, not_or]
          exact ⟨fun equal => same equal.symm, unseen⟩

/-- For valid ids, requests and the migration read the same current version. -/
theorem normalizedCurrent_eq_some
    (map : StoredMindMap) {wanted : String} (valid : ValidVersionId wanted) :
    map.normalizedCurrent = some wanted ↔ map.migrationCurrent = some wanted := by
  rw [migrationCurrent_eq_some]
  simp only [validateVersionId_eq_ok, StoredMindMap.normalizedCurrent,
    Option.filter_eq_some_iff, Option.map_eq_some_iff]
  constructor
  · rintro ⟨⟨versionId, stored, normal⟩, _⟩
    exact ⟨versionId, stored, normal, valid⟩
  · rintro ⟨versionId, stored, normal, _⟩
    exact ⟨⟨versionId, stored, normal⟩, by simpa using valid.1⟩

namespace Kept

variable {map : StoredMindMap}

theorem valid_of_mem (kept : Kept map) {versionId : String}
    (present : versionId ∈ versionIds map.versionHistory) :
    ValidVersionId versionId := by
  obtain ⟨snapshot, stored, rfl⟩ := exists_mem_of_mem_versionIds present
  exact kept.valid snapshot stored

/-- The key an entry names is that of its id. -/
theorem entryKey_eq (kept : Kept map) {versionId objectKey : String}
    (named : map.entryKey versionId = some objectKey) :
    objectKey = versionKey map.objectKey versionId ∧
      ∃ snapshot ∈ map.versionHistory, snapshot.versionId = versionId ∧
        snapshot.objectKey ≠ none := by
  obtain ⟨snapshot, found, stored⟩ := Option.bind_eq_some_iff.mp named
  have present := List.mem_of_find?_eq_some found
  have same : snapshot.versionId = versionId := by
    simpa using List.find?_some found
  refine ⟨?_, snapshot, present, same, by simp [stored]⟩
  rw [kept.keyed snapshot present objectKey stored, same]

/-- An id resolves to the key of its entry, or as the current version without one to
the bare key. -/
theorem resolveBlobKey_eq_ok (kept : Kept map) {given objectKey : String} :
    resolveBlobKey map (some given) = .ok objectKey ↔
      ∃ wanted, validateVersionId given = .ok wanted ∧
        (map.entryKey wanted = some objectKey ∨
          map.entryKey wanted = none ∧ map.migrationCurrent = some wanted ∧
            objectKey = map.objectKey) := by
  cases validated : validateVersionId given with
  | error error => simp [resolveBlobKey, validated, Except.map, Except.bind, bind]
  | ok wanted =>
      have valid := (validateVersionId_eq_ok.mp validated).2
      have entry : ((normalizeVersionHistory map.versionHistory).find?
          (·.versionId = wanted)).bind VersionSnapshot.objectKey = map.entryKey wanted := by
        rw [normalizeVersionHistory, find?_normalizeVersionHistoryFrom kept.valid List.not_mem_nil]
        rfl
      have current := normalizedCurrent_eq_some map valid
      simp only [Except.ok.injEq, exists_eq_left']
      cases named : map.entryKey wanted with
      | some key =>
          rw [named] at entry
          simp [resolveBlobKey, validated, Except.map, Except.bind, bind, pure, Except.pure, entry]
      | none =>
          rw [named] at entry
          by_cases active : map.migrationCurrent = some wanted
          · have answer : resolveBlobKey map (some given) = .ok map.objectKey := by
              simp [resolveBlobKey, validated, Except.map, Except.bind, bind, pure,
                Except.pure, entry, current.mpr active]
            simp [answer, active, eq_comm]
          · have inactive : map.normalizedCurrent ≠ some wanted :=
              fun same => active (current.mp same)
            simp [resolveBlobKey, validated, Except.map, Except.bind, bind, entry,
              inactive, active, throw, throwThe, MonadExceptOf.throw]

end Kept

/-- The versions whose bytes the bare key holds: a current version that requests
read from there, and the latest version from before versions had keys, while the
history lists it without one. -/
def OwnsBare (map : StoredMindMap) (latest versionId : String) : Prop :=
  map.entryKey versionId = none ∧
    (map.migrationCurrent = some versionId ∨
      versionId = latest ∧ versionId ∈ versionIds map.versionHistory)

instance (map : StoredMindMap) (latest versionId : String) :
    Decidable (OwnsBare map latest versionId) :=
  inferInstanceAs (Decidable (_ ∧ _))

/-- The bytes of a version can be had: a request for the id answers with them, or
they are at the bare key and the version is the latest from before. -/
def Retrievable (latest : String) (vault : LegacyVault) (given : String) (bytes : Bytes) : Prop :=
  (∃ objectKey, resolveBlobKey vault.row (some given) = .ok objectKey ∧
    vault.objects objectKey = some bytes) ∨
  (validateVersionId given = .ok latest ∧ vault.row.entryKey latest = none ∧
    latest ∈ versionIds vault.row.versionHistory ∧
    vault.objects vault.row.objectKey = some bytes)

/-- What could be had before can be had after. -/
def Preserves (latest : String) (before after : LegacyVault) : Prop :=
  ∀ given bytes, Retrievable latest before given bytes → Retrievable latest after given bytes

/-- A run without faults finds the bytes of the bare object for every version that
owns them. -/
def OwnersFound (latest : String) (vault : LegacyVault) : Prop :=
  isMigrated vault.row.versionHistory vault.row.currentVersionId = true ∨
    ∀ current ∈ vault.row.migrationCurrent,
      ∀ bytes ∈ vault.objects vault.row.objectKey,
        ∀ versionId ∈ [current, latest], OwnsBare vault.row latest versionId →
          vault.runFinds {} current versionId = some bytes

instance (latest : String) (vault : LegacyVault) :
    Decidable (OwnersFound latest vault) :=
  inferInstanceAs (Decidable (_ ∨ ∀ _ ∈ _, ∀ _ ∈ _, ∀ _ ∈ _, _))

section Run

variable {latest : String} {vault : LegacyVault}

/-- A version is read from its own key or it owns the bare object. -/
theorem retrievable_iff (kept : Kept vault.row) {given : String} {bytes : Bytes} :
    Retrievable latest vault given bytes ↔
      ∃ wanted, validateVersionId given = .ok wanted ∧
        (vault.row.entryKey wanted ≠ none ∧
            vault.objects (versionKey vault.row.objectKey wanted) = some bytes ∨
          OwnsBare vault.row latest wanted ∧ vault.objects vault.row.objectKey = some bytes) := by
  constructor
  · rintro (⟨objectKey, resolved, there⟩ | ⟨validated, unnamed, listed, there⟩)
    · obtain ⟨wanted, validated, named | ⟨unnamed, current, rfl⟩⟩ :=
        kept.resolveBlobKey_eq_ok.mp resolved
      · rw [(kept.entryKey_eq named).1] at there
        exact ⟨wanted, validated, .inl ⟨by simp [named], there⟩⟩
      · exact ⟨wanted, validated, .inr ⟨⟨unnamed, .inl current⟩, there⟩⟩
    · exact ⟨latest, validated, .inr ⟨⟨unnamed, .inr ⟨rfl, listed⟩⟩, there⟩⟩
  · rintro ⟨wanted, validated, ⟨named, there⟩ | ⟨⟨unnamed, owner⟩, there⟩⟩
    · obtain ⟨objectKey, named⟩ := Option.ne_none_iff_exists'.mp named
      refine .inl ⟨objectKey, ?_, ?_⟩
      · exact kept.resolveBlobKey_eq_ok.mpr ⟨wanted, validated, .inl named⟩
      · rw [(kept.entryKey_eq named).1]
        exact there
    · rcases owner with current | ⟨rfl, listed⟩
      · refine .inl ⟨vault.row.objectKey, ?_, there⟩
        exact kept.resolveBlobKey_eq_ok.mpr ⟨wanted, validated, .inr ⟨unnamed, current, rfl⟩⟩
      · exact .inr ⟨validated, unnamed, listed, there⟩

/-- A listed id without a key has an entry without a key. -/
theorem hasLegacy_of_entryKey {versionId : String} (unnamed : vault.row.entryKey versionId = none)
    (listed : versionId ∈ versionIds vault.row.versionHistory) :
    HasLegacy vault.row.versionHistory versionId := by
  cases found : vault.row.versionHistory.find? (·.versionId = versionId) with
  | none =>
      obtain ⟨snapshot, present, same⟩ := exists_mem_of_mem_versionIds listed
      exact absurd same (by simpa using List.find?_eq_none.mp found snapshot present)
  | some snapshot =>
      refine ⟨snapshot, List.mem_of_find?_eq_some found, ?_, ?_⟩
      · simpa using List.find?_some found
      · simpa [StoredMindMap.entryKey, found] using unnamed

section Healthy

variable {current versionId : String} {bytes : Bytes}

/-- Without faults, an entry without a key ends with what was found for it. -/
theorem runLeaves_of_hasLegacy (legacy : HasLegacy vault.row.versionHistory versionId) :
    vault.runLeaves {} current versionId = vault.runFinds {} current versionId := by
  rw [LegacyVault.runLeaves, LegacyVault.leaves, if_pos legacy]
  simp only [LegacyVault.runFinds, LegacyVault.found, LegacyVault.finds,
    Bool.false_eq_true, if_false]
  cases vault.objects (versionKey vault.row.objectKey versionId) <;> simp

/-- Without faults, what is under a key stays there. -/
theorem runLeaves_of_stored
    (there : vault.objects (versionKey vault.row.objectKey versionId) = some bytes) :
    vault.runLeaves {} current versionId = some bytes := by
  by_cases legacy : HasLegacy vault.row.versionHistory versionId
  · rw [runLeaves_of_hasLegacy legacy]
    simp [LegacyVault.runFinds, LegacyVault.found, LegacyVault.finds, there]
  · rw [LegacyVault.runLeaves, LegacyVault.leaves, if_neg legacy, there]

/-- Without faults, the current version ends with what was found for it, whether
the history lists it or not. -/
theorem MigratedTo.owner {migrated : List VersionSnapshot} {after : Objects}
    (complete : MigratedTo {} vault current migrated after)
    (read : vault.row.migrationCurrent = some current)
    (owner : OwnsBare vault.row latest versionId) :
    after (versionKey vault.row.objectKey versionId) = vault.runFinds {} current versionId := by
  by_cases listed : versionId ∈ versionIds vault.row.versionHistory
  · rw [complete.left versionId listed,
      runLeaves_of_hasLegacy (hasLegacy_of_entryKey owner.1 listed)]
  · rcases owner.2 with same | ⟨_, present⟩
    · cases read.symm.trans same
      obtain ⟨bytes, finds, there⟩ := complete.added listed
      rw [there, ← finds]
      simp [LegacyVault.runFinds, LegacyVault.found, LegacyVault.finds, LegacyVault.source]
    · exact absurd present listed

/-- Without faults, a run that has the bare object to work with comes to its end. -/
theorem runMigration_healthy (kept : Kept vault.row)
    (pending : isMigrated vault.row.versionHistory vault.row.currentVersionId = false)
    (read : vault.row.migrationCurrent = some current)
    (bare : vault.objects vault.row.objectKey = some bytes) :
    ∃ migrated after, MigratedTo {} vault current migrated after ∧
      (runMigration {} vault).row = vault.row.updateUpload current migrated ∧
      (runMigration {} vault).objects = after.delete vault.row.objectKey := by
  obtain ⟨versionId, stored, accepted⟩ := migrationCurrent_eq_some.mp read
  obtain ⟨rescued, outcome, middle, loop⟩ : ∃ rescued outcome middle,
      rescueHistory (fun _ => {}) vault current (vault.listLegacyVersions false)
          vault.row.versionHistory vault.objects =
        (.ok (rescued, outcome), middle) :=
    rescueHistory_healthy _ _
  have held : middle vault.row.objectKey = some bytes := by
    have unharmed : Unharmed {} vault (rescueHistory (fun _ => {}) vault current
        (vault.listLegacyVersions false) vault.row.versionHistory vault.objects).2 :=
      unharmed_rescueHistory
    rw [loop] at unharmed
    exact unharmed.bare.trans bare
  obtain ⟨migrated, final, after, last⟩ : ∃ migrated final after,
      rescueCurrent {} vault current rescued outcome middle = (.ok (migrated, final), after) := by
    unfold rescueCurrent
    split_ifs with listed
    · exact ⟨_, _, _, rfl⟩
    · obtain ⟨answer, after, here⟩ : ∃ answer after,
          rescueVersion {} vault middle current true none = (.ok answer, after) :=
        rescueVersion_healthy
      have found := (rescueVersion_ok here).1
      cases answer with
      | none =>
          simp [LegacyVault.finds, LegacyVault.source, held] at found
      | some sizeBytes =>
          rw [here]
          exact ⟨_, _, _, rfl⟩
  have complete : MigratedTo {} vault current migrated after :=
    migratedTo_of_rescued kept (validateVersionId_eq_ok.mp accepted).2 loop last
  refine ⟨migrated, after, complete, ?_⟩
  have loop' : rescueHistory ({} : MigrationFaults).rescue vault current
      (vault.listLegacyVersions false) vault.row.versionHistory vault.objects =
        (.ok (rescued, outcome), middle) := loop
  rw [stored] at pending
  simp only [runMigration, stored, pending, Bool.false_eq_true, if_false, migrateOne,
    accepted, loop', last]
  exact ⟨trivial, trivial⟩

end Healthy

/-- A run without faults that finds the bytes of the bare object for their owners
loses nothing. -/
theorem preserves_of_ownersFound (kept : Kept vault.row) (found : OwnersFound latest vault) :
    Preserves latest vault (runMigration {} vault) := by
  intro given bytes before
  rw [retrievable_iff kept] at before
  obtain ⟨wanted, validated, before⟩ := before
  rcases runMigration_cases {} kept with
    ⟨same, unharmed⟩ | ⟨current, migrated, after, pending, read, complete, written, objects⟩
  · rw [retrievable_iff (by rw [same]; exact kept), same, unharmed.bare]
    refine ⟨wanted, validated, before.imp_left ?_⟩
    exact fun named => ⟨named.1, unharmed.stable wanted bytes rfl rfl named.2⟩
  have answer : wanted ∈ versionIds migrated →
      after (versionKey vault.row.objectKey wanted) = some bytes →
        Retrievable latest (runMigration {} vault) given bytes := by
    intro listed there
    refine .inl ⟨versionKey vault.row.objectKey wanted, ?_, ?_⟩
    · rw [written, complete.recorded.resolveBlobKey_some, validated]
      exact if_pos listed
    · rcases objects with stays | deleted
      · rw [stays]
        exact there
      · rw [deleted, Objects.delete_of_ne _ (versionKey_ne_objectKey _ _)]
        exact there
  rcases before with ⟨named, there⟩ | ⟨owner, there⟩
  · obtain ⟨objectKey, named⟩ := Option.ne_none_iff_exists'.mp named
    obtain ⟨_, snapshot, present, same, owned⟩ := kept.entryKey_eq named
    have listed := mem_versionIds_of_mem present
    rw [same] at listed
    refine answer (same ▸ complete.survived snapshot present (.inl owned)) ?_
    rw [complete.left wanted listed, runLeaves_of_stored there]
  · have finds : vault.runFinds {} current wanted = some bytes := by
      rcases found with done | found
      · rw [pending] at done
        cases done
      · apply found current read bytes there wanted _ owner
        rcases owner.2 with same | ⟨same, _⟩
        · rw [Option.some.inj (read.symm.trans same)]
          exact List.mem_cons_self
        · simp [same]
    refine answer ?_ ((complete.owner read owner).trans finds)
    rcases owner.2 with same | ⟨_, listed⟩
    · rw [← Option.some.inj (read.symm.trans same)]
      exact complete.listed
    · obtain ⟨snapshot, present, same⟩ := exists_mem_of_mem_versionIds listed
      rw [← same] at finds ⊢
      exact complete.survived snapshot present (.inr (by simp [finds]))

/-- A run without faults keeps every version retrievable exactly when it finds the
bytes of the bare object for their owners. -/
theorem preserves_runMigration_iff (latest : String) (vault : LegacyVault) (kept : Kept vault.row) :
    Preserves latest vault (runMigration {} vault) ↔ OwnersFound latest vault := by
  refine ⟨?_, preserves_of_ownersFound kept⟩
  intro preserves
  rw [OwnersFound, or_iff_not_imp_left, Bool.not_eq_true]
  intro pending current read bytes bare versionId _ owner
  obtain ⟨migrated, after, complete, written, deleted⟩ :=
    runMigration_healthy kept pending read bare
  have valid : ValidVersionId versionId := by
    rcases owner.2 with same | ⟨_, listed⟩
    · obtain ⟨_, _, accepted⟩ := migrationCurrent_eq_some.mp same
      exact (validateVersionId_eq_ok.mp accepted).2
    · exact kept.valid_of_mem listed
  rw [← complete.owner read owner]
  rcases preserves versionId bytes ((retrievable_iff kept).mpr
    ⟨versionId, valid.validate, .inr ⟨owner, bare⟩⟩) with
    ⟨objectKey, resolved, there⟩ | ⟨_, _, _, there⟩
  · rw [written, complete.recorded.resolveBlobKey_some, valid.validate] at resolved
    simp only [Except.bind] at resolved
    split_ifs at resolved
    cases resolved
    rw [deleted, updateUpload_objectKey,
      Objects.delete_of_ne _ (versionKey_ne_objectKey _ _)] at there
    exact there
  · rw [deleted, written, updateUpload_objectKey, Objects.delete_self] at there
    cases there

end Run

/-- The small legacy vault after a run with the given faults and a save. -/
def savedAfter (faults : MigrationFaults) : LegacyVault :=
  let ran := runMigration faults legacyVault
  let saved := (serve ⟨ran.row, ran.objects⟩ (.uploadBlob "v2" [2] 1)).1
  { ran with row := saved.row, objects := saved.objects }

theorem kept_savedAfter (faults : MigrationFaults)
    (enabled : Enabled ⟨(runMigration faults legacyVault).row,
      (runMigration faults legacyVault).objects⟩ (.uploadBlob "v2" [2] 1)) :
    Kept (savedAfter faults).row :=
  kept_requests (kept_runMigration kept_legacyVault) (requests_eq_some.mpr ⟨enabled, rfl⟩)

/-- The first run made its copy and could not write the row. -/
theorem preserves_runMigration_iff_example :
    Preserves "v1" (savedAfter { rowWrite := .refused })
      (runMigration {} (savedAfter { rowWrite := .refused })) :=
  (preserves_runMigration_iff _ _ (kept_savedAfter _ (by decide))).mpr (by decide)

/-- The first run could not make its copy. After a save the next run drops the
version it belongs to and deletes the bare object, its only copy. -/
theorem migration_loses_latest_legacy :
    ¬ Preserves "v1"
      (savedAfter { rescue := fun _ => { upload := .failed none } })
      (runMigration {} (savedAfter { rescue := fun _ => { upload := .failed none } })) := by
  intro preserves
  have before : Retrievable "v1"
      (savedAfter { rescue := fun _ => { upload := .failed none } }) "v1" [1] :=
    .inr (by decide)
  rcases preserves "v1" [1] before with ⟨objectKey, resolved, _⟩ | ⟨_, _, listed, _⟩
  · have gone : resolveBlobKey (runMigration {}
        (savedAfter { rescue := fun _ => { upload := .failed none } })).row (some "v1") =
        .error (.notFound "version 'v1' is no longer stored") := by
      decide
    rw [gone] at resolved
    cases resolved
  · exact absurd listed (by decide)

end Vault
end MindMapVault
