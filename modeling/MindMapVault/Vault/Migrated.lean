import MindMapVault.Vault.Rescue

/-!
# What a migration run writes

A run that reaches the row has found the bytes of every entry it keeps and lists
the current version; every id it lists resolves to a key of its own. A run that
stops before that leaves the bare object and every object under a key for which the
store answers.
-/

namespace MindMapVault
namespace Vault

/-- The current version as the migration reads it. -/
def StoredMindMap.migrationCurrent (map : StoredMindMap) : Option String :=
  map.currentVersionId.bind fun versionId => (validateVersionId versionId).toOption

theorem migrationCurrent_eq_some {map : StoredMindMap} {current : String} :
    map.migrationCurrent = some current ↔
      ∃ versionId, map.currentVersionId = some versionId ∧
        validateVersionId versionId = .ok current := by
  rw [StoredMindMap.migrationCurrent, Option.bind_eq_some_iff]
  apply exists_congr
  intro versionId
  cases validateVersionId versionId <;> simp [Except.toOption]

section Finds

variable (vault : LegacyVault) (faults : MigrationFaults) (current versionId : String)

/-- What a run finds for an id of the history. -/
def LegacyVault.runFinds : Option Bytes :=
  vault.found faults.rescue current (vault.listLegacyVersions faults.listFails)
    vault.objects versionId

/-- What a run leaves under the key of an id of the history. -/
def LegacyVault.runLeaves : Option Bytes :=
  vault.leaves faults.rescue current (vault.listLegacyVersions faults.listFails)
    vault.row.versionHistory vault.objects versionId

end Finds

/-- What a run makes of a vault before it deletes anything: the history it writes
and the objects it leaves. -/
structure MigratedTo
    (faults : MigrationFaults) (vault : LegacyVault) (current : String)
    (migrated : List VersionSnapshot) (after : Objects) : Prop where
  valid : ∀ snapshot ∈ migrated, ValidVersionId snapshot.versionId
  keyed : ∀ snapshot ∈ migrated,
    snapshot.objectKey = some (versionKey vault.row.objectKey snapshot.versionId)
  listed : current ∈ versionIds migrated
  survived : ∀ snapshot ∈ vault.row.versionHistory,
    snapshot.objectKey ≠ none ∨
        vault.runFinds faults current snapshot.versionId ≠ none →
      snapshot.versionId ∈ versionIds migrated
  left : ∀ versionId ∈ versionIds vault.row.versionHistory,
    after (versionKey vault.row.objectKey versionId) = vault.runLeaves faults current versionId
  added : current ∉ versionIds vault.row.versionHistory →
    ∃ bytes, vault.finds faults.current vault.objects current true none = some bytes ∧
      after (versionKey vault.row.objectKey current) = some bytes
  bare : after vault.row.objectKey = vault.objects vault.row.objectKey

/-- The bare object is as it was, and so is every object under a key for which the
store answers. -/
structure Unharmed
    (faults : MigrationFaults) (vault : LegacyVault) (objects : Objects) : Prop where
  bare : objects vault.row.objectKey = vault.objects vault.row.objectKey
  stable : ∀ versionId body, (faults.rescue versionId).headFails = false →
    faults.current.headFails = false →
    vault.objects (versionKey vault.row.objectKey versionId) = some body →
      objects (versionKey vault.row.objectKey versionId) = some body

section Run

variable {faults : MigrationFaults} {vault : LegacyVault}

theorem unharmed_rescueHistory {current : String} {storedVersions : Option (List String)} :
    Unharmed faults vault (rescueHistory faults.rescue vault current storedVersions
      vault.row.versionHistory vault.objects).2 where
  bare := by
    apply rescueHistory_frame
    intro snapshot _ _
    exact (versionKey_ne_objectKey _ _).symm
  stable := fun _ _ answers _ there => rescueHistory_stable answers there

theorem any_versionId_iff {history : List VersionSnapshot} {versionId : String} :
    history.any (·.versionId == versionId) = true ↔ versionId ∈ versionIds history := by
  simp [versionIds]

/-- The last stage has nothing to do, or rescues the current version. -/
theorem rescueCurrent_ok
    {one : RescueFaults} {current : String} {rescued migrated : List VersionSnapshot}
    {outcome final : MigrationOutcome} {middle after : Objects}
    (last : rescueCurrent one vault current rescued outcome middle =
      (.ok (migrated, final), after)) :
    (current ∈ versionIds rescued ∧ migrated = rescued ∧ after = middle) ∨
    (current ∉ versionIds rescued ∧ ∃ sizeBytes,
      rescueVersion one vault middle current true none =
          (.ok (some sizeBytes), after) ∧
        migrated = rescued ++ [newSnapshot vault.row current vault.row.updatedAt sizeBytes]) := by
  unfold rescueCurrent at last
  simp only [any_versionId_iff] at last
  split_ifs at last with listed
  · cases last
    exact .inl ⟨listed, rfl, rfl⟩
  · split at last
    case h_1 => simp at last
    case h_2 => simp at last
    case h_3 sizeBytes left here =>
      cases last
      exact .inr ⟨listed, sizeBytes, here, rfl⟩

/-- The last stage does no harm either. -/
theorem unharmed_rescueCurrent
    {current : String} {rescued : List VersionSnapshot} {outcome : MigrationOutcome}
    {middle : Objects} (unharmed : Unharmed faults vault middle) :
    Unharmed faults vault
      (rescueCurrent faults.current vault current rescued outcome middle).2 := by
  unfold rescueCurrent
  split_ifs with listed
  · exact unharmed
  have here : Unharmed faults vault
      (rescueVersion faults.current vault middle current true none).2 := by
    constructor
    · rw [rescueVersion_frame (versionKey_ne_objectKey _ _).symm]
      exact unharmed.bare
    · intro versionId body answers currentAnswers there
      have stays := unharmed.stable versionId body answers currentAnswers there
      by_cases same : versionId = current
      · rw [same] at stays ⊢
        rw [rescueVersion_stable currentAnswers stays]
        exact stays
      · rw [rescueVersion_frame]
        · exact stays
        · rw [Ne, versionKey_inj]
          exact same
  split <;> rename_i rescue <;> rw [rescue] at here <;> exact here

/-- Where the bare object is gone, a rescue of the current version changes
nothing. -/
theorem finds_or_of_bare_none {one : RescueFaults} {objects : Objects} {versionId : String}
    {storedVersions : Option (List String)} (bare : objects vault.row.objectKey = none) :
    (vault.finds one objects versionId true storedVersions).or
        (objects (versionKey vault.row.objectKey versionId)) =
      objects (versionKey vault.row.objectKey versionId) := by
  unfold LegacyVault.finds LegacyVault.source
  cases one.headFails <;> simp [bare]

/-- The key of every id of the history holds after the last stage what it held
before. -/
theorem rescueCurrent_left {one : RescueFaults} {current versionId : String}
    {rescued : List VersionSnapshot} {middle after : Objects} {sizeBytes : Int}
    (history : Rescued faults.rescue vault current
      (vault.listLegacyVersions faults.listFails) vault.row.versionHistory
      vault.objects rescued middle)
    (bare : middle vault.row.objectKey = vault.objects vault.row.objectKey)
    (absent : current ∉ versionIds rescued)
    (here : rescueVersion one vault middle current true none = (.ok (some sizeBytes), after))
    (present : versionId ∈ versionIds vault.row.versionHistory) :
    after (versionKey vault.row.objectKey versionId) =
      middle (versionKey vault.row.objectKey versionId) := by
  by_cases same : versionId = current
  · subst same
    obtain ⟨snapshot, stored, equal⟩ := exists_mem_of_mem_versionIds present
    have nowhere : vault.found faults.rescue versionId
        (vault.listLegacyVersions faults.listFails) vault.objects versionId = none := by
      by_contra found
      exact absent ((history.listed versionId).mpr ⟨snapshot, stored, equal, .inr found⟩)
    rw [LegacyVault.found, LegacyVault.finds, Option.or_eq_none_iff] at nowhere
    have gone : middle vault.row.objectKey = none := by
      rw [bare]
      simpa [LegacyVault.source] using nowhere.2
    rw [(rescueVersion_ok here).2, finds_or_of_bare_none gone]
  · apply frame_of_rescue here
    rw [Ne, versionKey_inj]
    exact same

/-- Both stages done, the run has what it needs for the row. -/
theorem migratedTo_of_rescued
    (kept : Kept vault.row) {current : String} (accepted : ValidVersionId current)
    {rescued migrated : List VersionSnapshot} {outcome final : MigrationOutcome}
    {middle after : Objects}
    (loop : rescueHistory faults.rescue vault current
      (vault.listLegacyVersions faults.listFails) vault.row.versionHistory
      vault.objects = (.ok (rescued, outcome), middle))
    (last : rescueCurrent faults.current vault current rescued outcome middle =
      (.ok (migrated, final), after)) :
    MigratedTo faults vault current migrated after := by
  have history := rescueHistory_ok loop
  have unharmed : Unharmed faults vault middle := by
    have still : Unharmed faults vault (rescueHistory faults.rescue vault current
        (vault.listLegacyVersions faults.listFails) vault.row.versionHistory
        vault.objects).2 :=
      unharmed_rescueHistory
    rw [loop] at still
    exact still
  have keyed : ∀ snapshot ∈ rescued,
      snapshot.objectKey = some (versionKey vault.row.objectKey snapshot.versionId) := by
    intro snapshot present
    rcases history.keys snapshot present with ⟨old, owned⟩ | new
    · obtain ⟨objectKey, stored⟩ := Option.ne_none_iff_exists'.mp owned
      rw [stored, kept.keyed snapshot old objectKey stored]
    · exact new
  have valid : ∀ snapshot ∈ rescued, ValidVersionId snapshot.versionId := by
    intro snapshot present
    obtain ⟨old, stored, same, _⟩ :=
      (history.listed snapshot.versionId).mp (mem_versionIds_of_mem present)
    rw [← same]
    exact kept.valid old stored
  have survived : ∀ snapshot ∈ vault.row.versionHistory,
      snapshot.objectKey ≠ none ∨
          vault.runFinds faults current snapshot.versionId ≠ none →
        snapshot.versionId ∈ versionIds rescued :=
    fun snapshot present found =>
      (history.listed _).mpr ⟨snapshot, present, rfl, found⟩
  rcases rescueCurrent_ok last with
    ⟨listed, rfl, rfl⟩ | ⟨absent, sizeBytes, here, rfl⟩
  · refine ⟨valid, keyed, listed, survived, fun versionId _ => history.left versionId,
      ?_, unharmed.bare⟩
    intro outside
    obtain ⟨snapshot, present, same, _⟩ := (history.listed current).mp listed
    rw [← same] at outside
    exact absurd (mem_versionIds_of_mem present) outside
  -- the current version is added at the end
  refine ⟨?_, ?_, by simp, ?_, ?_, ?_, ?_⟩
  · intro snapshot present
    rcases List.mem_append.mp present with old | new
    · exact valid snapshot old
    · rw [List.mem_singleton.mp new]
      exact accepted
  · intro snapshot present
    rcases List.mem_append.mp present with old | new
    · exact keyed snapshot old
    · rw [List.mem_singleton.mp new]
      rfl
  · intro snapshot present found
    rw [versionIds_append, List.mem_append]
    exact .inl (survived snapshot present found)
  · intro versionId present
    rw [rescueCurrent_left history unharmed.bare absent here present]
    exact history.left versionId
  · intro outside
    have finds : vault.finds faults.current middle current true none =
        vault.finds faults.current vault.objects current true none := by
      apply finds_congr _ unharmed.bare
      rw [history.left, LegacyVault.leaves, if_neg]
      rintro ⟨snapshot, present, same, _⟩
      rw [← same] at outside
      exact outside (mem_versionIds_of_mem present)
    obtain ⟨answer, there⟩ := rescueVersion_ok here
    rw [finds] at answer there
    obtain ⟨bytes, found⟩ := Option.isSome_iff_exists.mp answer.symm
    refine ⟨bytes, found, ?_⟩
    rw [there, found, Option.some_or]
  · rw [frame_of_rescue here (versionKey_ne_objectKey _ _).symm]
    exact unharmed.bare

/-- A run stops before the row and does no harm, or both stages are done, the row is
written and at most the bare object is deleted. -/
theorem runMigration_stages (faults : MigrationFaults) (vault : LegacyVault) :
    ((runMigration faults vault).row = vault.row ∧
        Unharmed faults vault (runMigration faults vault).objects) ∨
      ∃ current rescued outcome middle migrated final after,
        isMigrated vault.row.versionHistory vault.row.currentVersionId = false ∧
        vault.row.migrationCurrent = some current ∧
        rescueHistory faults.rescue vault current
            (vault.listLegacyVersions faults.listFails) vault.row.versionHistory
            vault.objects = (.ok (rescued, outcome), middle) ∧
        rescueCurrent faults.current vault current rescued outcome middle =
          (.ok (migrated, final), after) ∧
        (runMigration faults vault).row = vault.row.updateUpload current migrated ∧
        ((runMigration faults vault).objects = after ∨
          (runMigration faults vault).objects = after.delete vault.row.objectKey) := by
  have nothing : Unharmed faults vault vault.objects := ⟨rfl, fun _ _ _ _ there => there⟩
  unfold runMigration
  split_ifs with done
  · exact .inl ⟨rfl, nothing⟩
  have pending : isMigrated vault.row.versionHistory vault.row.currentVersionId =
      false := by
    simpa using done
  unfold migrateOne
  cases stored : vault.row.currentVersionId with
  | none => exact .inl ⟨rfl, nothing⟩
  | some versionId =>
      cases accepted : validateVersionId versionId with
      | error error =>
          simp only [accepted]
          exact .inl ⟨trivial, nothing⟩
      | ok current =>
          have read : vault.row.migrationCurrent = some current :=
            migrationCurrent_eq_some.mpr ⟨versionId, stored, accepted⟩
          have unharmed : Unharmed faults vault (rescueHistory faults.rescue vault
              current (vault.listLegacyVersions faults.listFails)
              vault.row.versionHistory vault.objects).2 :=
            unharmed_rescueHistory
          rw [stored] at pending
          simp only [accepted]
          cases loop : rescueHistory faults.rescue vault current
              (vault.listLegacyVersions faults.listFails) vault.row.versionHistory
              vault.objects with
          | mk answer middle =>
              rw [loop] at unharmed
              cases answer with
              | error error =>
                  exact .inl ⟨rfl, unharmed⟩
              | ok result =>
                  obtain ⟨rescued, outcome⟩ := result
                  have still : Unharmed faults vault (rescueCurrent faults.current
                      vault current rescued outcome middle).2 :=
                    unharmed_rescueCurrent unharmed
                  cases last : rescueCurrent faults.current vault current rescued
                      outcome middle with
                  | mk answer after =>
                      rw [last] at still
                      cases answer with
                      | error error =>
                          simp only [last]
                          exact .inl ⟨trivial, still⟩
                      | ok result =>
                          obtain ⟨migrated, final⟩ := result
                          simp only [last]
                          cases faults.rowWrite with
                          | refused => exact .inl ⟨rfl, still⟩
                          | unanswered =>
                              exact .inr ⟨current, rescued, outcome, middle, migrated,
                                final, after, pending, read, loop, last, rfl, .inl rfl⟩
                          | written =>
                              refine .inr ⟨current, rescued, outcome, middle, migrated,
                                final, after, pending, read, loop, last, rfl, ?_⟩
                              simp only
                              split_ifs
                              · exact .inl rfl
                              · exact .inr rfl

/-- A run stops before the row and does no harm, or it has written the row and at
most deleted the bare object. -/
theorem runMigration_cases (faults : MigrationFaults) (kept : Kept vault.row) :
    ((runMigration faults vault).row = vault.row ∧
        Unharmed faults vault (runMigration faults vault).objects) ∨
      ∃ current migrated after,
        isMigrated vault.row.versionHistory vault.row.currentVersionId = false ∧
        vault.row.migrationCurrent = some current ∧
        MigratedTo faults vault current migrated after ∧
        (runMigration faults vault).row = vault.row.updateUpload current migrated ∧
        ((runMigration faults vault).objects = after ∨
          (runMigration faults vault).objects = after.delete vault.row.objectKey) := by
  rcases runMigration_stages faults vault with
    unharmed | ⟨current, rescued, outcome, middle, migrated, final, after, pending,
      read, loop, last, written, objects⟩
  · exact .inl unharmed
  obtain ⟨_, _, accepted⟩ := migrationCurrent_eq_some.mp read
  have complete := migratedTo_of_rescued kept (validateVersionId_eq_ok.mp accepted).2 loop last
  exact .inr ⟨current, migrated, after, pending, read, complete, written, objects⟩

/-- A row that was migrated names an object for every version. -/
theorem MigratedTo.recorded {current : String} {migrated : List VersionSnapshot} {after : Objects}
    (complete : MigratedTo faults vault current migrated after) :
    Recorded (vault.row.updateUpload current migrated) where
  valid := complete.valid
  ownKey := complete.keyed
  current := by
    intro versionId same
    cases Option.some.inj same
    exact complete.listed
  unsaved := fun none => nomatch none

/-- A run keeps rows as the server keeps them. -/
theorem kept_runMigration (kept : Kept vault.row) :
    Kept (runMigration faults vault).row := by
  rcases runMigration_cases faults kept with
    ⟨same, _⟩ | ⟨current, migrated, after, _, _, complete, written, _⟩
  · rw [same]
    exact kept
  · rw [written]
    refine ⟨complete.valid, ?_⟩
    intro snapshot present objectKey stored
    exact Option.some.inj (stored.symm.trans (complete.keyed snapshot present))

/-- After the row was written, a listed version resolves to its own key. -/
theorem MigratedTo.resolves
    {current versionId : String} {migrated : List VersionSnapshot} {after : Objects}
    (complete : MigratedTo faults vault current migrated after)
    (listed : versionId ∈ versionIds migrated) :
    resolveBlobKey (vault.row.updateUpload current migrated) (some versionId) =
      .ok (versionKey vault.row.objectKey versionId) := by
  have valid := complete.recorded.valid_of_mem_versionIds listed
  rw [complete.recorded.resolveBlobKey_some, valid.validate]
  exact if_pos listed

end Run

end Vault
end MindMapVault
