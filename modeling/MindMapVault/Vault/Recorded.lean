import MindMapVault.Vault.History

/-!
# Rows the handlers have written

A row is `Recorded` when every entry of its history has a valid id and the key
that belongs to that id, and its current version is one of them. Fresh vaults
are recorded and both writers of the history keep it so. For a recorded row
normalisation removes repetitions only, and resolving an id is membership.
-/

namespace MindMapVault
namespace Vault

/-- The history of the row names its objects, and the current version is in
it. -/
structure Recorded (map : StoredMindMap) : Prop where
  valid : ∀ snapshot ∈ map.versionHistory, ValidVersionId snapshot.versionId
  ownKey : ∀ snapshot ∈ map.versionHistory,
    snapshot.objectKey = some (versionKey map.objectKey snapshot.versionId)
  current : ∀ versionId, map.currentVersionId = some versionId →
    versionId ∈ versionIds map.versionHistory
  unsaved : map.currentVersionId = none → map.versionHistory = []

namespace Recorded

variable {map other : StoredMindMap}

/-- Only the key and the two version columns matter. -/
theorem congr (recorded : Recorded map) (objectKey : other.objectKey = map.objectKey)
    (history : other.versionHistory = map.versionHistory)
    (current : other.currentVersionId = map.currentVersionId) :
    Recorded other where
  valid := by
    rw [history]
    exact recorded.valid
  ownKey := by
    rw [history, objectKey]
    exact recorded.ownKey
  current := by
    rw [history, current]
    exact recorded.current
  unsaved := by
    rw [history, current]
    exact recorded.unsaved

theorem valid_of_mem_versionIds (recorded : Recorded map) {versionId : String}
    (present : versionId ∈ versionIds map.versionHistory) :
    ValidVersionId versionId := by
  obtain ⟨snapshot, stored, rfl⟩ := exists_mem_of_mem_versionIds present
  exact recorded.valid snapshot stored

theorem mem_versionIds_normalized (recorded : Recorded map) {versionId : String} :
    versionId ∈ versionIds (normalizeVersionHistory map.versionHistory) ↔
      versionId ∈ versionIds map.versionHistory :=
  mem_versionIds_normalizeVersionHistory recorded.valid

theorem mem_of_mem_normalized (recorded : Recorded map) {snapshot : VersionSnapshot}
    (present : snapshot ∈ normalizeVersionHistory map.versionHistory) :
    snapshot ∈ map.versionHistory :=
  mem_of_mem_normalizeVersionHistory recorded.valid present

/-- The handlers read the current version as it is stored. -/
theorem normalizedCurrent_eq (recorded : Recorded map) :
    map.normalizedCurrent = map.currentVersionId := by
  unfold StoredMindMap.normalizedCurrent
  cases stored : map.currentVersionId with
  | none => rfl
  | some versionId =>
      have valid := recorded.valid_of_mem_versionIds (recorded.current versionId stored)
      simp [valid.normalize, valid.1]

/-- The entry the lookup of an id finds carries the key of that id. -/
theorem find_objectKey (recorded : Recorded map) (wanted : String) :
    ((normalizeVersionHistory map.versionHistory).find?
        (·.versionId = wanted)).bind VersionSnapshot.objectKey =
      if wanted ∈ versionIds map.versionHistory then
        some (versionKey map.objectKey wanted)
      else
        none := by
  cases found : (normalizeVersionHistory map.versionHistory).find? (·.versionId = wanted) with
  | none =>
      have absent : wanted ∉ versionIds map.versionHistory := by
        intro present
        obtain ⟨snapshot, stored, same⟩ := exists_mem_of_mem_versionIds
          (recorded.mem_versionIds_normalized.mpr present)
        have differs := List.find?_eq_none.mp found snapshot stored
        simp [same] at differs
      simp [absent]
  | some snapshot =>
      have same : snapshot.versionId = wanted := by
        simpa using List.find?_some found
      have stored := recorded.mem_of_mem_normalized (List.mem_of_find?_eq_some found)
      subst same
      simp [recorded.ownKey snapshot stored, mem_versionIds_of_mem stored]

/-- Resolving an id is membership in the history. -/
theorem resolveBlobKey_some (recorded : Recorded map) (given : String) :
    resolveBlobKey map (some given) =
      (validateVersionId given).bind fun wanted =>
        if wanted ∈ versionIds map.versionHistory then
          .ok (versionKey map.objectKey wanted)
        else
          .error (.notFound s!"version '{wanted}' is no longer stored") := by
  cases validated : validateVersionId given with
  | error error => simp [resolveBlobKey, validated, Except.map, Except.bind, bind]
  | ok wanted =>
      by_cases present : wanted ∈ versionIds map.versionHistory
      · simp [resolveBlobKey, validated, Except.map, Except.bind, bind, pure,
          Except.pure, recorded.find_objectKey, present]
      · have notCurrent : map.currentVersionId ≠ some wanted :=
          fun same => present (recorded.current wanted same)
        simp [resolveBlobKey, validated, Except.map, Except.bind, bind,
          recorded.find_objectKey, present, recorded.normalizedCurrent_eq,
          notCurrent, throw, throwThe, MonadExceptOf.throw]

/-- The current version resolves to its own key. -/
theorem resolveBlobKey_none (recorded : Recorded map) :
    resolveBlobKey map none =
      .ok (map.currentVersionId.elim map.objectKey (versionKey map.objectKey)) := by
  cases stored : map.currentVersionId with
  | none =>
      simp [resolveBlobKey, recorded.normalizedCurrent_eq, stored, bind,
        Except.bind, pure, Except.pure]
  | some versionId =>
      have present := recorded.current versionId stored
      simp [resolveBlobKey, recorded.normalizedCurrent_eq, stored, bind,
        Except.bind, pure, Except.pure, recorded.find_objectKey, present]

/-- What a deletion removes from storage: the object of the id its path
resolves to, when the history has it. -/
theorem deletionKey_eq_ok_some (recorded : Recorded map) {target objectKey : String} :
    deletionKey map target = .ok (some objectKey) ↔
      ∃ versionId, validateVersionId target = .ok versionId ∧
        versionId ∈ versionIds map.versionHistory ∧
          objectKey = versionKey map.objectKey versionId := by
  unfold deletionKey
  rw [recorded.resolveBlobKey_some]
  cases validated : validateVersionId target with
  | error error => cases error <;> simp [Except.bind]
  | ok versionId =>
      by_cases present : versionId ∈ versionIds map.versionHistory
      · simp [Except.bind, present, eq_comm]
      · simp [Except.bind, present]

theorem retained_subset (recorded : Recorded map) {snapshot : VersionSnapshot}
    (present : snapshot ∈ map.retained) : snapshot ∈ map.versionHistory :=
  recorded.mem_of_mem_normalized (List.mem_of_mem_drop present)

theorem retired_subset (recorded : Recorded map) {snapshot : VersionSnapshot}
    (present : snapshot ∈ map.retired) : snapshot ∈ map.versionHistory :=
  recorded.mem_of_mem_normalized (List.mem_of_mem_take present)

/-- The keys a save gives up are those of the entries it drops. -/
theorem mem_retired_keys (recorded : Recorded map) {objectKey : String} :
    objectKey ∈ map.retired.filterMap VersionSnapshot.objectKey ↔
      ∃ versionId ∈ versionIds map.retired, objectKey = versionKey map.objectKey versionId := by
  simp only [List.mem_filterMap, versionIds, List.mem_map]
  constructor
  · rintro ⟨snapshot, present, stored⟩
    rw [recorded.ownKey snapshot (recorded.retired_subset present)] at stored
    exact ⟨snapshot.versionId, ⟨snapshot, present, rfl⟩, (Option.some.inj stored).symm⟩
  · rintro ⟨_, ⟨snapshot, present, rfl⟩, rfl⟩
    exact ⟨snapshot, present, recorded.ownKey snapshot (recorded.retired_subset present)⟩

/-- No id is both dropped and kept. -/
theorem retired_disjoint_retained
    {versionId : String} (dropped : versionId ∈ versionIds map.retired) :
    versionId ∉ versionIds map.retained := by
  have nodup := nodup_versionIds_normalizeVersionHistory map.versionHistory
  rw [← retired_append_retained, versionIds_append] at nodup
  exact fun kept => (List.nodup_append.mp nodup).2.2 _ dropped _ kept rfl

/-- A save of a valid id leaves a recorded row. -/
theorem recordVersion (recorded : Recorded map) {versionId : String}
    (valid : ValidVersionId versionId) (savedAt : DateTime) (sizeBytes : Int) :
    Recorded (map.updateUpload versionId (recordVersion map versionId savedAt sizeBytes).1) := by
  rw [recordVersion_eq]
  refine ⟨?_, ?_, ?_, ?_⟩
  · intro snapshot present
    rcases List.mem_append.mp present with kept | added
    · exact recorded.valid snapshot (recorded.retained_subset kept)
    · rw [List.mem_singleton.mp added]
      exact valid
  · intro snapshot present
    rcases List.mem_append.mp present with kept | added
    · exact recorded.ownKey snapshot (recorded.retained_subset kept)
    · rw [List.mem_singleton.mp added]
      rfl
  · intro current stored
    cases Option.some.inj stored
    simp
  · intro unsaved
    exact absurd unsaved (Option.some_ne_none versionId)

/-- A deletion keeps exactly the ids other than its target. -/
theorem mem_versionIds_deletion (recorded : Recorded map) {target current : String}
    {history : List VersionSnapshot} (written : deletionRow map target = .ok (current, history))
    {versionId : String} :
    versionId ∈ versionIds history ↔
      versionId ∈ versionIds map.versionHistory ∧ versionId ≠ target := by
  obtain ⟨_, rfl⟩ := deletionRow_eq_ok.mp written
  rw [← recorded.mem_versionIds_normalized]
  simp only [versionIds, List.mem_map, List.mem_filter, decide_eq_true_eq]
  constructor
  · rintro ⟨snapshot, ⟨stored, differs⟩, rfl⟩
    exact ⟨⟨snapshot, stored, rfl⟩, differs⟩
  · rintro ⟨⟨snapshot, stored, rfl⟩, differs⟩
    exact ⟨snapshot, ⟨stored, differs⟩, rfl⟩

/-- A deletion leaves a recorded row. -/
theorem deletion (recorded : Recorded map) {given target current : String}
    {history : List VersionSnapshot} (accepted : deletionTarget map given = .ok target)
    (written : deletionRow map target = .ok (current, history)) :
    Recorded (map.updateUpload current history) := by
  obtain ⟨_, _, inactive⟩ := deletionTarget_eq_ok.mp accepted
  obtain ⟨active, filtered⟩ := deletionRow_eq_ok.mp written
  have stays {snapshot : VersionSnapshot} (present : snapshot ∈ history) :
      snapshot ∈ map.versionHistory := by
    rw [← filtered] at present
    exact recorded.mem_of_mem_normalized (List.mem_of_mem_filter present)
  refine ⟨?_, ?_, ?_, ?_⟩
  · exact fun snapshot present => recorded.valid snapshot (stays present)
  · exact fun snapshot present => recorded.ownKey snapshot (stays present)
  · intro versionId same
    cases Option.some.inj same
    refine (recorded.mem_versionIds_deletion written).mpr ⟨?_, ?_⟩
    · exact recorded.current current (recorded.normalizedCurrent_eq ▸ active)
    · rintro rfl
      exact inactive active
  · intro unsaved
    exact absurd unsaved (Option.some_ne_none current)

end Recorded

end Vault
end MindMapVault
