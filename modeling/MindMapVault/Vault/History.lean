import MindMapVault.Vault.MindMap
import MindMapVault.Vault.VersionId

/-!
# The version history of a vault

How a stored history is normalised, how retention trims it, and how a version
id is resolved to the key of its ciphertext. A history written by the server
records, for every entry, the key under the vault's own prefix; for such rows
resolution is exactly membership.
-/

namespace MindMapVault
namespace Vault

/-- The ids of a history, in order. -/
def versionIds (history : List VersionSnapshot) : List String :=
  history.map VersionSnapshot.versionId

/-- The normalisation loop, with the ids seen so far. -/
def normalizeVersionHistoryFrom (seen : List String) :
    List VersionSnapshot → List VersionSnapshot
  | [] => []
  | snapshot :: rest =>
      let versionId := normalizeVersionId snapshot.versionId
      if versionId = "" ∨ versionId ∈ seen then
        normalizeVersionHistoryFrom seen rest
      else
        { snapshot with versionId := versionId } ::
          normalizeVersionHistoryFrom (versionId :: seen) rest

/-- Normalise every id, drop the empty ones and keep the first entry of each
id. -/
def normalizeVersionHistory (history : List VersionSnapshot) :
    List VersionSnapshot :=
  normalizeVersionHistoryFrom [] history

/-- Trim a history to its newest `keep` entries. The second component lists
the keys of the objects that go with the dropped entries. -/
def pruneHistory (history : List VersionSnapshot) (keep : Nat) :
    List VersionSnapshot × List String :=
  let keep := max keep 1
  if history.length ≤ keep then
    (history, [])
  else
    let excess := history.length - keep
    (history.drop excess, (history.take excess).filterMap VersionSnapshot.objectKey)

@[simp] theorem versionIds_nil : versionIds [] = [] := rfl

@[simp] theorem versionIds_cons
    (snapshot : VersionSnapshot)
    (history : List VersionSnapshot) :
    versionIds (snapshot :: history) = snapshot.versionId :: versionIds history := rfl

@[simp] theorem versionIds_append (first second : List VersionSnapshot) :
    versionIds (first ++ second) = versionIds first ++ versionIds second := by
  simp [versionIds]

theorem mem_versionIds_of_mem {snapshot : VersionSnapshot} {history : List VersionSnapshot}
    (present : snapshot ∈ history) :
    snapshot.versionId ∈ versionIds history :=
  List.mem_map_of_mem present

theorem exists_mem_of_mem_versionIds {versionId : String} {history : List VersionSnapshot}
    (present : versionId ∈ versionIds history) :
    ∃ snapshot ∈ history, snapshot.versionId = versionId :=
  List.mem_map.mp present

/-- What normalisation keeps: the first entry of every id that is not empty and
was not seen before. -/
theorem mem_versionIds_normalizeVersionHistoryFrom
    {seen : List String} {history : List VersionSnapshot} {versionId : String} :
    versionId ∈ versionIds (normalizeVersionHistoryFrom seen history) ↔
      versionId ≠ "" ∧ versionId ∉ seen ∧
        ∃ snapshot ∈ history, normalizeVersionId snapshot.versionId = versionId := by
  induction history generalizing seen with
  | nil => simp [normalizeVersionHistoryFrom]
  | cons snapshot rest ih =>
      simp only [normalizeVersionHistoryFrom]
      split_ifs with skipped
      · rw [ih]
        constructor
        · rintro ⟨nonempty, unseen, later, present, same⟩
          exact ⟨nonempty, unseen, later, List.mem_cons_of_mem _ present, same⟩
        · rintro ⟨nonempty, unseen, found, present, same⟩
          rcases List.mem_cons.mp present with rfl | later
          · rw [same] at skipped
            exact absurd skipped (not_or.mpr ⟨nonempty, unseen⟩)
          · exact ⟨nonempty, unseen, found, later, same⟩
      · rw [not_or] at skipped
        rw [versionIds_cons, List.mem_cons, ih]
        constructor
        · rintro (rfl | ⟨nonempty, unseen, later, present, same⟩)
          · exact ⟨skipped.1, skipped.2, snapshot, List.mem_cons_self, rfl⟩
          · exact ⟨nonempty, fun old => unseen (List.mem_cons_of_mem _ old),
              later, List.mem_cons_of_mem _ present, same⟩
        · rintro ⟨nonempty, unseen, found, present, same⟩
          by_cases first : versionId = normalizeVersionId snapshot.versionId
          · exact .inl first
          · rcases List.mem_cons.mp present with rfl | later
            · exact absurd same.symm first
            · refine .inr ⟨nonempty, ?_, found, later, same⟩
              simp only [List.mem_cons, not_or]
              exact ⟨first, unseen⟩

/-- No id occurs twice in a normalised history. -/
theorem nodup_versionIds_normalizeVersionHistoryFrom
    (seen : List String) (history : List VersionSnapshot) :
    (versionIds (normalizeVersionHistoryFrom seen history)).Nodup := by
  induction history generalizing seen with
  | nil => exact List.nodup_nil
  | cons snapshot rest ih =>
      simp only [normalizeVersionHistoryFrom]
      split_ifs with skipped
      · exact ih seen
      · refine List.nodup_cons.mpr ⟨fun again => ?_, ih _⟩
        exact (mem_versionIds_normalizeVersionHistoryFrom.mp again).2.1 List.mem_cons_self

theorem nodup_versionIds_normalizeVersionHistory (history : List VersionSnapshot) :
    (versionIds (normalizeVersionHistory history)).Nodup :=
  nodup_versionIds_normalizeVersionHistoryFrom [] history

/-- A history of valid ids loses entries to normalisation but no entry
changes. -/
theorem normalizeVersionHistoryFrom_sublist {seen : List String} {history : List VersionSnapshot}
    (valid : ∀ snapshot ∈ history, ValidVersionId snapshot.versionId) :
    (normalizeVersionHistoryFrom seen history).Sublist history := by
  induction history generalizing seen with
  | nil => exact List.Sublist.slnil
  | cons snapshot rest ih =>
      have restValid : ∀ later ∈ rest, ValidVersionId later.versionId :=
        fun later present => valid later (List.mem_cons_of_mem _ present)
      have same : normalizeVersionId snapshot.versionId = snapshot.versionId :=
        (valid snapshot List.mem_cons_self).normalize
      simp only [normalizeVersionHistoryFrom, same]
      split_ifs with skipped
      · exact (ih restValid).cons _
      · exact (ih restValid).cons_cons _

theorem mem_of_mem_normalizeVersionHistory
    {history : List VersionSnapshot} {snapshot : VersionSnapshot}
    (valid : ∀ snapshot ∈ history, ValidVersionId snapshot.versionId)
    (present : snapshot ∈ normalizeVersionHistory history) :
    snapshot ∈ history :=
  (normalizeVersionHistoryFrom_sublist valid).subset present

/-- A history of valid ids keeps every id. -/
theorem mem_versionIds_normalizeVersionHistory {history : List VersionSnapshot} {versionId : String}
    (valid : ∀ snapshot ∈ history, ValidVersionId snapshot.versionId) :
    versionId ∈ versionIds (normalizeVersionHistory history) ↔ versionId ∈ versionIds history := by
  rw [normalizeVersionHistory, mem_versionIds_normalizeVersionHistoryFrom]
  constructor
  · rintro ⟨_, _, snapshot, present, rfl⟩
    rw [(valid snapshot present).normalize]
    exact mem_versionIds_of_mem present
  · intro present
    obtain ⟨snapshot, stored, rfl⟩ := exists_mem_of_mem_versionIds present
    exact ⟨(valid snapshot stored).1, List.not_mem_nil, snapshot, stored,
      (valid snapshot stored).normalize⟩

/-- A history that has been normalised stays as it is if its ids are read back as they are
written: normalising an id twice may strip more than once. -/
theorem normalizeVersionHistoryFrom_eq_self {seen : List String} {history : List VersionSnapshot}
    (stable : ∀ versionId ∈ versionIds history, normalizeVersionId versionId = versionId)
    (nonempty : "" ∉ versionIds history) (unseen : ∀ versionId ∈ versionIds history,
      versionId ∉ seen) (distinct : (versionIds history).Nodup) :
    normalizeVersionHistoryFrom seen history = history := by
  induction history generalizing seen with
  | nil => rfl
  | cons snapshot rest ih =>
      simp only [versionIds_cons, List.mem_cons, List.nodup_cons, forall_eq_or_imp, not_or]
        at stable nonempty unseen distinct
      have kept : ¬(snapshot.versionId = "" ∨ snapshot.versionId ∈ seen) :=
        not_or.mpr ⟨fun empty => nonempty.1 empty.symm, unseen.1⟩
      simp only [normalizeVersionHistoryFrom, stable.1, if_neg kept]
      refine congrArg (snapshot :: ·) (ih stable.2 nonempty.2 ?_ distinct.2)
      intro versionId present
      rw [List.mem_cons, not_or]
      refine ⟨?_, unseen.2 versionId present⟩
      rintro rfl
      exact distinct.1 present

/-- How many entries of a history a save drops: those beyond the newest
`keep - 1`, to make room for the new one. -/
def overflow (history : List VersionSnapshot) (keep : Nat) : Nat := history.length + 1 - max keep 1

/-- A save keeps the entry it adds. -/
theorem pruneHistory_append
    (history : List VersionSnapshot) (added : VersionSnapshot) (keep : Nat) :
    pruneHistory (history ++ [added]) keep =
      (history.drop (overflow history keep) ++ [added],
        (history.take (overflow history keep)).filterMap VersionSnapshot.objectKey) := by
  have room : overflow history keep ≤ history.length := by
    simp only [overflow]
    omega
  by_cases short : (history ++ [added]).length ≤ max keep 1
  · have nothing : overflow history keep = 0 := by
      simp only [List.length_append, List.length_singleton] at short
      simp only [overflow]
      omega
    simp only [pruneHistory, short, if_true, nothing, List.drop_zero,
      List.take_zero, List.filterMap_nil]
  · have excess : (history ++ [added]).length - max keep 1 =
        overflow history keep := by
      simp [overflow]
    simp only [pruneHistory, short, if_false, excess]
    rw [List.drop_append_of_le_length room, List.take_append_of_le_length room]

/-- The current version id of a row as the handlers read it. -/
def StoredMindMap.normalizedCurrent (map : StoredMindMap) : Option String :=
  (map.currentVersionId.map normalizeVersionId).filter (· ≠ "")

/-- The object key a version id is stored under; `none` asks for the current
version. -/
def resolveBlobKey (map : StoredMindMap) (versionId : Option String) :
    Except AppError String := do
  let current := map.normalizedCurrent
  let wanted ← match versionId with
    | some value => (validateVersionId value).map some
    | none => pure current
  match wanted with
  | none => return map.objectKey
  | some wanted =>
      match ((normalizeVersionHistory map.versionHistory).find?
          (·.versionId = wanted)).bind VersionSnapshot.objectKey with
      | some objectKey => return objectKey
      | none =>
          if current = some wanted then
            return map.objectKey
          else
            throw (.notFound s!"version '{wanted}' is no longer stored")

/-- The entry a save adds: the row's envelope and the key of the new object. -/
def newSnapshot (map : StoredMindMap) (versionId : String) (savedAt : DateTime)
    (sizeBytes : Int) : VersionSnapshot where
  versionId := versionId
  ephClassicalPublic := map.ephClassicalPublic
  ephPqCiphertext := map.ephPqCiphertext
  wrappedDek := map.wrappedDek
  savedAt := savedAt
  objectKey := some (versionKey map.objectKey versionId)
  sizeBytes := some sizeBytes

@[simp] theorem newSnapshot_versionId
    (map : StoredMindMap) (versionId : String)
    (savedAt : DateTime) (sizeBytes : Int) :
    (newSnapshot map versionId savedAt sizeBytes).versionId = versionId := rfl

@[simp] theorem newSnapshot_objectKey
    (map : StoredMindMap) (versionId : String)
    (savedAt : DateTime) (sizeBytes : Int) :
    (newSnapshot map versionId savedAt sizeBytes).objectKey =
      some (versionKey map.objectKey versionId) := rfl

@[simp] theorem newSnapshot_envelope
    (map : StoredMindMap) (versionId : String)
    (savedAt : DateTime) (sizeBytes : Int) :
    (newSnapshot map versionId savedAt sizeBytes).envelope = map.envelope := rfl

/-- The history a save writes, and the keys retention gives up for it. -/
def recordVersion (map : StoredMindMap) (versionId : String) (savedAt : DateTime)
    (sizeBytes : Int) : List VersionSnapshot × List String :=
  pruneHistory
    (normalizeVersionHistory map.versionHistory ++ [newSnapshot map versionId savedAt sizeBytes])
    map.maxVersions

/-- The entries of a row's history that the next save drops. -/
def StoredMindMap.retired (map : StoredMindMap) : List VersionSnapshot :=
  let history := normalizeVersionHistory map.versionHistory
  history.take (overflow history map.maxVersions)

/-- The entries of a row's history that the next save keeps. -/
def StoredMindMap.retained (map : StoredMindMap) : List VersionSnapshot :=
  let history := normalizeVersionHistory map.versionHistory
  history.drop (overflow history map.maxVersions)

theorem recordVersion_eq (map : StoredMindMap) (versionId : String)
    (savedAt : DateTime) (sizeBytes : Int) :
    recordVersion map versionId savedAt sizeBytes =
      (map.retained ++ [newSnapshot map versionId savedAt sizeBytes],
        map.retired.filterMap VersionSnapshot.objectKey) :=
  pruneHistory_append _ _ _

@[simp] theorem retired_append_retained (map : StoredMindMap) :
    map.retired ++ map.retained = normalizeVersionHistory map.versionHistory :=
  List.take_append_drop _ _

/-- The id a deletion acts on: the path id, normalised, unless it is empty or
names the current version. -/
def deletionTarget (map : StoredMindMap) (versionId : String) :
    Except AppError String :=
  let target := normalizeVersionId versionId
  if target = "" then
    .error (.badRequest "version_id is required")
  else if map.normalizedCurrent = some target then
    .error (.badRequest "Cannot delete the current active version; save a new version first.")
  else
    .ok target

theorem deletionTarget_eq_ok {map : StoredMindMap} {versionId target : String} :
    deletionTarget map versionId = .ok target ↔
      normalizeVersionId versionId = target ∧ target ≠ "" ∧
        map.normalizedCurrent ≠ some target := by
  unfold deletionTarget
  by_cases empty : normalizeVersionId versionId = ""
  · simp only [empty, if_true, reduceCtorEq, false_iff]
    rintro ⟨rfl, nonempty, _⟩
    exact nonempty rfl
  · by_cases active :
        map.normalizedCurrent = some (normalizeVersionId versionId)
    · simp only [empty, active, if_true, if_false, reduceCtorEq, false_iff]
      rintro ⟨rfl, _, inactive⟩
      exact inactive rfl
    · simp only [empty, active, if_false, Except.ok.injEq]
      constructor
      · rintro rfl
        exact ⟨rfl, empty, active⟩
      · exact fun accepted => accepted.1

/-- The key whose object goes with a deleted version. A version without an
object of its own has none. -/
def deletionKey (map : StoredMindMap) (target : String) :
    Except AppError (Option String) :=
  match resolveBlobKey map (some target) with
  | .ok objectKey => .ok (some objectKey)
  | .error (.notFound _) => .ok none
  | .error error => .error error

/-- The row a deletion writes. -/
def deletionRow (map : StoredMindMap) (target : String) :
    Except AppError (String × List VersionSnapshot) :=
  let filteredHistory := (normalizeVersionHistory map.versionHistory).filter (·.versionId ≠ target)
  match map.normalizedCurrent with
  | some current => .ok (current, filteredHistory)
  | none => .error (.badRequest
      "Current active version is missing from vault metadata.")

theorem deletionRow_eq_ok {map : StoredMindMap} {target current : String}
    {history : List VersionSnapshot} :
    deletionRow map target = .ok (current, history) ↔
      map.normalizedCurrent = some current ∧
        (normalizeVersionHistory map.versionHistory).filter (·.versionId ≠ target) = history := by
  unfold deletionRow
  cases map.normalizedCurrent <;> simp

end Vault
end MindMapVault
