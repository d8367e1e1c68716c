import MindMapVault.Storage.Holdings
import MindMapVault.Vault.Written

/-!
# Where a version id leads

A client names a version and is answered with the object under one key. Whatever
the age of the row, the key is the bare one of the vault or one of its versions, no
two ids share a key, and what an old id leads to is not where the current version
is kept.
-/

namespace MindMapVault
namespace Vault

section OwnKey

variable {map : StoredMindMap}

/-- The key of its own that the history has for a version. -/
def StoredMindMap.ownKey (map : StoredMindMap) (wanted : String) : Option String :=
  ((normalizeVersionHistory map.versionHistory).find?
    (·.versionId = wanted)).bind VersionSnapshot.objectKey

theorem exists_mem_of_ownKey {wanted objectKey : String}
    (owned : map.ownKey wanted = some objectKey) :
    ∃ snapshot ∈ normalizeVersionHistory map.versionHistory,
      snapshot.versionId = wanted ∧ snapshot.objectKey = some objectKey := by
  obtain ⟨snapshot, found, key⟩ := Option.bind_eq_some_iff.mp owned
  have same : snapshot.versionId = wanted := by
    simpa using List.find?_some found
  exact ⟨snapshot, List.mem_of_find?_eq_some found, same, key⟩

/-- Resolving a version goes by its own key. -/
theorem resolveBlobKey_some (given : String) :
    resolveBlobKey map (some given) =
      (validateVersionId given).bind fun wanted =>
        match map.ownKey wanted with
        | some objectKey => .ok objectKey
        | none =>
            if map.normalizedCurrent = some wanted then
              .ok map.objectKey
            else
              .error (.notFound s!"version '{wanted}' is no longer stored") := by
  cases validated : validateVersionId given with
  | error error => simp [resolveBlobKey, validated, Except.map, bind, Except.bind]
  | ok wanted =>
      simp only [resolveBlobKey, validated]
      rfl

/-- An id leads to its own key, or to the bare one if it is current. -/
theorem resolveBlobKey_some_eq_ok {given objectKey : String} :
    resolveBlobKey map (some given) = .ok objectKey ↔
      ∃ wanted, validateVersionId given = .ok wanted ∧
        (map.ownKey wanted = some objectKey ∨
          map.ownKey wanted = none ∧ map.normalizedCurrent = some wanted ∧
            map.objectKey = objectKey) := by
  rw [resolveBlobKey_some]
  cases validateVersionId given with
  | error error => simp [Except.bind]
  | ok wanted =>
      simp only [Except.bind]
      cases owned : map.ownKey wanted with
      | some own => simp [owned]
      | none =>
          by_cases current : map.normalizedCurrent = some wanted
          · simp [owned, current]
          · simp [owned, current]

/-- The current version leads to its own key, or to the bare one. -/
theorem resolveBlobKey_none :
    resolveBlobKey map none = .ok ((map.normalizedCurrent.bind map.ownKey).getD map.objectKey) := by
  cases current : map.normalizedCurrent with
  | none => simp [resolveBlobKey, current, bind, Except.bind, pure, Except.pure]
  | some wanted =>
      have byOwnKey : resolveBlobKey map none =
          match map.ownKey wanted with
          | some objectKey => .ok objectKey
          | none =>
              if some wanted = some wanted then
                .ok map.objectKey
              else
                .error (.notFound s!"version '{wanted}' is no longer stored") := by
        unfold resolveBlobKey
        rw [current]
        rfl
      rw [byOwnKey, Option.bind_some]
      cases map.ownKey wanted <;> simp

end OwnKey

namespace Addressed

variable {map : StoredMindMap}

/-- A key of its own is made of an id that leads to the one that was asked for. -/
theorem ownKey (addressed : Addressed map) {wanted objectKey : String}
    (owned : map.ownKey wanted = some objectKey) :
    ∃ raw, objectKey = versionKey map.objectKey raw ∧ NormalizesTo raw wanted := by
  obtain ⟨snapshot, present, rfl, key⟩ := exists_mem_of_ownKey owned
  exact addressed.keyed_normalized present key

/-- Where a version has a key of its own, the current version is a valid id. -/
theorem current_of_ownKey (addressed : Addressed map) {wanted objectKey : String}
    (owned : map.ownKey wanted = some objectKey) :
    ∃ current, map.normalizedCurrent = some current ∧ ValidVersionId current := by
  obtain ⟨snapshot, present, _, key⟩ := exists_mem_of_ownKey owned
  exact addressed.current_normalized present (by simp [key])

/-- Two valid ids with one key are one id. -/
theorem ownKey_unique (addressed : Addressed map) {wanted other objectKey : String}
    (valid : ValidVersionId wanted) (otherValid : ValidVersionId other)
    (owned : map.ownKey wanted = some objectKey)
    (otherOwned : map.ownKey other = some objectKey) : wanted = other := by
  obtain ⟨raw, rfl, leads⟩ := addressed.ownKey owned
  obtain ⟨otherRaw, same, otherLeads⟩ := addressed.ownKey otherOwned
  cases versionKey_inj.mp same
  exact leads.valid_unique otherLeads valid otherValid

/-- No version has the bare key for its own. -/
theorem ownKey_ne_objectKey (addressed : Addressed map) {wanted objectKey : String}
    (owned : map.ownKey wanted = some objectKey) : objectKey ≠ map.objectKey := by
  obtain ⟨raw, rfl, _⟩ := addressed.ownKey owned
  exact versionKey_ne_objectKey _ _

/-- A resolved key is the bare one, or the own key of a valid id. -/
theorem resolved (addressed : Addressed map) {versionId : Option String}
    {objectKey : String} (resolved : resolveBlobKey map versionId = .ok objectKey) :
    objectKey = map.objectKey ∨
      ∃ wanted, ValidVersionId wanted ∧ map.ownKey wanted = some objectKey := by
  cases versionId with
  | none =>
      rw [resolveBlobKey_none, Except.ok.injEq] at resolved
      cases current : map.normalizedCurrent with
      | none =>
          rw [current] at resolved
          exact .inl resolved.symm
      | some wanted =>
          rw [current, Option.bind_some] at resolved
          cases owned : map.ownKey wanted with
          | none =>
              rw [owned] at resolved
              exact .inl resolved.symm
          | some own =>
              rw [owned, Option.getD_some] at resolved
              obtain ⟨valid, same, accepted⟩ := addressed.current_of_ownKey owned
              rw [current] at same
              cases same
              exact .inr ⟨wanted, accepted, resolved ▸ owned⟩
  | some given =>
      obtain ⟨wanted, validated, owned | ⟨_, _, bare⟩⟩ := resolveBlobKey_some_eq_ok.mp resolved
      · exact .inr ⟨wanted, (validateVersionId_eq_ok.mp validated).2, owned⟩
      · exact .inl bare.symm

end Addressed

end Vault

namespace Storage

open Vault

/-- Resolving an id of the vault stays in the vault and tells its versions apart. -/
structure ResolvesWithin (map : StoredMindMap) : Prop where
  /-- The key is the bare one, or that of a version with no further separator. -/
  form : ∀ versionId objectKey, resolveBlobKey map versionId = .ok objectKey →
    objectKey = map.objectKey ∨
      ∃ segment : String, '/' ∉ segment.toList ∧ objectKey = versionKey map.objectKey segment
  /-- It is no key of another vault. -/
  foreign : ∀ other : StoredMindMap, IsUuid other.objectKey →
    other.objectKey ≠ map.objectKey →
      ∀ versionId objectKey, resolveBlobKey map versionId = .ok objectKey →
        ownsKey other objectKey = false
  /-- Different ids have different keys. -/
  apart : ∀ given other objectKey,
    resolveBlobKey map (some given) = .ok objectKey →
      resolveBlobKey map (some other) = .ok objectKey →
        validateVersionId given = validateVersionId other
  /-- An id that is not current does not lead to the bytes of the current one. -/
  notCurrent : ∀ given wanted objectKey, validateVersionId given = .ok wanted →
    map.normalizedCurrent ≠ some wanted →
      resolveBlobKey map (some given) = .ok objectKey →
        resolveBlobKey map none ≠ .ok objectKey ∧ objectKey ≠ map.objectKey ∧
          ∀ current, map.normalizedCurrent = some current →
            objectKey ≠ versionKey map.objectKey current

section Resolution

variable {map : StoredMindMap}

/-- The keys that ids lead to. -/
theorem resolved_form (addressed : Addressed map) {versionId : Option String}
    {objectKey : String} (resolved : resolveBlobKey map versionId = .ok objectKey) :
    objectKey = map.objectKey ∨
      ∃ segment : String, '/' ∉ segment.toList ∧ objectKey = versionKey map.objectKey segment := by
  rcases addressed.resolved resolved with bare | ⟨wanted, valid, owned⟩
  · exact .inl bare
  · obtain ⟨raw, key, leads⟩ := addressed.ownKey owned
    exact .inr ⟨raw, leads.no_separator valid, key⟩

/-- A key that starts with one UUID is in no other vault. -/
theorem ownsKey_of_resolved (addressed : Addressed map) (uuid : IsUuid map.objectKey)
    {other : StoredMindMap} (otherUuid : IsUuid other.objectKey)
    (differs : other.objectKey ≠ map.objectKey) {versionId : Option String} {objectKey : String}
    (resolved : resolveBlobKey map versionId = .ok objectKey) :
    ownsKey other objectKey = false := by
  have starts : ∃ rest, objectKey.toList ++ ['/'] =
      map.objectKey.toList ++ '/' :: rest := by
    rcases resolved_form addressed resolved with rfl | ⟨segment, _, rfl⟩
    · exact ⟨[], rfl⟩
    · exact ⟨'v' :: '/' :: (segment.toList ++ ['/']), by
        simp [versionKey, String.toList_append]⟩
  obtain ⟨rest, starts⟩ := starts
  have mapsSegment : '/' ∉ "maps".toList := by decide
  rw [← Bool.not_eq_true]
  intro owns
  rcases ownsKey_cases owns with ⟨otherRest, otherStarts⟩ | ⟨otherRest, otherStarts⟩
  · obtain ⟨sameKey, -⟩ := Text.segment_inj otherUuid.no_separator uuid.no_separator
      (otherStarts.symm.trans starts)
    exact differs (String.toList_inj.mp sameKey)
  · obtain ⟨sameKey, -⟩ := Text.segment_inj uuid.no_separator mapsSegment
      (starts.symm.trans otherStarts)
    exact uuid.ne_maps sameKey

/-- Ids with one key are the same id. -/
theorem resolved_apart (addressed : Addressed map) {given other objectKey : String}
    (resolved : resolveBlobKey map (some given) = .ok objectKey)
    (otherResolved : resolveBlobKey map (some other) = .ok objectKey) :
    validateVersionId given = validateVersionId other := by
  obtain ⟨wanted, validated, found⟩ := resolveBlobKey_some_eq_ok.mp resolved
  obtain ⟨otherWanted, otherValidated, otherFound⟩ := resolveBlobKey_some_eq_ok.mp otherResolved
  have valid := (validateVersionId_eq_ok.mp validated).2
  have otherValid := (validateVersionId_eq_ok.mp otherValidated).2
  rw [validated, otherValidated]
  apply congrArg
  rcases found with owned | ⟨_, current, bare⟩
  · rcases otherFound with otherOwned | ⟨_, _, otherBare⟩
    · exact addressed.ownKey_unique valid otherValid owned otherOwned
    · exact absurd otherBare.symm (addressed.ownKey_ne_objectKey owned)
  · rcases otherFound with otherOwned | ⟨_, otherCurrent, _⟩
    · exact absurd bare.symm (addressed.ownKey_ne_objectKey otherOwned)
    · exact Option.some.inj (current.symm.trans otherCurrent)

/-- An old id does not lead to where the current version may be. -/
theorem resolved_notCurrent (addressed : Addressed map)
    {given wanted objectKey : String} (validated : validateVersionId given = .ok wanted)
    (inactive : map.normalizedCurrent ≠ some wanted)
    (resolved : resolveBlobKey map (some given) = .ok objectKey) :
    resolveBlobKey map none ≠ .ok objectKey ∧ objectKey ≠ map.objectKey ∧
      ∀ current, map.normalizedCurrent = some current →
        objectKey ≠ versionKey map.objectKey current := by
  have valid := (validateVersionId_eq_ok.mp validated).2
  have owned : map.ownKey wanted = some objectKey := by
    obtain ⟨other, otherValidated, found⟩ := resolveBlobKey_some_eq_ok.mp resolved
    rw [validated] at otherValidated
    cases otherValidated
    rcases found with owned | ⟨_, active, _⟩
    · exact owned
    · exact absurd active inactive
  have notBare := addressed.ownKey_ne_objectKey owned
  obtain ⟨current, active, currentValid⟩ := addressed.current_of_ownKey owned
  have differs : current ≠ wanted := fun same => inactive (same ▸ active)
  refine ⟨?_, notBare, ?_⟩
  · rw [resolveBlobKey_none, active, Option.bind_some]
    intro same
    cases currentOwned : map.ownKey current with
    | none =>
        rw [currentOwned] at same
        exact notBare (Except.ok.inj same).symm
    | some own =>
        rw [currentOwned] at same
        cases same
        exact differs (addressed.ownKey_unique currentValid valid currentOwned owned)
  · intro other same
    rw [active] at same
    cases same
    rintro rfl
    obtain ⟨raw, key, leads⟩ := addressed.ownKey owned
    cases versionKey_inj.mp key
    exact differs ((NormalizesTo.refl _).valid_unique leads currentValid valid)

end Resolution

/-- Whatever wrote the history of a vault, its ids stay in the vault and apart. -/
theorem resolvesWithin_of_written
    (map : StoredMindMap) (uuid : IsUuid map.objectKey) (written : Written map) :
    ResolvesWithin map where
  form _ _ := resolved_form written.addressed
  foreign _ otherUuid differs _ _ := ownsKey_of_resolved written.addressed uuid otherUuid differs
  apart _ _ _ := resolved_apart written.addressed
  notCurrent _ _ _ := resolved_notCurrent written.addressed

/-- A vault saved twice by an old build and once since, and then migrated. -/
def agedVault : LegacyVault :=
  let row := createMindMap "map" "user" "0b6f0a52-6d7e-4f0a-9c53-0d8f0a4b7c11"
    ⟨"title", "classical", "pq", "dek"⟩ 0
  let legacy := row.updateUpload "\" v2\""
    [⟨"\"v1\"", "classical", "pq", "dek", 0, none, none⟩,
      ⟨"\" v2\"", "classical", "pq", "dek", 0, none, none⟩]
  { row := legacy.updateUpload "v3" (recordVersion legacy "v3" 1 8).1
    objects := Objects.put (fun _ => none) "0b6f0a52-6d7e-4f0a-9c53-0d8f0a4b7c11/v/v3" [1]
    versions := none }

theorem resolvesWithin_of_written_aged :
    ResolvesWithin (runMigration {} agedVault).row :=
  resolvesWithin_of_written _ (by decide)
    (.migrated (.saved (.legacy (by decide)) (.legacy (by decide)) rfl (by decide) 1 8) {})

end Storage
end MindMapVault
