import MindMapVault.Vault.Migration

/-!
# What a migration run leaves

A rescue finds bytes at the destination, if the store answers for it, or else at
the source; it touches no other key, and a second rescue of the same id finds what
the first one found. So in a run every entry ends with the bytes that could be
found for it when the run began, and the bare object is as it was until it is
deleted.
-/

namespace MindMapVault
namespace Vault

/-- A row as the server keeps it: the ids of its history are valid, and a key of
its own is the one that belongs to the id. -/
structure Kept (map : StoredMindMap) : Prop where
  valid : ∀ snapshot ∈ map.versionHistory, ValidVersionId snapshot.versionId
  keyed : ∀ snapshot ∈ map.versionHistory, ∀ objectKey,
    snapshot.objectKey = some objectKey → objectKey = versionKey map.objectKey snapshot.versionId

/-- What the source of a version holds. -/
def LegacyVault.source (vault : LegacyVault) (objects : Objects) (versionId : String)
    (isCurrent : Bool) (storedVersions : Option (List String)) : Option Bytes :=
  if isCurrent then
    objects vault.row.objectKey
  else if storedVersions.any (·.contains versionId) then
    vault.downloadLegacyVersion versionId
  else
    none

/-- The bytes a rescue finds for a version: those at its destination, if the store
answers for it, or those of its source. -/
def LegacyVault.finds (vault : LegacyVault) (faults : RescueFaults) (objects : Objects)
    (versionId : String) (isCurrent : Bool) (storedVersions : Option (List String)) :
    Option Bytes :=
  (if faults.headFails then none else objects (versionKey vault.row.objectKey versionId)).or
  (vault.source objects versionId isCurrent storedVersions)

section Rescue

variable {faults : RescueFaults} {vault : LegacyVault} {objects after : Objects}
variable {versionId : String} {isCurrent : Bool}
variable {storedVersions : Option (List String)}

/-- Only the destination and the bare key matter to a rescue. -/
theorem finds_congr
    (destination : after (versionKey vault.row.objectKey versionId) =
      objects (versionKey vault.row.objectKey versionId))
    (bare : after vault.row.objectKey = objects vault.row.objectKey) :
    vault.finds faults after versionId isCurrent storedVersions =
      vault.finds faults objects versionId isCurrent storedVersions := by
  simp only [LegacyVault.finds, LegacyVault.source, destination, bare]

/-- Once a version has what was found for it, the same is found again. -/
theorem finds_again
    (destination : after (versionKey vault.row.objectKey versionId) =
      (vault.finds faults objects versionId isCurrent storedVersions).or
        (objects (versionKey vault.row.objectKey versionId)))
    (bare : after vault.row.objectKey = objects vault.row.objectKey) :
    vault.finds faults after versionId isCurrent storedVersions =
      vault.finds faults objects versionId isCurrent storedVersions := by
  have source : vault.source after versionId isCurrent storedVersions =
      vault.source objects versionId isCurrent storedVersions := by
    simp only [LegacyVault.source, bare]
  rw [LegacyVault.finds, source, destination, LegacyVault.finds]
  cases faults.headFails with
  | true => rfl
  | false =>
      cases objects (versionKey vault.row.objectKey versionId) <;> simp

/-- An upload touches no other key. -/
theorem upload_frame {outcome : UploadOutcome} {objectKey other : String} {body : Bytes}
    (differs : other ≠ objectKey) :
    (objects.upload outcome objectKey body).2 other = objects other := by
  cases outcome with
  | stored => exact Objects.put_of_ne _ _ differs
  | garbled left => exact Objects.put_of_ne _ _ differs
  | dropped => rfl
  | failed left =>
      cases left with
      | none => rfl
      | some left => exact Objects.put_of_ne _ _ differs

/-- A copy touches nothing but its destination. -/
theorem copyVerified_frame {destination other : String} {sourceBytes : Bytes}
    (differs : other ≠ destination) :
    (copyVerified faults objects destination versionId sourceBytes).2 other = objects other := by
  have frame : (objects.upload faults.upload destination sourceBytes).2 other =
      objects other :=
    upload_frame differs
  unfold copyVerified
  cases uploaded : objects.upload faults.upload destination sourceBytes with
  | mk answer left =>
      rw [uploaded] at frame
      cases answer with
      | error error => exact frame
      | ok done =>
          simp only
          split_ifs <;> exact frame

/-- A copy that succeeds is there. -/
theorem copyVerified_ok {destination : String} {sourceBytes : Bytes}
    (copied : copyVerified faults objects destination versionId sourceBytes = (.ok (), after)) :
    after destination = some sourceBytes := by
  unfold copyVerified at copied
  cases uploaded : objects.upload faults.upload destination sourceBytes with
  | mk answer left =>
      cases answer with
      | error error => simp [uploaded] at copied
      | ok done =>
          simp only [uploaded] at copied
          split_ifs at copied with failed missing differs
          · simp at copied
          · simp at copied
          · simp at copied
          · cases copied
            exact not_not.mp differs

/-- Where the store is healthy, the copy succeeds. -/
theorem copyVerified_healthy {destination : String} {sourceBytes : Bytes} :
    copyVerified {} objects destination versionId sourceBytes =
      (.ok (), objects.put destination sourceBytes) := by
  simp [copyVerified, Objects.upload]

/-- A rescue touches nothing but its destination. -/
theorem rescueVersion_frame
    {other : String} (differs : other ≠ versionKey vault.row.objectKey versionId) :
    (rescueVersion faults vault objects versionId isCurrent storedVersions).2 other =
      objects other := by
  unfold rescueVersion
  simp only
  split
  · rfl
  cases legacySource faults vault objects versionId isCurrent storedVersions with
  | error error => rfl
  | ok found =>
      cases found with
      | none => rfl
      | some sourceBytes =>
          have frame : (copyVerified faults objects
              (versionKey vault.row.objectKey versionId) versionId sourceBytes).2
                other = objects other :=
            copyVerified_frame differs
          cases copied : copyVerified faults objects
              (versionKey vault.row.objectKey versionId) versionId sourceBytes with
          | mk answer left =>
              rw [copied] at frame
              cases answer with
              | error error => simpa only [copied] using frame
              | ok done => simpa only [copied] using frame

/-- What is read from the source is what it holds. -/
theorem legacySource_ok {found : Option Bytes}
    (read : legacySource faults vault objects versionId isCurrent storedVersions = .ok found) :
    found = vault.source objects versionId isCurrent storedVersions := by
  unfold LegacyVault.source
  unfold legacySource at read
  split_ifs at read with unlisted fails current
  · cases read
    simp only [Bool.and_eq_true, Bool.not_eq_true'] at unlisted
    simp only [unlisted.1, unlisted.2, Bool.false_eq_true, if_false]
  · cases read
    simp only [current, if_true]
  · cases read
    simp only [Bool.and_eq_true, Bool.not_eq_true', not_and, Bool.not_eq_false] at unlisted
    simp only [Bool.not_eq_true] at current
    simp only [current, Bool.false_eq_true, if_false, unlisted current, if_true]

/-- A rescue that comes to its end answers whether bytes were found, and they are
at the destination. -/
theorem rescueVersion_ok {rescued : Option Int}
    (done : rescueVersion faults vault objects versionId isCurrent storedVersions =
      (.ok rescued, after)) :
    rescued.isSome =
        (vault.finds faults objects versionId isCurrent storedVersions).isSome ∧
      after (versionKey vault.row.objectKey versionId) =
        (vault.finds faults objects versionId isCurrent storedVersions).or
          (objects (versionKey vault.row.objectKey versionId)) := by
  unfold rescueVersion at done
  unfold LegacyVault.finds
  cases there : if faults.headFails then none
      else objects (versionKey vault.row.objectKey versionId) with
  | some body =>
      simp only [there] at done
      cases done
      split_ifs at there
      rw [there]
      exact ⟨rfl, rfl⟩
  | none =>
      simp only [there] at done
      rw [Option.none_or]
      cases read : legacySource faults vault objects versionId isCurrent storedVersions with
      | error error => simp [read] at done
      | ok found =>
          rw [← legacySource_ok read]
          cases found with
          | none =>
              simp only [read] at done
              cases done
              exact ⟨rfl, rfl⟩
          | some sourceBytes =>
              simp only [read] at done
              cases copied : copyVerified faults objects
                  (versionKey vault.row.objectKey versionId) versionId sourceBytes with
              | mk answer left =>
                  cases answer with
                  | error error => simp [copied] at done
                  | ok fine =>
                      simp only [copied] at done
                      cases done
                      exact ⟨rfl, copyVerified_ok copied⟩

/-- A destination for which the store answers stays as it is. -/
theorem rescueVersion_stable {body : Bytes} (answers : faults.headFails = false)
    (there : objects (versionKey vault.row.objectKey versionId) = some body) :
    (rescueVersion faults vault objects versionId isCurrent storedVersions).2 = objects := by
  simp [rescueVersion, answers, there]

/-- Where the store is healthy, a rescue answers. -/
theorem rescueVersion_healthy :
    ∃ rescued after,
      rescueVersion {} vault objects versionId isCurrent storedVersions = (.ok rescued, after) := by
  unfold rescueVersion legacySource
  simp only [Bool.false_eq_true, if_false, copyVerified_healthy]
  split
  · exact ⟨_, _, rfl⟩
  · split
    case h_1 failed =>
      split_ifs at failed
    · exact ⟨_, _, rfl⟩
    · exact ⟨_, _, rfl⟩

end Rescue

section Loop

variable {faults : String → RescueFaults} {vault : LegacyVault} {current : String}
variable {storedVersions : Option (List String)}

/-- The loop touches nothing but the destinations of entries without a key. -/
theorem rescueHistory_frame {history : List VersionSnapshot} {objects : Objects} {other : String}
    (differs : ∀ snapshot ∈ history, snapshot.objectKey = none →
      other ≠ versionKey vault.row.objectKey snapshot.versionId) :
    (rescueHistory faults vault current storedVersions history objects).2 other =
      objects other := by
  induction history generalizing objects with
  | nil => rfl
  | cons snapshot history ih =>
      have later : ∀ objects : Objects,
          (rescueHistory faults vault current storedVersions history objects).2 other =
            objects other :=
        fun _ => ih fun next present =>
          differs next (List.mem_cons_of_mem _ present)
      unfold rescueHistory
      split_ifs with owned
      · have frame := later objects
        split <;> rename_i rest <;> rw [rest] at frame <;> exact frame
      · have here : (rescueVersion (faults snapshot.versionId) vault objects
            snapshot.versionId (snapshot.versionId == current) storedVersions).2 other =
              objects other :=
          rescueVersion_frame (differs snapshot List.mem_cons_self (by simpa using owned))
        split
        case h_1 rescued =>
          rw [rescued] at here
          exact here
        case h_2 after rescued =>
          rw [rescued] at here
          have frame := later after
          rw [← here]
          split <;> rename_i rest <;> rw [rest] at frame <;> exact frame
        case h_3 sizeBytes after rescued =>
          rw [rescued] at here
          have frame := later after
          rw [← here]
          split <;> rename_i rest <;> rw [rest] at frame <;> exact frame

/-- A destination for which the store answers survives the loop. -/
theorem rescueHistory_stable
    {history : List VersionSnapshot} {objects : Objects} {versionId : String}
    {body : Bytes} (answers : (faults versionId).headFails = false)
    (there : objects (versionKey vault.row.objectKey versionId) = some body) :
    (rescueHistory faults vault current storedVersions history objects).2
        (versionKey vault.row.objectKey versionId) = some body := by
  induction history generalizing objects with
  | nil => exact there
  | cons snapshot history ih =>
      unfold rescueHistory
      split_ifs with owned
      · have rest := ih there
        split <;> rename_i later <;> rw [later] at rest <;> exact rest
      · have here : (rescueVersion (faults snapshot.versionId) vault objects
            snapshot.versionId (snapshot.versionId == current) storedVersions).2
              (versionKey vault.row.objectKey versionId) = some body := by
          by_cases same : snapshot.versionId = versionId
          · rw [same, rescueVersion_stable answers there]
            exact there
          · rw [rescueVersion_frame]
            · exact there
            · rw [Ne, versionKey_inj]
              exact fun equal => same equal.symm
        split
        case h_1 rescued =>
          rw [rescued] at here
          exact here
        case h_2 after rescued =>
          rw [rescued] at here
          have rest := ih here
          split <;> rename_i later <;> rw [later] at rest <;> exact rest
        case h_3 sizeBytes after rescued =>
          rw [rescued] at here
          have rest := ih here
          split <;> rename_i later <;> rw [later] at rest <;> exact rest

/-- What the loop finds for an id. -/
def LegacyVault.found (vault : LegacyVault) (faults : String → RescueFaults) (current : String)
    (storedVersions : Option (List String)) (objects : Objects)
    (versionId : String) : Option Bytes :=
  vault.finds (faults versionId) objects versionId (versionId == current) storedVersions

/-- The history has an entry of the id without a key. -/
def HasLegacy (history : List VersionSnapshot) (versionId : String) : Prop :=
  ∃ snapshot ∈ history, snapshot.versionId = versionId ∧ snapshot.objectKey = none

instance (history : List VersionSnapshot) (versionId : String) :
    Decidable (HasLegacy history versionId) :=
  inferInstanceAs (Decidable (∃ _ ∈ _, _))

/-- What the loop leaves under the key of an id. -/
def LegacyVault.leaves (vault : LegacyVault) (faults : String → RescueFaults) (current : String)
    (storedVersions : Option (List String)) (history : List VersionSnapshot)
    (objects : Objects) (versionId : String) : Option Bytes :=
  if HasLegacy history versionId then
    (vault.found faults current storedVersions objects versionId).or
      (objects (versionKey vault.row.objectKey versionId))
  else
    objects (versionKey vault.row.objectKey versionId)

/-- What the loop makes of a history. -/
structure Rescued
    (faults : String → RescueFaults) (vault : LegacyVault) (current : String)
    (storedVersions : Option (List String)) (history : List VersionSnapshot)
    (objects : Objects) (migrated : List VersionSnapshot) (after : Objects) :
    Prop where
  keys : ∀ snapshot ∈ migrated, snapshot ∈ history ∧ snapshot.objectKey ≠ none ∨
    snapshot.objectKey = some (versionKey vault.row.objectKey snapshot.versionId)
  listed : ∀ versionId, versionId ∈ versionIds migrated ↔
    ∃ snapshot ∈ history, snapshot.versionId = versionId ∧
      (snapshot.objectKey ≠ none ∨
        vault.found faults current storedVersions objects versionId ≠ none)
  left : ∀ versionId, after (versionKey vault.row.objectKey versionId) =
    vault.leaves faults current storedVersions history objects versionId

section Cons

variable {snapshot : VersionSnapshot} {history migrated : List VersionSnapshot}
variable {objects middle after : Objects}

theorem hasLegacy_cons {versionId : String} :
    HasLegacy (snapshot :: history) versionId ↔
      (snapshot.versionId = versionId ∧ snapshot.objectKey = none) ∨
        HasLegacy history versionId := by
  simp [HasLegacy]

/-- What a rescue that came to its end did not touch. -/
theorem frame_of_rescue {one : RescueFaults} {versionId other : String} {isCurrent : Bool}
    {rescued : Option Int}
    (here : rescueVersion one vault objects versionId isCurrent storedVersions =
      (.ok rescued, middle))
    (differs : other ≠ versionKey vault.row.objectKey versionId) :
    middle other = objects other := by
  have frame : (rescueVersion one vault objects versionId isCurrent storedVersions).2
      other = objects other :=
    rescueVersion_frame differs
  rw [here] at frame
  exact frame

/-- After one entry was rescued, the same is found for every id. -/
theorem found_after_rescue {rescued : Option Int}
    (here : rescueVersion (faults snapshot.versionId) vault objects snapshot.versionId
      (snapshot.versionId == current) storedVersions = (.ok rescued, middle))
    (versionId : String) :
    vault.found faults current storedVersions middle versionId =
      vault.found faults current storedVersions objects versionId := by
  have bare := frame_of_rescue here (versionKey_ne_objectKey _ _).symm
  by_cases same : versionId = snapshot.versionId
  · rw [same]
    exact finds_again (rescueVersion_ok here).2 bare
  · apply finds_congr _ bare
    apply frame_of_rescue here
    rw [Ne, versionKey_inj]
    exact same

/-- What the rest of the loop leaves is what the whole loop leaves. -/
theorem leaves_after_rescue {rescued : Option Int} (legacy : snapshot.objectKey = none)
    (here : rescueVersion (faults snapshot.versionId) vault objects snapshot.versionId
      (snapshot.versionId == current) storedVersions = (.ok rescued, middle))
    (versionId : String) :
    vault.leaves faults current storedVersions history middle versionId =
      vault.leaves faults current storedVersions (snapshot :: history) objects versionId := by
  unfold LegacyVault.leaves
  rw [found_after_rescue here]
  by_cases same : versionId = snapshot.versionId
  · have there : middle (versionKey vault.row.objectKey versionId) =
        (vault.found faults current storedVersions objects versionId).or
          (objects (versionKey vault.row.objectKey versionId)) := by
      rw [same]
      exact (rescueVersion_ok here).2
    rw [there, if_pos (hasLegacy_cons.mpr (.inl ⟨same.symm, legacy⟩)),
      ← Option.or_assoc, Option.or_self, ite_self]
  · have frame : middle (versionKey vault.row.objectKey versionId) =
        objects (versionKey vault.row.objectKey versionId) := by
      apply frame_of_rescue here
      rw [Ne, versionKey_inj]
      exact same
    have tail : HasLegacy (snapshot :: history) versionId ↔
        HasLegacy history versionId := by
      rw [hasLegacy_cons]
      exact or_iff_right fun first => same first.1.symm
    simp only [tail, frame]

/-- An entry with a key of its own stays. -/
theorem Rescued.keep
    (tail : Rescued faults vault current storedVersions history objects migrated after)
    (owned : snapshot.objectKey ≠ none) :
    Rescued faults vault current storedVersions (snapshot :: history) objects
      (snapshot :: migrated) after where
  keys := by
    intro kept present
    rcases List.mem_cons.mp present with rfl | later
    · exact .inl ⟨List.mem_cons_self, owned⟩
    · exact (tail.keys kept later).imp_left fun old =>
        ⟨List.mem_cons_of_mem _ old.1, old.2⟩
  listed := by
    intro versionId
    rw [versionIds_cons, List.mem_cons, tail.listed, List.exists_mem_cons_iff]
    apply or_congr_left
    rw [eq_comm]
    exact (and_iff_left (.inl owned)).symm
  left := by
    intro versionId
    have same : HasLegacy (snapshot :: history) versionId ↔
        HasLegacy history versionId := by
      rw [hasLegacy_cons]
      exact or_iff_right fun first => owned first.2
    rw [tail.left, LegacyVault.leaves, LegacyVault.leaves]
    simp only [same]

/-- An entry whose bytes are nowhere goes. -/
theorem Rescued.drop (legacy : snapshot.objectKey = none)
    (here : rescueVersion (faults snapshot.versionId) vault objects snapshot.versionId
      (snapshot.versionId == current) storedVersions = (.ok none, middle))
    (tail : Rescued faults vault current storedVersions history middle migrated after) :
    Rescued faults vault current storedVersions (snapshot :: history) objects migrated after where
  keys := fun kept present => (tail.keys kept present).imp_left fun old =>
    ⟨List.mem_cons_of_mem _ old.1, old.2⟩
  listed := by
    intro versionId
    rw [tail.listed, List.exists_mem_cons_iff, found_after_rescue here]
    refine (or_iff_right ?_).symm
    rintro ⟨rfl, owned | found⟩
    · exact owned legacy
    · rw [← Option.isSome_iff_ne_none] at found
      have answer := (rescueVersion_ok here).1
      rw [LegacyVault.found, ← answer] at found
      cases found
  left := fun versionId =>
    (tail.left versionId).trans (leaves_after_rescue legacy here versionId)

/-- An entry whose bytes are found moves to its own key. -/
theorem Rescued.move {sizeBytes : Int} (legacy : snapshot.objectKey = none)
    (here : rescueVersion (faults snapshot.versionId) vault objects snapshot.versionId
      (snapshot.versionId == current) storedVersions = (.ok (some sizeBytes), middle))
    (tail : Rescued faults vault current storedVersions history middle migrated after) :
    Rescued faults vault current storedVersions (snapshot :: history) objects
      (snapshot.moved vault.row.objectKey sizeBytes :: migrated) after where
  keys := by
    intro kept present
    rcases List.mem_cons.mp present with rfl | later
    · exact .inr rfl
    · exact (tail.keys kept later).imp_left fun old =>
        ⟨List.mem_cons_of_mem _ old.1, old.2⟩
  listed := by
    intro versionId
    have found : vault.found faults current storedVersions objects
        snapshot.versionId ≠ none := by
      rw [← Option.isSome_iff_ne_none]
      exact (rescueVersion_ok here).1.symm
    rw [versionIds_cons, List.mem_cons, tail.listed, List.exists_mem_cons_iff,
      found_after_rescue here]
    apply or_congr_left
    constructor
    · rintro rfl
      exact ⟨rfl, .inr found⟩
    · exact fun first => first.1.symm
  left := fun versionId =>
    (tail.left versionId).trans (leaves_after_rescue legacy here versionId)

end Cons

/-- A loop that comes to its end has rescued what could be found. -/
theorem rescueHistory_ok {history migrated : List VersionSnapshot} {outcome : MigrationOutcome}
    {objects after : Objects}
    (done : rescueHistory faults vault current storedVersions history objects =
      (.ok (migrated, outcome), after)) :
    Rescued faults vault current storedVersions history objects migrated after := by
  induction history generalizing objects migrated outcome with
  | nil =>
      simp only [rescueHistory, Prod.mk.injEq, Except.ok.injEq] at done
      obtain ⟨⟨rfl, _⟩, rfl⟩ := done
      exact ⟨by simp, by simp, fun _ => (if_neg (by simp [HasLegacy])).symm⟩
  | cons snapshot history ih =>
      unfold rescueHistory at done
      split_ifs at done with owned
      · split at done
        case h_1 => simp at done
        case h_2 rest =>
          cases done
          apply (ih rest).keep
          rw [← Option.isSome_iff_ne_none]
          exact owned
      · have legacy : snapshot.objectKey = none := by simpa using owned
        split at done
        case h_1 => simp at done
        case h_2 middle here =>
          split at done
          case h_1 => simp at done
          case h_2 rest =>
            cases done
            exact Rescued.drop legacy here (ih rest)
        case h_3 sizeBytes middle here =>
          split at done
          case h_1 => simp at done
          case h_2 rest =>
            cases done
            exact Rescued.move legacy here (ih rest)

/-- Where the store is healthy, the loop comes to its end. -/
theorem rescueHistory_healthy (history : List VersionSnapshot) (objects : Objects) :
    ∃ migrated outcome after,
      rescueHistory (fun _ => {}) vault current storedVersions history objects =
        (.ok (migrated, outcome), after) := by
  induction history generalizing objects with
  | nil => exact ⟨_, _, _, rfl⟩
  | cons snapshot history ih =>
      unfold rescueHistory
      split_ifs with owned
      · obtain ⟨migrated, outcome, after, rest⟩ := ih objects
        rw [rest]
        exact ⟨_, _, _, rfl⟩
      · obtain ⟨rescued, middle, here⟩ : ∃ rescued middle,
            rescueVersion {} vault objects snapshot.versionId
                (snapshot.versionId == current) storedVersions =
              (.ok rescued, middle) :=
          rescueVersion_healthy
        obtain ⟨migrated, outcome, after, rest⟩ := ih middle
        rw [here]
        cases rescued with
        | none =>
            simp only [rest]
            exact ⟨_, _, _, rfl⟩
        | some sizeBytes =>
            simp only [rest]
            exact ⟨_, _, _, rfl⟩

end Loop

end Vault
end MindMapVault
