import MindMapVault.Vault.Concurrency

/-!
# Runs that undo nothing keep the history intact

The invariant behind the interleaved requests. A listed version may lack its
object only while a deletion that has removed the object still owes the row
write, and no key that awaits clean-up belongs to a listed version. Moves that
undo nothing preserve it, and in a quiescent state it says that the history is
intact.
-/

namespace MindMapVault
namespace Vault

open Transition Threads

/-- The row a request has read was written by the handlers. -/
def Flight.Known (objectKey : String) : Flight → Prop
  | .uploadRead map versionId _
  | .confirmRead map versionId
  | .recording map versionId _ =>
      Recorded map ∧ map.objectKey = objectKey ∧ ValidVersionId versionId
  | .deleteRead map target removed =>
      Recorded map ∧ map.objectKey = objectKey ∧
        (∃ given, deletionTarget map given = .ok target) ∧ deletionKey map target = .ok removed
  | .deleteStored map target =>
      Recorded map ∧ map.objectKey = objectKey ∧ ∃ given, deletionTarget map given = .ok target
  | .answered _ => True

/-- The invariant of the runs that undo nothing. -/
structure Settled (pool : VaultPool) : Prop where
  recorded : Recorded pool.shared.row
  known : ∀ flight ∈ pool.threads, flight.Known pool.shared.row.objectKey
  stored : ∀ versionId ∈ versionIds pool.shared.row.versionHistory,
    (pool.shared.objects
        (versionKey pool.shared.row.objectKey versionId)).isSome ∨
      ∃ map : StoredMindMap, map.currentVersionId.isSome ∧
        .deleteStored map versionId ∈ pool.threads
  unpruned : ∀ flight ∈ pool.threads,
    ∀ versionId ∈ versionIds pool.shared.row.versionHistory,
      versionKey pool.shared.row.objectKey versionId ∉ flight.prunedKeys
  live : ∀ versionId ∈ pool.shared.live, versionId ∈ versionIds pool.shared.row.versionHistory

namespace Settled

variable {pool : VaultPool}

/-- A quiescent state keeps the history intact. -/
theorem historyIntact (settled : Settled pool) (quiescent : Quiescent pool) :
    HistoryIntact pool.shared := by
  refine ⟨settled.live, ?_, settled.recorded.current⟩
  intro snapshot present
  rw [settled.recorded.ownKey snapshot present]
  rcases settled.stored _ (mem_versionIds_of_mem present) with
    stored | ⟨map, _, pending⟩
  · exact stored
  · exact absurd (quiescent _ pending) (by simp)

/-- Storage may grow, and a request may take a step that leaves the version
columns alone. -/
theorem frame (settled : Settled pool) {shared : TrackedVault} {threads : List Flight}
    (objectKey : shared.row.objectKey = pool.shared.row.objectKey)
    (history : shared.row.versionHistory = pool.shared.row.versionHistory)
    (current : shared.row.currentVersionId = pool.shared.row.currentVersionId)
    (live : shared.live = pool.shared.live)
    (grows : ∀ key, (pool.shared.objects key).isSome → (shared.objects key).isSome)
    (threadsKnown : ∀ flight ∈ threads,
      flight ∈ pool.threads ∨ (flight.Known pool.shared.row.objectKey ∧ flight.prunedKeys = []))
    (pending : ∀ map target, .deleteStored map target ∈ pool.threads →
      .deleteStored map target ∈ threads) :
    Settled { shared := shared, threads := threads } where
  recorded := settled.recorded.congr objectKey history current
  known := by
    intro flight present
    rw [objectKey]
    rcases threadsKnown flight present with old | ⟨known, _⟩
    · exact settled.known flight old
    · exact known
  stored := by
    intro versionId listed
    rw [history] at listed
    rw [objectKey]
    rcases settled.stored versionId listed with stored | ⟨map, saved, deletion⟩
    · exact .inl (grows _ stored)
    · exact .inr ⟨map, saved, pending map versionId deletion⟩
  unpruned := by
    intro flight present versionId listed
    rw [history] at listed
    rw [objectKey]
    rcases threadsKnown flight present with old | ⟨_, nothing⟩
    · exact settled.unpruned flight old versionId listed
    · rw [nothing]
      exact List.not_mem_nil
  live := by
    rw [live, history]
    exact settled.live

section Advance

variable {thread : Nat} {before : Flight}

/-- The common part of a request's own step that only reads or uploads. -/
theorem frame_advance (settled : Settled pool) (present : pool.threads[thread]? = some before)
    {objects : Objects} {after : Flight}
    (grows : ∀ key, (pool.shared.objects key).isSome → (objects key).isSome)
    (known : after.Known pool.shared.row.objectKey) (nothing : after.prunedKeys = [])
    (notDeletion : ∀ map target, before ≠ .deleteStored map target) :
    Settled
      { shared := { pool.shared with objects := objects }
        threads := pool.threads.set thread after } := by
  refine settled.frame rfl rfl rfl rfl grows ?_ ?_
  · exact forall_mem_set (fun flight old => .inl old) (.inr ⟨known, nothing⟩)
  · exact fun map target deletion =>
      mem_set_of_ne present deletion (notDeletion map target).symm

/-- Writing a save that undoes nothing. -/
theorem recordVersion (settled : Settled pool)
    {map : StoredMindMap} {versionId : String} {sizeBytes : Int}
    (present : pool.threads[thread]? = some (.recording map versionId sizeBytes))
    (inOrder : (Flight.recording map versionId sizeBytes).InOrder pool) (now : DateTime) :
    Settled
      { shared :=
          { pool.shared with
            row := pool.shared.row.updateUpload versionId
              (recordVersion map versionId now sizeBytes).1
            live := (versionId :: pool.shared.live).filter (· ∉ versionIds map.retired) }
        threads := pool.threads.set thread
          (.answered (recordVersion map versionId now sizeBytes).2) } := by
  obtain ⟨covers, resurrects, stored, unpruned, notRetired⟩ := inOrder
  obtain ⟨recorded, sameKey, valid⟩ := settled.known _ (List.mem_of_getElem? present)
  -- the ids listed after the write were listed before, the new one apart
  have listed {id : String}
      (after : id ∈ versionIds (Vault.recordVersion map versionId now sizeBytes).1) :
      id ∈ versionIds map.retained ∧
          id ∈ versionIds pool.shared.row.versionHistory ∨ id = versionId := by
    rw [recordVersion_eq, versionIds_append, List.mem_append] at after
    rcases after with kept | added
    · rcases resurrects id kept with old | same
      · exact .inl ⟨kept, old⟩
      · exact .inr same
    · exact .inr (by simpa using added)
  refine ⟨?_, ?_, ?_, ?_, ?_⟩
  · exact (recorded.recordVersion valid now sizeBytes).congr sameKey.symm rfl rfl
  · exact forall_mem_set settled.known trivial
  · intro id after
    rcases listed after with ⟨_, old⟩ | rfl
    · rcases settled.stored id old with object | ⟨deleting, saved, pending⟩
      · exact .inl object
      · exact .inr ⟨deleting, saved, mem_set_of_ne present pending (by simp)⟩
    · exact .inl (sameKey ▸ stored)
  · refine forall_mem_set ?_ ?_
    · intro flight old id after
      rcases listed after with ⟨_, before⟩ | rfl
      · exact settled.unpruned flight old id before
      · exact sameKey ▸ unpruned flight old
    · intro id after pruned
      simp only [recordVersion_eq, Flight.prunedKeys, updateUpload_objectKey, ← sameKey] at pruned
      obtain ⟨dropped, retired, same⟩ := recorded.mem_retired_keys.mp pruned
      rw [versionKey_inj.mp same] at after
      rcases listed after with ⟨kept, _⟩ | same
      · exact Recorded.retired_disjoint_retained retired kept
      · exact notRetired (same ▸ retired)
  · intro id alive
    obtain ⟨alive, notRetiredId⟩ := List.mem_filter.mp alive
    simp only [decide_eq_true_eq] at notRetiredId
    simp only [updateUpload_versionHistory, recordVersion_eq, versionIds_append, List.mem_append]
    rcases List.mem_cons.mp alive with rfl | alive
    · exact .inr (by simp)
    · rcases covers id (settled.live id alive) with read | rfl
      · rw [← recorded.mem_versionIds_normalized, ← retired_append_retained,
          versionIds_append, List.mem_append] at read
        exact .inl (read.resolve_left notRetiredId)
      · exact .inr (by simp)

/-- Removing the object of a deletion's target, and of no other listed
version. -/
theorem deleteObject (settled : Settled pool)
    {map : StoredMindMap} {target : String} {objectKey : Option String}
    (present : pool.threads[thread]? = some (.deleteRead map target objectKey))
    (inOrder : (Flight.deleteRead map target objectKey).InOrder pool) :
    Settled
      { shared :=
          { pool.shared with
            objects := objectKey.elim pool.shared.objects pool.shared.objects.delete }
        threads := pool.threads.set thread (.deleteStored map target) } := by
  obtain ⟨recorded, sameKey, accepted, resolved⟩ := settled.known _ (List.mem_of_getElem? present)
  refine ⟨settled.recorded, ?_, ?_, ?_, settled.live⟩
  · exact forall_mem_set settled.known ⟨recorded, sameKey, accepted⟩
  · intro versionId listed
    by_cases removed : objectKey = some (versionKey pool.shared.row.objectKey versionId)
    · cases inOrder versionId listed removed
      have inRange : thread < pool.threads.length := (List.getElem?_eq_some_iff.mp present).1
      have saved : map.currentVersionId.isSome := by
        obtain ⟨found, _, read, _⟩ := recorded.deletionKey_eq_ok_some.mp (removed ▸ resolved)
        by_contra unsaved
        rw [recorded.unsaved (by simpa using unsaved)] at read
        exact List.not_mem_nil read
      exact .inr ⟨map, saved, List.mem_set inRange _⟩
    · rcases settled.stored versionId listed with object | ⟨deleting, saved, pending⟩
      · left
        cases objectKey with
        | none => exact object
        | some key =>
            have differs : versionKey pool.shared.row.objectKey versionId ≠ key :=
              fun same => removed (congrArg some same.symm)
            simp only [Option.elim_some]
            rw [Objects.delete_of_ne _ differs]
            exact object
      · exact .inr ⟨deleting, saved, mem_set_of_ne present pending (by simp)⟩
  · exact forall_mem_set settled.unpruned (fun _ _ => List.not_mem_nil)

/-- A deletion that read a vault without versions removed nothing and writes
nothing. -/
theorem deleteNothing (settled : Settled pool) {map : StoredMindMap} {target : String}
    (present : pool.threads[thread]? = some (.deleteStored map target))
    (unsaved : map.currentVersionId = none) :
    Settled { shared := pool.shared, threads := pool.threads.set thread (.answered []) } := by
  refine ⟨settled.recorded, ?_, ?_, ?_, settled.live⟩
  · exact forall_mem_set settled.known trivial
  · intro versionId listed
    rcases settled.stored versionId listed with object | ⟨deleting, saved, pending⟩
    · exact .inl object
    · refine .inr ⟨deleting, saved, mem_set_of_ne present pending ?_⟩
      intro same
      cases same
      rw [unsaved] at saved
      exact absurd saved (by simp)
  · exact forall_mem_set settled.unpruned (fun _ _ => List.not_mem_nil)

/-- Writing a deletion that undoes nothing else. -/
theorem deleteVersion (settled : Settled pool) {map : StoredMindMap} {target current : String}
    {history : List VersionSnapshot}
    (present : pool.threads[thread]? = some (.deleteStored map target))
    (inOrder : (Flight.deleteStored map target).InOrder pool)
    (written : deletionRow map target = .ok (current, history)) :
    Settled
      { shared :=
          { pool.shared with
            row := pool.shared.row.updateUpload current history
            live := pool.shared.live.filter (· ≠ target) }
        threads := pool.threads.set thread (.answered []) } := by
  obtain ⟨covers, resurrects⟩ := inOrder
  obtain ⟨recorded, sameKey, given, accepted⟩ := settled.known _ (List.mem_of_getElem? present)
  have listed {id : String} (after : id ∈ versionIds history) :
      id ∈ versionIds pool.shared.row.versionHistory ∧ id ≠ target := by
    obtain ⟨read, differs⟩ := (recorded.mem_versionIds_deletion written).mp after
    exact ⟨(resurrects id read).resolve_right differs, differs⟩
  refine ⟨?_, ?_, ?_, ?_, ?_⟩
  · exact (recorded.deletion accepted written).congr sameKey.symm rfl rfl
  · exact forall_mem_set settled.known trivial
  · intro id after
    obtain ⟨old, differs⟩ := listed after
    rcases settled.stored id old with object | ⟨deleting, saved, pending⟩
    · exact .inl object
    · refine .inr ⟨deleting, saved, mem_set_of_ne present pending ?_⟩
      simp only [ne_eq, Flight.deleteStored.injEq, not_and]
      exact fun _ => differs
  · exact forall_mem_set
      (fun flight old id after => settled.unpruned flight old id (listed after).1)
      (fun _ _ => List.not_mem_nil)
  · intro id alive
    obtain ⟨alive, differs⟩ := List.mem_filter.mp alive
    simp only [ne_eq, decide_eq_true_eq] at differs
    exact (recorded.mem_versionIds_deletion written).mpr
      ⟨(covers id (settled.live id alive)).resolve_right differs, differs⟩

/-- Cleaning up after retention removes no listed object. -/
theorem cleanup (settled : Settled pool) {objectKey : String} {prunedKeys : List String}
    (present : pool.threads[thread]? = some (.answered (objectKey :: prunedKeys))) :
    Settled
      { shared :=
          { pool.shared with
            objects := pool.shared.objects.delete objectKey }
        threads := pool.threads.set thread (.answered prunedKeys) } := by
  have awaiting := settled.unpruned _ (List.mem_of_getElem? present)
  simp only [Flight.prunedKeys, List.mem_cons, not_or] at awaiting
  refine ⟨settled.recorded, ?_, ?_, ?_, settled.live⟩
  · exact forall_mem_set settled.known trivial
  · intro versionId listed
    rcases settled.stored versionId listed with object | ⟨deleting, saved, pending⟩
    · left
      simp only
      rw [Objects.delete_of_ne _ (awaiting versionId listed).1]
      exact object
    · exact .inr ⟨deleting, saved, mem_set_of_ne present pending (by simp)⟩
  · exact forall_mem_set settled.unpruned (fun versionId listed => (awaiting versionId listed).2)

end Advance

end Settled

theorem Objects.isSome_put {objects : Objects} {objectKey key : String} (body : Bytes)
    (stored : (objects key).isSome) :
    (objects.put objectKey body key).isSome := by
  by_cases same : key = objectKey
  · subst same
    rw [Objects.put_self]
    rfl
  · rw [Objects.put_of_ne _ _ same]
    exact stored

/-- Reading the row hands out true knowledge and changes nothing. -/
theorem readRow_known {vault after : TrackedVault} {request : VersionRequest} {flight : Flight}
    (recorded : Recorded vault.row) (taken : readRow vault request = some (after, flight)) :
    after = vault ∧ flight.Known vault.row.objectKey ∧ flight.prunedKeys = [] := by
  cases request with
  | uploadBlob minted body =>
      simp only [readRow] at taken
      split_ifs at taken with new empty
      · cases taken
        exact ⟨rfl, trivial, rfl⟩
      · cases taken
        exact ⟨rfl, ⟨recorded, rfl, new.1⟩, rfl⟩
  | confirmUpload given =>
      simp only [readRow] at taken
      split_ifs at taken with empty
      · cases taken
        exact ⟨rfl, trivial, rfl⟩
      · cases validated : validateVersionId given with
        | error error =>
            simp only [validated, Option.some.injEq, Prod.mk.injEq] at taken
            obtain ⟨rfl, rfl⟩ := taken
            exact ⟨rfl, trivial, rfl⟩
        | ok versionId =>
            simp only [validated, Option.some.injEq, Prod.mk.injEq] at taken
            obtain ⟨rfl, rfl⟩ := taken
            exact ⟨rfl, ⟨recorded, rfl, (validateVersionId_eq_ok.mp validated).2⟩, rfl⟩
  | deleteVaultVersion given =>
      simp only [readRow] at taken
      cases accepted : deletionTarget vault.row given with
      | error error =>
          simp only [accepted, Option.some.injEq, Prod.mk.injEq] at taken
          obtain ⟨rfl, rfl⟩ := taken
          exact ⟨rfl, trivial, rfl⟩
      | ok target =>
          cases resolved : deletionKey vault.row target with
          | error error =>
              simp only [accepted, resolved, Option.some.injEq, Prod.mk.injEq] at taken
              obtain ⟨rfl, rfl⟩ := taken
              exact ⟨rfl, trivial, rfl⟩
          | ok objectKey =>
              simp only [accepted, resolved, Option.some.injEq, Prod.mk.injEq] at taken
              obtain ⟨rfl, rfl⟩ := taken
              exact ⟨rfl, ⟨recorded, rfl, ⟨given, accepted⟩, resolved⟩, rfl⟩

/-- One step of a request that undoes nothing. -/
theorem settled_advance {pool : VaultPool} (settled : Settled pool)
    {thread : Nat} {now : DateTime} {before after : Flight} {shared : TrackedVault}
    (present : pool.threads[thread]? = some before) (inOrder : before.InOrder pool)
    (taken : advanceFlight pool.shared before now = some (shared, after)) :
    Settled { shared := shared, threads := pool.threads.set thread after } := by
  have known := settled.known before (List.mem_of_getElem? present)
  cases before with
  | uploadRead map minted body =>
      cases taken
      exact settled.frame_advance present
        (fun _ stored => Objects.isSome_put body stored) known rfl (by simp)
  | confirmRead map versionId =>
      simp only [advanceFlight] at taken
      split at taken
      · cases taken
        exact settled.frame_advance present (fun _ stored => stored) known rfl (by simp)
      · cases taken
        exact settled.frame_advance present (fun _ stored => stored) trivial rfl (by simp)
  | recording map versionId sizeBytes =>
      cases taken
      exact settled.recordVersion present inOrder now
  | deleteRead map target objectKey =>
      cases taken
      exact settled.deleteObject present inOrder
  | deleteStored map target =>
      cases active : map.normalizedCurrent with
      | none =>
          simp only [advanceFlight, deletionRow, active, Option.some.injEq, Prod.mk.injEq] at taken
          obtain ⟨rfl, rfl⟩ := taken
          exact settled.deleteNothing present (known.1.normalizedCurrent_eq ▸ active)
      | some current =>
          have written : deletionRow map target = .ok (current, _) :=
            deletionRow_eq_ok.mpr ⟨active, rfl⟩
          simp only [advanceFlight, written, Option.some.injEq, Prod.mk.injEq] at taken
          obtain ⟨rfl, rfl⟩ := taken
          exact settled.deleteVersion present inOrder written
  | answered prunedKeys =>
      cases prunedKeys with
      | nil => cases taken
      | cons objectKey prunedKeys =>
          cases taken
          exact settled.cleanup present

/-- Moves that undo nothing keep the invariant. -/
theorem settled_preserved (pool : VaultPool) (move : Move VaultEvent VersionRequest DateTime)
    (next : VaultPool) (settled : Settled pool) (inOrder : InOrder pool move)
    (taken : versionRequests.system pool move = some next) : Settled next := by
  revert inOrder
  refine Program.system_cases
    (motive := fun move next => InOrder pool move → Settled next) ?_ ?_ ?_ taken
  · intro event shared action _
    cases event with
    | presignedPut versionId body =>
        cases action
        exact settled.frame rfl rfl rfl rfl
          (fun _ stored => Objects.isSome_put body stored)
          (fun flight old => .inl old) (fun _ _ pending => pending)
    | updateMindMap update =>
        cases action
        exact settled.frame rfl rfl rfl rfl (fun _ stored => stored)
          (fun flight old => .inl old) (fun _ _ pending => pending)
  · intro request shared flight action _
    obtain ⟨rfl, known, nothing⟩ := readRow_known settled.recorded action
    refine settled.frame rfl rfl rfl rfl (fun _ stored => stored) ?_ ?_
    · exact forall_mem_append_singleton (fun flight old => .inl old) (.inr ⟨known, nothing⟩)
    · exact fun _ _ pending => List.mem_append_left _ pending
  · intro thread now before shared after present action inOrder
    exact settled_advance settled present (inOrder before present) action

/-- A fresh vault with no request under way. -/
def freshPool (id userId objectKey : String) (body : UpsertMindMapRequest) (now : DateTime)
    (maxVersions : Nat) (objects : Objects) : VaultPool where
  shared :=
    { row :=
        { createMindMap id userId objectKey body now with
          maxVersions := maxVersions }
      objects := objects
      live := [] }
  threads := []

theorem settled_freshPool (id userId objectKey : String) (body : UpsertMindMapRequest)
    (now : DateTime) (maxVersions : Nat) (objects : Objects) :
    Settled (freshPool id userId objectKey body now maxVersions objects) := by
  refine ⟨recorded_createMindMap id userId objectKey body now maxVersions,
    ?_, ?_, ?_, ?_⟩ <;> simp [freshPool, createMindMap]

/-- From a fresh vault, a run that undoes nothing has an intact history in every
quiescent state it reaches. -/
theorem historyIntact_of_inOrder (id userId objectKey : String) (body : UpsertMindMapRequest)
    (now : DateTime) (maxVersions : Nat) (objects : Objects)
    (run : List (Move VaultEvent VersionRequest DateTime))
    (inOrder : EveryStepAllowed versionRequests.system InOrder
      (freshPool id userId objectKey body now maxVersions objects) run) :
    EveryState versionRequests.system
      (fun pool => Quiescent pool → HistoryIntact pool.shared)
      (freshPool id userId objectKey body now maxVersions objects) run :=
  everyState_of_allowed settled_preserved
    (fun _ settled quiescent => settled.historyIntact quiescent)
    (settled_freshPool id userId objectKey body now maxVersions objects) inOrder

/-- One upload after another, and the deletion of the first version, undo
nothing. -/
theorem historyIntact_of_inOrder_example :
    EveryState versionRequests.system
      (fun pool => Quiescent pool → HistoryIntact pool.shared)
      (freshPool "map" "user" "key" ⟨"title", "classical", "pq", "dek"⟩ 0 50 fun _ => none)
      [.spawn (.uploadBlob "v1" [1]), .advance 0 1, .advance 0 2,
        .spawn (.uploadBlob "v2" [2]), .advance 1 3, .advance 1 4,
        .spawn (.deleteVaultVersion "v1"), .advance 2 5, .advance 2 6] :=
  historyIntact_of_inOrder _ _ _ _ _ _ _ _ (by decide)

/-- Two uploads that read the row before either has written it: the version of
the first is not in the history the second leaves. -/
theorem concurrent_uploads_lose_version :
    ¬ EveryState versionRequests.system
      (fun pool => Quiescent pool → HistoryIntact pool.shared)
      (freshPool "map" "user" "key" ⟨"title", "classical", "pq", "dek"⟩ 0 50 fun _ => none)
      [.spawn (.uploadBlob "v1" [1]), .spawn (.uploadBlob "v2" [2]),
        .advance 0 1, .advance 0 2, .advance 1 3, .advance 1 4] := by
  decide

end Vault
end MindMapVault
