import MindMapVault.Foundations.Threads
import MindMapVault.Vault.Handlers

/-!
# Concurrent saves and deletions

Uploads, confirmations and deletions cut into the steps that other requests can
come between: reading the row, one storage call, and writing the whole history
back. Nothing compares the row with what was read, so a request that writes
late undoes what was written since. The steps that undo nothing are singled out,
and a run made of these keeps the history, the bucket and the current version
together.
-/

namespace MindMapVault
namespace Vault

open Transition Threads

/-- A vault with the ids that were recorded and neither deleted nor pruned
since. The list is bookkeeping; no handler reads it. -/
structure TrackedVault extends VaultState where
  live : List String

/-- A request under way, with the row it has read. -/
inductive Flight
  | uploadRead (map : StoredMindMap) (minted : String) (body : Bytes)
  | confirmRead (map : StoredMindMap) (versionId : String)
  | recording (map : StoredMindMap) (versionId : String) (sizeBytes : Int)
  | deleteRead (map : StoredMindMap) (target : String) (objectKey : Option String)
  | deleteStored (map : StoredMindMap) (target : String)
  | answered (prunedKeys : List String)
  deriving DecidableEq

/-- The requests that read and write the history. -/
inductive VersionRequest
  | uploadBlob (minted : String) (body : Bytes)
  | confirmUpload (versionId : String)
  | deleteVaultVersion (versionId : String)

/-- What happens to a vault beside them: a client writing to an upload URL, and
a content update, which leaves the version columns alone. -/
inductive VaultEvent
  | presignedPut (versionId : String) (body : Bytes)
  | updateMindMap (update : MindMapContentUpdate)

/-- The first step of a request: the row is read and the request checked. -/
def readRow (vault : TrackedVault) :
    VersionRequest → Option (TrackedVault × Flight)
  | .uploadBlob minted body =>
      if NewVersionId vault.toVaultState minted then
        if body = [] then
          some (vault, .answered [])
        else
          some (vault, .uploadRead vault.row minted body)
      else
        none
  | .confirmUpload versionId =>
      if versionId = "" then
        some (vault, .answered [])
      else
        match validateVersionId versionId with
        | .ok verifiedVid => some (vault, .confirmRead vault.row verifiedVid)
        | .error _ => some (vault, .answered [])
  | .deleteVaultVersion versionId =>
      match deletionTarget vault.row versionId with
      | .error _ => some (vault, .answered [])
      | .ok target =>
          match deletionKey vault.row target with
          | .error _ => some (vault, .answered [])
          | .ok objectKey => some (vault, .deleteRead vault.row target objectKey)

/-- The next step of a request. A request that has answered still deletes the
objects retention gave up, one at a time. -/
def advanceFlight (vault : TrackedVault) :
    Flight → DateTime → Option (TrackedVault × Flight)
  | .uploadRead map minted body, _ =>
      some
        ({ vault with
            objects := vault.objects.put (versionKey map.objectKey minted) body },
          .recording map minted body.length)
  | .confirmRead map versionId, _ =>
      match vault.objects.headSize (versionKey map.objectKey versionId) with
      | .ok sizeBytes => some (vault, .recording map versionId sizeBytes)
      | .error _ => some (vault, .answered [])
  | .recording map versionId sizeBytes, now =>
      let (versionHistory, prunedKeys) := recordVersion map versionId now sizeBytes
      some
        ({ vault with
            row := vault.row.updateUpload versionId versionHistory
            live := (versionId :: vault.live).filter (· ∉ versionIds map.retired) },
          .answered prunedKeys)
  | .deleteRead map target objectKey, _ =>
      some
        ({ vault with
            objects := objectKey.elim vault.objects vault.objects.delete },
          .deleteStored map target)
  | .deleteStored map target, _ =>
      match deletionRow map target with
      | .ok (current, filteredHistory) =>
          some
            ({ vault with
                row := vault.row.updateUpload current filteredHistory
                live := vault.live.filter (· ≠ target) },
              .answered [])
      | .error _ => some (vault, .answered [])
  | .answered (objectKey :: prunedKeys), _ =>
      some ({ vault with objects := vault.objects.delete objectKey }, .answered prunedKeys)
  | .answered [], _ => none

/-- What happens beside the requests under way. -/
def outsideEvent (vault : TrackedVault) : VaultEvent → Option TrackedVault
  | .presignedPut versionId body =>
      some { vault with
        objects := vault.objects.put (versionKey vault.row.objectKey versionId) body }
  | .updateMindMap update =>
      some { vault with row := vault.row.updateContent update }

/-- Any number of requests on one vault, interleaved step by step. -/
def versionRequests :
    Program TrackedVault Flight VaultEvent VersionRequest DateTime where
  outside := outsideEvent
  spawn := readRow
  advance := advanceFlight

/-- The vault and the requests under way. -/
abbrev VaultPool := Pool TrackedVault Flight

/-- Every request has answered and every clean-up is over. -/
def Quiescent (pool : VaultPool) : Prop := ∀ flight ∈ pool.threads, flight = .answered []

instance (pool : VaultPool) : Decidable (Quiescent pool) :=
  inferInstanceAs (Decidable (∀ _ ∈ _, _))

/-- Every version that should be listed is, every listed version has its object,
and the current version is listed. -/
def HistoryIntact (vault : TrackedVault) : Prop :=
  (∀ versionId ∈ vault.live, versionId ∈ versionIds vault.row.versionHistory) ∧
    (∀ snapshot ∈ vault.row.versionHistory,
      (snapshot.objectKey.bind vault.objects).isSome) ∧
      ∀ versionId ∈ vault.row.currentVersionId, versionId ∈ versionIds vault.row.versionHistory

instance (vault : TrackedVault) : Decidable (HistoryIntact vault) :=
  inferInstanceAs (Decidable (_ ∧ _ ∧ _))

/-- The keys a request has yet to clean up. -/
def Flight.prunedKeys : Flight → List String
  | .answered prunedKeys => prunedKeys
  | _ => []

/-- The next step of a request undoes nothing. A write covers the ids listed by
now and brings none of them back; what a save records is in storage, is not due
for clean-up, and is not dropped by the same save; a deletion removes the object
of no listed version but its target. -/
def Flight.InOrder (pool : VaultPool) : Flight → Prop
  | .recording map versionId _ =>
      (∀ listed ∈ versionIds pool.shared.row.versionHistory,
        listed ∈ versionIds map.versionHistory ∨ listed = versionId) ∧
      (∀ kept ∈ versionIds map.retained,
        kept ∈ versionIds pool.shared.row.versionHistory ∨ kept = versionId) ∧
      (pool.shared.objects (versionKey map.objectKey versionId)).isSome ∧
      (∀ flight ∈ pool.threads, versionKey map.objectKey versionId ∉ flight.prunedKeys) ∧
      versionId ∉ versionIds map.retired
  | .deleteRead _ target objectKey =>
      ∀ listed ∈ versionIds pool.shared.row.versionHistory,
        objectKey = some (versionKey pool.shared.row.objectKey listed) → listed = target
  | .deleteStored map target =>
      (∀ listed ∈ versionIds pool.shared.row.versionHistory,
        listed ∈ versionIds map.versionHistory ∨ listed = target) ∧
      ∀ kept ∈ versionIds map.versionHistory,
        kept ∈ versionIds pool.shared.row.versionHistory ∨ kept = target
  | _ => True

instance (pool : VaultPool) (flight : Flight) :
    Decidable (flight.InOrder pool) :=
  match flight with
  | .recording _ _ _ => inferInstanceAs (Decidable (_ ∧ _ ∧ _ ∧ _ ∧ _))
  | .deleteRead _ _ _ => inferInstanceAs (Decidable (∀ _ ∈ _, _ → _))
  | .deleteStored _ _ => inferInstanceAs (Decidable (_ ∧ _))
  | .uploadRead _ _ _ | .confirmRead _ _ | .answered _ => .isTrue trivial

/-- A move that undoes nothing. -/
def InOrder (pool : VaultPool) : Move VaultEvent VersionRequest DateTime → Prop
  | .advance thread _ =>
      ∀ flight ∈ pool.threads[thread]?, flight.InOrder pool
  | _ => True

instance (pool : VaultPool)
    (move : Move VaultEvent VersionRequest DateTime) :
    Decidable (InOrder pool move) :=
  match move with
  | .advance _ _ => inferInstanceAs (Decidable (∀ _ ∈ _, _))
  | .outside _ | .spawn _ => .isTrue trivial

/-- The request as the uninterrupted handlers take it. -/
def VersionRequest.at (now : DateTime) : VersionRequest → VaultRequest
  | .uploadBlob minted body => .uploadBlob minted body now
  | .confirmUpload versionId => .confirmUpload versionId now
  | .deleteVaultVersion versionId => .deleteVaultVersion versionId

section Uninterrupted

variable {vault : TrackedVault} {now : DateTime}

/-- Left alone, a request leaves the vault as `after`. -/
def Alone (now : DateTime) (vault : TrackedVault) (request : VersionRequest)
    (after : VaultState) : Prop :=
  ∃ flight live, readRow vault request = some (vault, flight) ∧
    versionRequests.Leads now vault flight { after with live := live } (.answered [])

/-- The clean-up deletes every key it was given. -/
theorem leads_cleanup (vault : TrackedVault) (prunedKeys : List String) :
    versionRequests.Leads now vault (.answered prunedKeys)
      { vault with objects := prunedKeys.foldl Objects.delete vault.objects }
      (.answered []) := by
  induction prunedKeys generalizing vault with
  | nil => exact .refl vault _
  | cons objectKey prunedKeys ih => exact .step rfl (ih _)

/-- A save that has its object in place does what the handler does. -/
theorem leads_recording (vault : TrackedVault) (versionId : String) (sizeBytes : Int) :
    ∃ live, versionRequests.Leads now vault (.recording vault.row versionId sizeBytes)
      { (saveVersion vault.toVaultState versionId now sizeBytes).vault with live := live }
      (.answered []) :=
  ⟨_, .step rfl (leads_cleanup _ _)⟩

/-- A request that is refused when it arrives is over. -/
theorem alone_refused {request : VersionRequest} {after : VaultState}
    (reads : readRow vault request = some (vault, .answered []))
    (refused : after = vault.toVaultState) : Alone now vault request after := by
  rw [refused]
  exact ⟨.answered [], vault.live, reads, .refl vault _⟩

theorem alone_uploadBlob {minted : String} {body : Bytes}
    (new : NewVersionId vault.toVaultState minted) :
    Alone now vault (.uploadBlob minted body)
      (uploadBlob vault.toVaultState minted body now).vault := by
  by_cases empty : body = []
  · exact alone_refused (by simp [readRow, new, empty]) (by simp [uploadBlob, empty])
  · obtain ⟨live, saved⟩ := leads_recording
      { vault with objects := vault.objects.put (versionKey vault.row.objectKey minted) body }
      minted body.length
    refine ⟨.uploadRead vault.row minted body, live, by simp [readRow, new, empty], ?_⟩
    rw [uploadBlob, if_neg empty]
    exact .step rfl saved

theorem alone_confirmUpload (given : String) :
    Alone now vault (.confirmUpload given) (confirmUpload vault.toVaultState given now).vault := by
  by_cases empty : given = ""
  · exact alone_refused (by simp [readRow, empty]) (by simp [confirmUpload, empty])
  cases validated : validateVersionId given with
  | error error =>
      exact alone_refused (by simp [readRow, empty, validated])
        (by simp [confirmUpload, empty, validated])
  | ok versionId =>
      have reads : readRow vault (.confirmUpload given) =
          some (vault, .confirmRead vault.row versionId) := by
        simp [readRow, empty, validated]
      simp only [confirmUpload, if_neg empty, validated]
      cases head : vault.objects.headSize (versionKey vault.row.objectKey versionId) with
      | error error =>
          have refuses : advanceFlight vault (.confirmRead vault.row versionId) now =
              some (vault, .answered []) := by
            simp [advanceFlight, head]
          exact ⟨_, vault.live, reads, .step refuses (.refl vault _)⟩
      | ok sizeBytes =>
          obtain ⟨live, saved⟩ := leads_recording vault versionId sizeBytes
          have accepts : advanceFlight vault (.confirmRead vault.row versionId) now =
              some (vault, .recording vault.row versionId sizeBytes) := by
            simp [advanceFlight, head]
          exact ⟨_, live, reads, .step accepts saved⟩

theorem alone_deleteVaultVersion (given : String) :
    Alone now vault (.deleteVaultVersion given)
      (deleteVaultVersion vault.toVaultState given).vault := by
  cases accepted : deletionTarget vault.row given with
  | error error =>
      exact alone_refused (by simp [readRow, accepted]) (by simp [deleteVaultVersion, accepted])
  | ok target =>
      cases resolved : deletionKey vault.row target with
      | error error =>
          exact alone_refused (by simp [readRow, accepted, resolved])
            (by simp [deleteVaultVersion, accepted, resolved])
      | ok objectKey =>
          have reads : readRow vault (.deleteVaultVersion given) =
              some (vault, .deleteRead vault.row target objectKey) := by
            simp [readRow, accepted, resolved]
          have removes : advanceFlight vault (.deleteRead vault.row target objectKey) now =
              some
                ({ vault with objects := objectKey.elim vault.objects vault.objects.delete },
                  .deleteStored vault.row target) := rfl
          simp only [deleteVaultVersion, accepted, resolved]
          cases written : deletionRow vault.row target with
          | error error =>
              have stops (left : TrackedVault) :
                  advanceFlight left (.deleteStored vault.row target) now =
                    some (left, .answered []) := by
                simp only [advanceFlight, written]
              exact ⟨_, vault.live, reads, .step removes (.step (stops _) (.refl _ _))⟩
          | ok update =>
              have writes (left : TrackedVault) :
                  advanceFlight left (.deleteStored vault.row target) now =
                    some
                      ({ left with
                          row := left.row.updateUpload update.1 update.2
                          live := left.live.filter (· ≠ target) },
                        .answered []) := by
                simp only [advanceFlight, written]
              exact ⟨_, vault.live.filter (· ≠ target), reads,
                .step removes (.step (writes _) (.refl _ _))⟩

/-- A request that nothing comes between does what its handler does. -/
theorem exec_uninterrupted (vault : TrackedVault) (threads : List Flight) (now : DateTime)
    (request : VersionRequest) (enabled : Enabled vault.toVaultState (request.at now)) :
    ∃ steps live,
      exec versionRequests.system { shared := vault, threads := threads }
          (.spawn request :: List.replicate steps (.advance threads.length now)) =
        some
          { shared :=
              { (serve vault.toVaultState (request.at now)).1 with live := live }
            threads := threads ++ [.answered []] } := by
  have alone : Alone now vault request (serve vault.toVaultState (request.at now)).1 := by
    cases request <;> simp only [VersionRequest.at, serve]
    case uploadBlob => exact alone_uploadBlob enabled
    case confirmUpload given => exact alone_confirmUpload given
    case deleteVaultVersion given => exact alone_deleteVaultVersion given
  obtain ⟨flight, live, reads, leads⟩ := alone
  obtain ⟨steps, run⟩ := leads.exec threads
  refine ⟨steps, live, ?_⟩
  rw [exec_cons, ← run]
  simp [Program.system, versionRequests, reads]

end Uninterrupted

end Vault
end MindMapVault
