import MindMapVault.Foundations.Result
import MindMapVault.Vault.Concurrency

/-!
# Display updates beside one another

A display update names the fields it changes and writes all of the display columns: the
others with what it read when it began. Whatever another request has written to them
since is gone. A content update writes the title, and an upload none of these columns.
-/

namespace MindMapVault
namespace Vault

open Transition Threads

/-- The columns a display update writes. -/
structure DisplayColumns where
  titleEncrypted : String
  vaultColor : Option String
  vaultNoteEncrypted : Option String
  vaultEncryptionMode : String
  maxVersions : Nat
  vaultLabels : List String
  deriving DecidableEq

/-- The display columns of a row. -/
def StoredMindMap.columns (map : StoredMindMap) : DisplayColumns where
  titleEncrypted := map.titleEncrypted
  vaultColor := map.vaultColor
  vaultNoteEncrypted := map.vaultNoteEncrypted
  vaultEncryptionMode := map.vaultEncryptionMode
  maxVersions := map.maxVersions
  vaultLabels := map.vaultLabels

/-- Columns with the fields a request carries. -/
def UpdateVaultMetaRequest.writeOver
    (body : UpdateVaultMetaRequest) (columns : DisplayColumns) : DisplayColumns where
  titleEncrypted := body.titleEncrypted.getD columns.titleEncrypted
  vaultColor := body.vaultColor.or columns.vaultColor
  vaultNoteEncrypted := body.vaultNoteEncrypted.or columns.vaultNoteEncrypted
  vaultEncryptionMode := body.vaultEncryptionMode.getD columns.vaultEncryptionMode
  maxVersions := body.maxVersions.getD columns.maxVersions
  vaultLabels := body.vaultLabels.getD columns.vaultLabels

/-- A vault, and for each display column the value of the last request that carried it
and was written. The latter is bookkeeping; no handler reads it. -/
structure CarriedVault where
  vault : TrackedVault
  carried : DisplayColumns

/-- A request under way. A display update gets past its reading only with a limit of
versions that is not zero. -/
inductive ColumnFlight
  | version (flight : Flight)
  | metaRead (map : StoredMindMap) (body : UpdateVaultMetaRequest)
      (accepted : body.maxVersions ≠ some 0)
  | contentRead (body : UpsertMindMapRequest)
  | returned (succeeded : Bool)

/-- A request that arrives. -/
inductive ColumnRequest
  | version (request : VersionRequest)
  | updateVaultMeta (body : UpdateVaultMetaRequest)
  | updateMindMap (body : UpsertMindMapRequest)

/-- The time of a step, and whether its statement goes through. -/
structure ColumnAct where
  now : DateTime
  works : Bool
  deriving DecidableEq

/-- The first step of a request: it is checked and the row is read. -/
def readColumns (shared : CarriedVault) :
    ColumnRequest → Option (CarriedVault × ColumnFlight)
  | .version request =>
      (readRow shared.vault request).map fun (vault, flight) =>
        ({ shared with vault := vault }, .version flight)
  | .updateVaultMeta body =>
      some (shared,
        if refused : body.maxVersions = some 0 then .returned false
        else .metaRead shared.vault.row body refused)
  | .updateMindMap body =>
      some (shared,
        match validateUpsert body with
        | .ok () => .contentRead body
        | .error _ => .returned false)

/-- The next step of a request. -/
def advanceColumns (shared : CarriedVault) :
    ColumnFlight → ColumnAct → Option (CarriedVault × ColumnFlight)
  | .version flight, act =>
      (advanceFlight shared.vault flight act.now).map fun (vault, flight) =>
        ({ shared with vault := vault }, .version flight)
  | .metaRead map body _, act =>
      match metaUpdate map body act.now with
      | .error _ => some (shared, .returned false)
      | .ok update =>
          if act.works then
            some
              ({ vault := { shared.vault with row := shared.vault.row.updateMeta update }
                 carried := body.writeOver shared.carried },
                .returned true)
          else some (shared, .returned false)
  | .contentRead body, act =>
      if act.works then
        some
          ({ vault :=
               { shared.vault with
                 row := shared.vault.row.updateContent (contentUpdate body act.now) }
             carried := { shared.carried with titleEncrypted := body.titleEncrypted } },
            .returned true)
      else some (shared, .returned false)
  | .returned _, _ => none

/-- Any number of requests on one vault. A client may write to an upload URL meanwhile. -/
def columnRequests :
    Program CarriedVault ColumnFlight (String × Bytes) ColumnRequest ColumnAct where
  outside := fun shared (versionId, body) =>
    (outsideEvent shared.vault (.presignedPut versionId body)).map fun vault =>
      { shared with vault := vault }
  spawn := readColumns
  advance := advanceColumns

/-- Requests on one vault. -/
abbrev ColumnPool := Pool CarriedVault ColumnFlight

/-- What happens to them. -/
abbrev ColumnMove := Move (String × Bytes) ColumnRequest ColumnAct

/-- A vault with no request under way. -/
def restingColumns (vault : TrackedVault) : ColumnPool where
  shared := ⟨vault, vault.row.columns⟩
  threads := []

/-- Each display column holds what the last request that carried it brought. -/
def HoldsCarried (pool : ColumnPool) : Prop := pool.shared.vault.row.columns = pool.shared.carried

instance (pool : ColumnPool) : Decidable (HoldsCarried pool) :=
  inferInstanceAs (Decidable (_ = _))

/-- Every request has returned success. -/
def AllSucceeded (pool : ColumnPool) : Prop :=
  ∀ flight ∈ pool.threads,
    match flight with
    | .version flight => flight = .answered []
    | .returned succeeded => succeeded = true
    | .metaRead .. | .contentRead _ => False

/-- The columns a request does not carry are as it read them. -/
def UncarriedKept (body : UpdateVaultMetaRequest) (read row : DisplayColumns) : Prop :=
  (body.titleEncrypted = none → read.titleEncrypted = row.titleEncrypted) ∧
    (body.vaultColor = none → read.vaultColor = row.vaultColor) ∧
    (body.vaultNoteEncrypted = none → read.vaultNoteEncrypted = row.vaultNoteEncrypted) ∧
    (body.vaultEncryptionMode = none → read.vaultEncryptionMode = row.vaultEncryptionMode) ∧
    (body.maxVersions = none → read.maxVersions = row.maxVersions) ∧
    (body.vaultLabels = none → read.vaultLabels = row.vaultLabels)

/-- What a request under way is about to write, it writes over current columns: where it
carries nothing it has read what is there. -/
def ColumnFlight.OverCurrent (row : DisplayColumns) (works : Bool) : ColumnFlight → Prop
  | .metaRead map body _ => works = true → UncarriedKept body map.columns row
  | .version _ | .contentRead _ | .returned _ => True

/-- A display update is written only while the columns it does not carry are still as it
read them. -/
def WritesCurrent (pool : ColumnPool) : ColumnMove → Prop
  | .advance thread act =>
      ∀ flight ∈ pool.threads[thread]?, flight.OverCurrent pool.shared.vault.row.columns act.works
  | .spawn _ | .outside _ => True

section Columns

/-- Written over other columns a request leaves the same exactly if they agree where it
carries nothing. -/
theorem writeOver_eq_iff (body : UpdateVaultMetaRequest) (read row : DisplayColumns) :
    body.writeOver read = body.writeOver row ↔ UncarriedKept body read row := by
  have field {α : Type} (carried : Option α) (first second : α) :
      carried.getD first = carried.getD second ↔ (carried = none → first = second) := by
    cases carried <;> simp
  have optional {α : Type} (carried first second : Option α) :
      carried.or first = carried.or second ↔ (carried = none → first = second) := by
    cases carried <;> simp
  simp only [UpdateVaultMetaRequest.writeOver, DisplayColumns.mk.injEq, UncarriedKept,
    field, optional]

/-- A display update writes its fields over the columns it has read. -/
theorem columns_updateMeta
    {map row : StoredMindMap} {body : UpdateVaultMetaRequest} {now : DateTime}
    {update : MindMapMetaUpdate} (accepted : metaUpdate map body now = .ok update) :
    (row.updateMeta update).columns = body.writeOver map.columns := by
  unfold metaUpdate at accepted
  obtain ⟨-, same⟩ := Result.refuse_eq_ok.mp accepted
  cases same
  rfl

/-- Reading a row changes nothing. -/
theorem readRow_vault {vault after : TrackedVault} {request : VersionRequest} {flight : Flight}
    (arrived : readRow vault request = some (after, flight)) : after = vault := by
  unfold readRow at arrived
  cases request with
  | uploadBlob minted body =>
      simp only at arrived
      split_ifs at arrived
      · cases arrived
        rfl
      · cases arrived
        rfl
  | confirmUpload versionId =>
      simp only at arrived
      split_ifs at arrived
      · cases arrived
        rfl
      · cases validated : validateVersionId versionId with
        | error error =>
            simp only [validated] at arrived
            cases arrived
            rfl
        | ok verifiedVid =>
            simp only [validated] at arrived
            cases arrived
            rfl
  | deleteVaultVersion versionId =>
      simp only at arrived
      cases accepted : deletionTarget vault.row versionId with
      | error error =>
          simp only [accepted] at arrived
          cases arrived
          rfl
      | ok target =>
          cases resolved : deletionKey vault.row target with
          | error error =>
              simp only [accepted, resolved] at arrived
              cases arrived
              rfl
          | ok objectKey =>
              simp only [accepted, resolved] at arrived
              cases arrived
              rfl

/-- No step of a request on versions touches the display columns. -/
theorem columns_advanceFlight {vault after : TrackedVault} {before flight : Flight} {now : DateTime}
    (moved : advanceFlight vault before now = some (after, flight)) :
    after.row.columns = vault.row.columns := by
  cases before with
  | uploadRead map minted body =>
      cases moved
      rfl
  | confirmRead map versionId =>
      simp only [advanceFlight] at moved
      cases sized : vault.objects.headSize (versionKey map.objectKey versionId) with
      | error error =>
          simp only [sized] at moved
          cases moved
          rfl
      | ok sizeBytes =>
          simp only [sized] at moved
          cases moved
          rfl
  | recording map versionId sizeBytes =>
      cases moved
      rfl
  | deleteRead map target objectKey =>
      cases moved
      rfl
  | deleteStored map target =>
      simp only [advanceFlight] at moved
      cases written : deletionRow map target with
      | error error =>
          simp only [written] at moved
          cases moved
          rfl
      | ok entry =>
          simp only [written] at moved
          cases moved
          rfl
  | answered prunedKeys =>
      cases prunedKeys with
      | nil => cases moved
      | cons objectKey prunedKeys =>
          cases moved
          rfl

/-- A request that arrives changes neither the display columns nor what is recorded of
them. -/
theorem holdsCarried_readColumns
    {shared after : CarriedVault} {request : ColumnRequest} {flight : ColumnFlight}
    (arrived : readColumns shared request = some (after, flight)) :
    after = shared := by
  cases request with
  | version request =>
      obtain ⟨⟨vault, inner⟩, read, same⟩ := Option.map_eq_some_iff.mp arrived
      cases same
      rw [readRow_vault read]
  | updateVaultMeta body =>
      cases arrived
      rfl
  | updateMindMap body =>
      cases arrived
      rfl

/-- After a step the display columns hold what was carried exactly if the step writes
over current columns. -/
theorem holdsCarried_advance_iff
    {shared after : CarriedVault} {before flight : ColumnFlight} {act : ColumnAct}
    (holds : shared.vault.row.columns = shared.carried)
    (moved : advanceColumns shared before act = some (after, flight)) :
    after.vault.row.columns = after.carried ↔
      before.OverCurrent shared.vault.row.columns act.works := by
  cases before with
  | version inner =>
      obtain ⟨⟨vault, next⟩, stepped, same⟩ := Option.map_eq_some_iff.mp moved
      cases same
      exact iff_of_true ((columns_advanceFlight stepped).trans holds) trivial
  | metaRead map body limited =>
      simp only [advanceColumns] at moved
      cases accepted : metaUpdate map body act.now with
      | error error =>
          rw [metaUpdate, if_neg limited] at accepted
          cases accepted
      | ok update =>
          simp only [accepted] at moved
          split_ifs at moved with works
          · cases moved
            simp only [ColumnFlight.OverCurrent, works, true_implies]
            rw [columns_updateMeta accepted, ← holds, writeOver_eq_iff]
          · cases moved
            exact iff_of_true holds fun wrote => absurd wrote works
  | contentRead body =>
      simp only [advanceColumns] at moved
      split_ifs at moved
      · cases moved
        refine iff_of_true ?_ trivial
        rw [← holds]
        rfl
      · cases moved
        exact iff_of_true holds trivial
  | returned succeeded => cases moved

end Columns

/-- In every state of a run each display column holds what the last request that carried
it brought, exactly if every display update is written over columns that are, where it
carries nothing, as it read them. -/
theorem holdsCarried_iff_writesCurrent (vault : TrackedVault) (moves : List ColumnMove) :
    EveryState columnRequests.system HoldsCarried (restingColumns vault) moves ↔
      EveryStepAllowed columnRequests.system WritesCurrent (restingColumns vault) moves := by
  have initially : HoldsCarried (restingColumns vault) := rfl
  refine everyState_iff_everyStepAllowed
    (fun (pool : ColumnPool) (holds : HoldsCarried pool) => holds) ?_
    (fun _ _ _ _ _ holds => holds) initially moves
  intro pool move next holds taken
  refine Program.system_cases (motive := fun move next =>
    HoldsCarried next ↔ WritesCurrent pool move) ?_ ?_ ?_ taken
  · rintro ⟨versionId, body⟩ shared put
    cases put
    exact iff_of_true holds trivial
  · intro request shared own arrived
    rw [holdsCarried_readColumns arrived]
    exact iff_of_true holds trivial
  · intro thread act before shared after present action
    have stepped := holdsCarried_advance_iff holds action
    simpa only [HoldsCarried, WritesCurrent, present, Option.mem_def, Option.some.injEq,
      forall_eq'] using stepped

section Samples

/-- A vault with a title and a colour. -/
def colouredVault : TrackedVault where
  row :=
    { createMindMap "m" "u" "key" ⟨"old title", "eph", "pq", "dek"⟩ 0 with
      vaultColor := some "red" }
  objects := fun _ => none
  live := []

/-- One request changes the title and another, which read the row before, the colour:
both succeed, and the old title is back. -/
theorem colour_update_reverts_title :
    ¬ ∀ (vault : TrackedVault) (moves : List ColumnMove) (pool : ColumnPool),
      exec columnRequests.system (restingColumns vault) moves = some pool →
        AllSucceeded pool → HoldsCarried pool := by
  intro always
  have succeeded : AllSucceeded
      { shared :=
          { vault :=
              { colouredVault with
                row := { colouredVault.row with vaultColor := some "blue", updatedAt := 2 } }
            carried :=
              { colouredVault.row.columns with
                titleEncrypted := "new title", vaultColor := some "blue" } }
        threads := [.returned true, .returned true] } := by
    intro flight present
    simp only [List.mem_cons, List.not_mem_nil, or_false, or_self] at present
    rw [present]
  have holds := always colouredVault
    [.spawn (.updateVaultMeta { titleEncrypted := some "new title" }),
      .spawn (.updateVaultMeta { vaultColor := some "blue" }),
      .advance 0 ⟨1, true⟩, .advance 1 ⟨2, true⟩] _ rfl succeeded
  revert holds
  decide

end Samples

end Vault
end MindMapVault
