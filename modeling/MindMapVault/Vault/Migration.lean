import MindMapVault.Vault.Handlers

/-!
# Moving blobs to keys of their own

Histories once named no object keys: the bytes of the last save were at the bare
key of the vault, older ones were object versions of that key where the store
keeps such versions. The migration copies what it can find to a key for each
version, writes the row and deletes the bare object. Every operation may fail,
an upload may report success and leave something else, and a run that is
interrupted ends like one whose next operation fails.
-/

namespace MindMapVault
namespace Vault

/-- How an upload ends: with the bytes stored, with other bytes stored or with
nothing stored although it reports success, or with a failure that may have left
something behind. -/
inductive UploadOutcome
  | stored
  | garbled (left : Bytes)
  | dropped
  | failed (left : Option Bytes)
  deriving DecidableEq

/-- `PutObject`, with what it leaves. -/
def Objects.upload (objects : Objects) (outcome : UploadOutcome) (objectKey : String)
    (body : Bytes) : Except AppError Unit × Objects :=
  match outcome with
  | .stored => (.ok (), objects.put objectKey body)
  | .garbled left => (.ok (), objects.put objectKey left)
  | .dropped => (.ok (), objects)
  | .failed left =>
      (.error (.storage "upload failed"), left.elim objects (objects.put objectKey))

/-- What goes wrong while one version is rescued. -/
structure RescueFaults where
  headFails : Bool := false
  readFails : Bool := false
  upload : UploadOutcome := .stored
  readBackFails : Bool := false
  deriving DecidableEq

/-- How the write of the row ends; unanswered, it was written all the same. -/
inductive RowWrite
  | written
  | refused
  | unanswered
  deriving DecidableEq

/-- What goes wrong in a run: for the listing, the rescue of each entry, the
rescue of a current version outside the history, the row and the deletion. -/
structure MigrationFaults where
  listFails : Bool := false
  rescue : String → RescueFaults := fun _ => {}
  current : RescueFaults := {}
  rowWrite : RowWrite := .written
  deleteFails : Bool := false

/-- A vault with the object versions of its bare key, if the store keeps any. -/
structure LegacyVault where
  row : StoredMindMap
  objects : Objects
  versions : Option (List (String × Bytes))

/-- `list_legacy_versions`. -/
def LegacyVault.listLegacyVersions
    (vault : LegacyVault) (listFails : Bool) : Option (List String) :=
  if listFails then none else vault.versions.map (·.map Prod.fst)

/-- `download_legacy_version`; `none` where the store does not know it. -/
def LegacyVault.downloadLegacyVersion (vault : LegacyVault) (versionId : String) : Option Bytes :=
  vault.versions.bind (·.lookup versionId)

/-- Every version already names the object that holds it. -/
def isMigrated (history : List VersionSnapshot) (currentVersionId : Option String) :
    Bool :=
  match currentVersionId with
  | none => true
  | some current =>
      history.any (·.versionId == current) && history.all (·.objectKey.isSome)

/-- The bytes of a legacy version: whatever the bare key holds for the current
one, an object version the store has listed for the others. -/
def legacySource (faults : RescueFaults) (vault : LegacyVault) (objects : Objects)
    (versionId : String) (isCurrent : Bool) (storedVersions : Option (List String)) :
    Except AppError (Option Bytes) :=
  if !isCurrent && !storedVersions.any (·.contains versionId) then
    .ok none
  else if faults.readFails then
    .error (.storage "download failed")
  else if isCurrent then
    .ok (objects vault.row.objectKey)
  else
    .ok (vault.downloadLegacyVersion versionId)

/-- Upload a copy, read it back and compare. -/
def copyVerified (faults : RescueFaults) (objects : Objects) (destination versionId : String)
    (sourceBytes : Bytes) : Except AppError Unit × Objects :=
  match objects.upload faults.upload destination sourceBytes with
  | (.error error, uploaded) => (.error error, uploaded)
  | (.ok (), uploaded) =>
      if faults.readBackFails then
        (.error (.storage "download failed"), uploaded)
      else if uploaded destination = none then
        (.error (.notFound s!"'{destination}' not found in storage"), uploaded)
      else if uploaded destination ≠ some sourceBytes then
        (.error (.storage
          s!"copy of version '{versionId}' read back different bytes than were written"),
          uploaded)
      else
        (.ok (), uploaded)

/-- `rescue_version`: copy one version to its own key, unless something is there
already. `none` means the bytes are not in the store. -/
def rescueVersion (faults : RescueFaults) (vault : LegacyVault) (objects : Objects)
    (versionId : String) (isCurrent : Bool) (storedVersions : Option (List String)) :
    Except AppError (Option Int) × Objects :=
  let destination := versionKey vault.row.objectKey versionId
  match if faults.headFails then none else objects destination with
  | some body => (.ok (some body.length), objects)
  | none =>
      match legacySource faults vault objects versionId isCurrent storedVersions with
      | .error error => (.error error, objects)
      | .ok none => (.ok none, objects)
      | .ok (some sourceBytes) =>
          match copyVerified faults objects destination versionId sourceBytes with
          | (.error error, after) => (.error error, after)
          | (.ok (), after) => (.ok (some sourceBytes.length), after)

/-- An entry moved to its own key. -/
def VersionSnapshot.moved (objectKey : String) (sizeBytes : Int) (snapshot : VersionSnapshot) :
    VersionSnapshot :=
  { snapshot with
    objectKey := some (versionKey objectKey snapshot.versionId)
    sizeBytes := some sizeBytes }

/-- What a run did to the entries of a vault. -/
structure MigrationOutcome where
  recovered : Nat
  lost : Nat
  deriving DecidableEq

/-- The loop of `migrate_one` over the history: entries with a key of their own
stay, others are rescued, and those whose bytes are nowhere are dropped. -/
def rescueHistory (faults : String → RescueFaults) (vault : LegacyVault)
    (current : String) (storedVersions : Option (List String)) :
    List VersionSnapshot → Objects →
      Except AppError (List VersionSnapshot × MigrationOutcome) × Objects
  | [], objects => (.ok ([], { recovered := 0, lost := 0 }), objects)
  | snapshot :: history, objects =>
      if snapshot.objectKey.isSome then
        match rescueHistory faults vault current storedVersions history objects with
        | (.error error, after) => (.error error, after)
        | (.ok (migrated, outcome), after) => (.ok (snapshot :: migrated, outcome), after)
      else
        match rescueVersion (faults snapshot.versionId) vault objects
            snapshot.versionId (snapshot.versionId == current) storedVersions with
        | (.error error, after) => (.error error, after)
        | (.ok none, after) =>
            match rescueHistory faults vault current storedVersions history after with
            | (.error error, after) => (.error error, after)
            | (.ok (migrated, outcome), after) =>
                (.ok (migrated, { outcome with lost := outcome.lost + 1 }), after)
        | (.ok (some sizeBytes), after) =>
            match rescueHistory faults vault current storedVersions history after with
            | (.error error, after) => (.error error, after)
            | (.ok (migrated, outcome), after) =>
                (.ok (snapshot.moved vault.row.objectKey sizeBytes :: migrated,
                  { outcome with recovered := outcome.recovered + 1 }), after)

/-- Add the current version where the migrated history lacks it. -/
def rescueCurrent (faults : RescueFaults) (vault : LegacyVault) (current : String)
    (migrated : List VersionSnapshot) (outcome : MigrationOutcome) (objects : Objects) :
    Except AppError (List VersionSnapshot × MigrationOutcome) × Objects :=
  if migrated.any (·.versionId == current) then
    (.ok (migrated, outcome), objects)
  else
    match rescueVersion faults vault objects current true none with
    | (.error error, after) => (.error error, after)
    | (.ok none, after) =>
        (.error (.storage "the current version's object is missing from storage"), after)
    | (.ok (some sizeBytes), after) =>
        (.ok (migrated ++
            [newSnapshot vault.row current vault.row.updatedAt sizeBytes],
          { outcome with recovered := outcome.recovered + 1 }), after)

/-- `migrate_one`. -/
def migrateOne (faults : MigrationFaults) (vault : LegacyVault) :
    Except AppError (Option MigrationOutcome) × LegacyVault :=
  match vault.row.currentVersionId with
  | none => (.ok none, vault)
  | some currentVersionId =>
      match validateVersionId currentVersionId with
      | .error error => (.error error, vault)
      | .ok current =>
          match rescueHistory faults.rescue vault current
              (vault.listLegacyVersions faults.listFails) vault.row.versionHistory
              vault.objects with
          | (.error error, objects) =>
              (.error error, { vault with objects := objects })
          | (.ok (migrated, outcome), objects) =>
              match rescueCurrent faults.current vault current migrated outcome objects with
              | (.error error, objects) =>
                  (.error error, { vault with objects := objects })
              | (.ok (migrated, outcome), objects) =>
                  let row := vault.row.updateUpload current migrated
                  match faults.rowWrite with
                  | .refused =>
                      (.error (.database "update failed"), { vault with objects := objects })
                  | .unanswered =>
                      (.error (.database "update failed"),
                        { vault with row := row, objects := objects })
                  | .written =>
                      (.ok (some outcome),
                        { vault with
                          row := row
                          objects :=
                            if faults.deleteFails then
                              objects
                            else
                              objects.delete vault.row.objectKey })

/-- The migration of one vault at startup: nothing where it has been done. -/
def runMigration (faults : MigrationFaults) (vault : LegacyVault) : LegacyVault :=
  if isMigrated vault.row.versionHistory vault.row.currentVersionId then
    vault
  else
    (migrateOne faults vault).2

end Vault
end MindMapVault
