import MindMapVault.Desktop.LocalStore
import MindMapVault.Foundations.Threads

/-!
# Commands running together

Rotations and index writes take the index lock; the recovery, which every read of the
profile runs first, takes none. Each operation on a file and each look at whether one
exists is one action, and each rename and write may fail. Beside the files stands what
the commands that returned have promised their callers.
-/

namespace MindMapVault
namespace Desktop

/-- What the profile and the index hold. -/
structure Contents where
  profile : File LocalProfile
  index : File VaultIndex
  deriving DecidableEq

/-- The contents of the files, whatever is staged. -/
def LocalFiles.contents (files : LocalFiles) : Contents := ⟨files.profile, files.index⟩

/-- The files, the index lock, and what callers have been told. -/
structure LocalShared where
  files : LocalFiles
  locked : Bool
  promised : Contents
  deriving DecidableEq

/-- A password rotation. -/
structure RotationRequest where
  newProfile : LocalProfile
  updatedVaults : List RotatedVaultEntry
  deriving DecidableEq

/-- What a command does to the index it read, unless it refuses. -/
abbrev IndexEdit := VaultIndex → Option VaultIndex

/-- Where `apply_local_password_rotation` stands. -/
inductive RotationStage
  | waiting
  | locked
  | read (index : VaultIndex)
  | profileStaged (index : VaultIndex)
  | indexStaged (stampedIndex : VaultIndex)
  | profileRenamed (stampedIndex : VaultIndex)
  | removingProfile (indexToo : Bool)
  | removingIndex
  | ending (rotated : Option VaultIndex)
  deriving DecidableEq

/-- Where an index write stands. -/
inductive EditStage
  | waiting (edit : IndexEdit)
  | locked (edit : IndexEdit)
  | edited (index : VaultIndex)
  | ending

/-- Where a recovery stands. -/
inductive RecoveryStage
  | starting
  | sawProfile (profileNew : Bool)
  | performing (ops : List FileOp)
  deriving DecidableEq

/-- A command under way. -/
inductive LocalCall
  | rotating (request : RotationRequest) (stage : RotationStage)
  | editing (stage : EditStage)
  | recovering (stage : RecoveryStage)
  | returned

/-- A command that starts. -/
inductive LocalCommand
  | rotate (request : RotationRequest)
  | edit (edit : IndexEdit)
  | recover

/-- How a write to a file ends. -/
inductive Written
  | done
  | refused
  | torn
  deriving DecidableEq

/-- What one action goes by. -/
inductive LocalAct
  | step
  | stampFailed
  | wrote (written : Written)
  | moved (works : Bool)
  deriving DecidableEq

/-- What a write leaves in a file. -/
def Written.leaves {α : Type} (value : α) (before : File α) : Written → File α
  | .done => .holds value
  | .refused => before
  | .torn => .torn

namespace LocalShared

/-- The files after one operation. -/
def perform (shared : LocalShared) (op : FileOp) : LocalShared :=
  { shared with files := op.perform shared.files }

/-- The lock is given back. -/
def unlock (shared : LocalShared) : LocalShared := { shared with locked := false }

/-- A rotation returns, and answers whether it rotated. -/
def finish (shared : LocalShared) (newProfile : LocalProfile) :
    Option VaultIndex → LocalShared
  | none => shared.unlock
  | some stampedIndex =>
      { shared.unlock with promised := ⟨.holds newProfile, .holds stampedIndex⟩ }

/-- An index that was written is there to stay. -/
def writeIndex (shared : LocalShared) (stampedIndex : VaultIndex) : LocalShared :=
  { shared with
    files := { shared.files with index := .holds stampedIndex }
    promised := { shared.promised with index := .holds stampedIndex } }

end LocalShared

/-- The next action of `apply_local_password_rotation`. -/
def advanceRotation (mac : String → String) (shared : LocalShared) (request : RotationRequest) :
    RotationStage → LocalAct → Option (LocalShared × LocalCall)
  | .waiting, .step =>
      if shared.locked then none
      else some ({ shared with locked := true }, .rotating request .locked)
  | .locked, .step =>
      some (shared, .rotating request <|
        match readIndex shared.files.index with
        | .ok index => .read index
        | .error _ => .ending none)
  | .read index, .wrote written =>
      some
        ({ shared with
            files :=
              { shared.files with
                profileNew := written.leaves request.newProfile shared.files.profileNew } },
          .rotating request <|
            if written = .done then .profileStaged index else .removingProfile false)
  | .profileStaged _, .stampFailed => some (shared, .rotating request (.ending none))
  | .profileStaged index, .wrote written =>
      let stampedIndex := stampIndexForWrite mac (rotateIndex index request.updatedVaults)
      some
        ({ shared with
            files :=
              { shared.files with
                indexNew := written.leaves stampedIndex shared.files.indexNew } },
          .rotating request <|
            if written = .done then .indexStaged stampedIndex else .removingProfile true)
  | .indexStaged stampedIndex, .moved works =>
      if works && shared.files.profileNew.exists then
        some (shared.perform .renameProfile, .rotating request (.profileRenamed stampedIndex))
      else
        some (shared, .rotating request (.removingProfile true))
  | .profileRenamed stampedIndex, .moved works =>
      if works && shared.files.indexNew.exists then
        some (shared.perform .renameIndex, .rotating request (.ending (some stampedIndex)))
      else
        some (shared, .rotating request (.ending none))
  | .removingProfile indexToo, .step =>
      some (shared.perform .removeProfileNew,
        .rotating request (if indexToo then .removingIndex else .ending none))
  | .removingIndex, .step =>
      some (shared.perform .removeIndexNew, .rotating request (.ending none))
  | .ending rotated, .step =>
      some (shared.finish request.newProfile rotated, .returned)
  | _, _ => none

/-- The next action of an index write: the index is read, changed, stamped and written
in one rename. -/
def advanceEdit (mac : String → String) (shared : LocalShared) :
    EditStage → LocalAct → Option (LocalShared × LocalCall)
  | .waiting edit, .step =>
      if shared.locked then none
      else some ({ shared with locked := true }, .editing (.locked edit))
  | .locked edit, .step =>
      some (shared, .editing <|
        match (readIndex shared.files.index).toOption.bind edit with
        | some index => .edited index
        | none => .ending)
  | .edited index, .moved works =>
      some
        (if works then shared.writeIndex (stampIndexForWrite mac index) else shared,
          .editing .ending)
  | .ending, .step => some (shared.unlock, .returned)
  | _, _ => none

/-- The next action of `recover_interrupted_rotation`, which takes no lock and ignores
every failure. -/
def advanceRecovery (shared : LocalShared) :
    RecoveryStage → LocalAct → Option (LocalShared × LocalCall)
  | .starting, .step =>
      some (shared, .recovering (.sawProfile shared.files.profileNew.exists))
  | .sawProfile profileNew, .step =>
      some (shared, .recovering (.performing (recoveryOps profileNew shared.files.indexNew.exists)))
  | .performing [], .step => some (shared, .returned)
  | .performing (op :: ops), .moved works =>
      some (if works then shared.perform op else shared, .recovering (.performing ops))
  | _, _ => none

/-- The next action of a command. -/
def advanceLocal (mac : String → String) (shared : LocalShared) :
    LocalCall → LocalAct → Option (LocalShared × LocalCall)
  | .rotating request stage, act => advanceRotation mac shared request stage act
  | .editing stage, act => advanceEdit mac shared stage act
  | .recovering stage, act => advanceRecovery shared stage act
  | .returned, _ => none

/-- A command starts. A rotation is for the active user only. -/
def spawnLocal (active : String) (shared : LocalShared) :
    LocalCommand → Option (LocalShared × LocalCall)
  | .rotate request =>
      if request.newProfile.username ≠ active then none
      else
        match validateUsername request.newProfile.username with
        | .ok () => some (shared, .rotating request .waiting)
        | .error _ => none
  | .edit edit => some (shared, .editing (.waiting edit))
  | .recover => some (shared, .recovering .starting)

/-- The local store of one user. -/
def localProgram (mac : String → String) (active : String) :
    Threads.Program LocalShared LocalCall Empty LocalCommand LocalAct where
  outside := fun _ event => event.elim
  spawn := spawnLocal active
  advance := advanceLocal mac

/-- A profile and an index, with nothing staged and no command under way. -/
def startLocal (profile : LocalProfile) (index : VaultIndex) :
    Threads.Pool LocalShared LocalCall where
  shared :=
    { files :=
        { profile := .holds profile
          index := .holds index
          profileNew := .absent
          indexNew := .absent }
      locked := false
      promised := ⟨.holds profile, .holds index⟩ }
  threads := []

end Desktop
end MindMapVault
