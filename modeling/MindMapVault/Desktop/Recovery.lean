import MindMapVault.Desktop.LocalStore

/-!
# A rotation that is cut short

A crash leaves the files after some of the operations of a rotation, and the recovery
that follows may itself be cut short any number of times before a run of it completes.
The recovery takes a staged index beside no staged profile for a rotation that got past
its first rename. Its own two removals pass through that very state.
-/

namespace MindMapVault
namespace Desktop

/-- The profile and the index are those of other files, whatever is staged. -/
def SameContents (files other : LocalFiles) : Prop :=
  files.profile = other.profile ∧ files.index = other.index

instance (files other : LocalFiles) : Decidable (SameContents files other) :=
  inferInstanceAs (Decidable (_ ∧ _))

/-- Nothing is staged. -/
def Settled (files : LocalFiles) : Prop := files.profileNew = .absent ∧ files.indexNew = .absent

instance (files : LocalFiles) : Decidable (Settled files) :=
  inferInstanceAs (Decidable (_ ∧ _))

/-- What a run of the recovery is about to do. -/
def pendingRecovery (files : LocalFiles) : List FileOp :=
  recoveryOps files.profileNew.exists files.indexNew.exists

theorem pendingRecovery_eq {files : LocalFiles} (profileNew indexNew : Bool)
    (profile : files.profileNew.exists = profileNew) (index : files.indexNew.exists = indexNew) :
    pendingRecovery files = recoveryOps profileNew indexNew := by
  rw [pendingRecovery, profile, index]

/-- `recover_interrupted_rotation`. -/
def recoverInterruptedRotation (files : LocalFiles) : LocalFiles :=
  performAll files (pendingRecovery files)

/-- A recovery that is cut short after some of its operations. -/
def interruptedRecovery (files : LocalFiles) (performed : Nat) : LocalFiles :=
  performAll files ((pendingRecovery files).take performed)

/-- Recoveries that are cut short, and one that completes. -/
def recovered (files : LocalFiles) (interruptions : List Nat) : LocalFiles :=
  recoverInterruptedRotation (interruptions.foldl interruptedRecovery files)

@[simp] theorem recovered_cons
    (files : LocalFiles) (performed : Nat) (interruptions : List Nat) :
    recovered files (performed :: interruptions) =
      recovered (interruptedRecovery files performed) interruptions := rfl

/-- A recovery that completes leaves nothing staged. -/
theorem settled_recover (files : LocalFiles) :
    Settled (recoverInterruptedRotation files) := by
  have absent {α : Type} {file : File α} (missing : file.exists = false) :
      file = .absent := by
    cases file with
    | absent => rfl
    | torn => simp [File.exists] at missing
    | holds value => simp at missing
  unfold recoverInterruptedRotation pendingRecovery
  cases profileStaged : files.profileNew.exists with
  | true =>
      cases indexStaged : files.indexNew.exists with
      | true => exact ⟨rfl, rfl⟩
      | false => exact ⟨rfl, absent indexStaged⟩
  | false =>
      cases indexStaged : files.indexNew.exists with
      | true =>
          have renamed : performAll files (recoveryOps false true) =
              { files with index := files.indexNew, indexNew := .absent } :=
            if_pos indexStaged
          rw [renamed]
          exact ⟨absent profileStaged, rfl⟩
      | false => exact ⟨absent profileStaged, absent indexStaged⟩

section Stages

variable {files : LocalFiles}

@[simp] theorem interruptedRecovery_zero (files : LocalFiles) :
    interruptedRecovery files 0 = files := by
  simp [interruptedRecovery]

/-- A recovery with at most this many operations is not cut short. -/
theorem interruptedRecovery_of_length_le
    {performed : Nat} (enough : (pendingRecovery files).length ≤ performed) :
    interruptedRecovery files performed = recoverInterruptedRotation files := by
  rw [interruptedRecovery, List.take_of_length_le enough, recoverInterruptedRotation]

/-- Where nothing is staged a recovery does nothing. -/
theorem recovered_settled (settled : Settled files) (interruptions : List Nat) :
    recovered files interruptions = files := by
  have nothing : pendingRecovery files = [] :=
    pendingRecovery_eq false false (by simp [settled.1]) (by simp [settled.2])
  induction interruptions with
  | nil => simp [recovered, recoverInterruptedRotation, nothing]
  | cons performed interruptions ih =>
      rw [recovered_cons, interruptedRecovery, nothing, List.take_nil, performAll_nil]
      exact ih

/-- One pending operation is performed however often the recovery is cut short. -/
theorem recovered_of_single (op : FileOp) (single : pendingRecovery files = [op])
    (settles : Settled (op.perform files)) (interruptions : List Nat) :
    recovered files interruptions = op.perform files := by
  have whole : recoverInterruptedRotation files = op.perform files := by
    rw [recoverInterruptedRotation, single, performAll_cons, performAll_nil]
  induction interruptions with
  | nil => exact whole
  | cons performed interruptions ih =>
      rw [recovered_cons]
      cases performed with
      | zero => rwa [interruptedRecovery_zero]
      | succ performed =>
          rw [interruptedRecovery_of_length_le (by simp [single]), whole]
          exact recovered_settled settles interruptions

/-- A staged profile alone is dropped. -/
theorem recovered_profileStaged
    (files : LocalFiles) (profileStaged : files.profileNew.exists = true)
    (noIndex : files.indexNew = .absent) (interruptions : List Nat) :
    recovered files interruptions = { files with profileNew := .absent } := by
  refine recovered_of_single .removeProfileNew ?_ ⟨rfl, noIndex⟩ interruptions
  exact pendingRecovery_eq true false profileStaged (by simp [noIndex])

/-- A staged index alone becomes the index. -/
theorem recovered_indexStaged (files : LocalFiles) (noProfile : files.profileNew = .absent)
    (indexStaged : files.indexNew.exists = true) (interruptions : List Nat) :
    recovered files interruptions =
      { files with index := files.indexNew, indexNew := .absent } := by
  have renamed : FileOp.renameIndex.perform files =
      { files with index := files.indexNew, indexNew := .absent } := if_pos indexStaged
  rw [← renamed]
  refine recovered_of_single .renameIndex ?_ ?_ interruptions
  · exact pendingRecovery_eq false true (by simp [noProfile]) indexStaged
  · rw [renamed]
    exact ⟨noProfile, rfl⟩

/-- Two staged files are dropped, unless the first run that does anything is cut short
between its two removals: then the staged index becomes the index. -/
theorem recovered_bothStaged (files : LocalFiles) (profileStaged : files.profileNew.exists = true)
    (indexStaged : files.indexNew.exists = true) (interruptions : List Nat) :
    recovered files interruptions =
      if interruptions.find? (· ≠ 0) = some 1 then
        { files with
          index := files.indexNew
          profileNew := .absent
          indexNew := .absent }
      else
        { files with profileNew := .absent, indexNew := .absent } := by
  have both : pendingRecovery files = [.removeProfileNew, .removeIndexNew] :=
    pendingRecovery_eq true true profileStaged indexStaged
  have whole : recoverInterruptedRotation files =
      { files with profileNew := .absent, indexNew := .absent } := by
    rw [recoverInterruptedRotation, both]
    rfl
  induction interruptions with
  | nil => exact whole
  | cons performed interruptions ih =>
      rw [recovered_cons]
      match performed with
      | 0 =>
          rw [interruptedRecovery_zero, ih]
          simp
      | 1 =>
          have halfway : interruptedRecovery files 1 =
              { files with profileNew := .absent } := by
            rw [interruptedRecovery, both]
            rfl
          rw [halfway, recovered_indexStaged { files with profileNew := .absent } rfl
            indexStaged interruptions]
          simp
      | more + 2 =>
          rw [interruptedRecovery_of_length_le (by simp [both]), whole,
            recovered_settled ⟨rfl, rfl⟩]
          simp

end Stages

/-- A completed rotation leaves the new profile and the new index, and nothing staged. -/
theorem performAll_rotation (files : LocalFiles) (profile : LocalProfile) (index : VaultIndex) :
    performAll files [.writeProfileNew profile, .writeIndexNew index, .renameProfile,
        .renameIndex] =
      { profile := .holds profile
        index := .holds index
        profileNew := .absent
        indexNew := .absent } := rfl

/-- A rotation whose recoveries may be cut short leaves both old files or both new ones,
exactly when it did not crash between the second write and the first rename with the
first recovery that did anything cut short between its two removals; or when it writes
to one of the two files what was in it. -/
theorem rotation_bothOrNeither_iff {mac : String → String} {active : String} {files : LocalFiles}
    {newProfile : LocalProfile} {updatedVaults : List RotatedVaultEntry} {ops : List FileOp}
    (settled : Settled files)
    (accepted : rotationOps mac active files newProfile updatedVaults = .ok ops)
    (crash : Nat) (interruptions : List Nat) :
    (SameContents (recovered (performAll files (ops.take crash)) interruptions) files ∨
        SameContents (recovered (performAll files (ops.take crash)) interruptions)
          (performAll files ops)) ↔
      ¬ (crash = 2 ∧ interruptions.find? (· ≠ 0) = some 1) ∨
        (performAll files ops).profile = files.profile ∨
          (performAll files ops).index = files.index := by
  obtain ⟨index, _, rfl⟩ := rotationOps_shape accepted
  generalize stampIndexForWrite mac (rotateIndex index updatedVaults) = stamped
  rw [performAll_rotation]
  match crash with
  | 0 =>
      refine iff_of_true (.inl ?_) (.inl (by simp))
      rw [List.take_zero, performAll_nil, recovered_settled settled]
      exact ⟨rfl, rfl⟩
  | 1 =>
      refine iff_of_true (.inl ?_) (.inl (by simp))
      have crashed : performAll files ([FileOp.writeProfileNew newProfile,
          .writeIndexNew stamped, .renameProfile, .renameIndex].take 1) =
            { files with profileNew := .holds newProfile } := rfl
      rw [crashed, recovered_profileStaged
        { files with profileNew := .holds newProfile } rfl settled.2]
      exact ⟨rfl, rfl⟩
  | 2 =>
      have crashed : performAll files ([FileOp.writeProfileNew newProfile,
          .writeIndexNew stamped, .renameProfile, .renameIndex].take 2) =
            { files with profileNew := .holds newProfile, indexNew := .holds stamped } :=
        rfl
      rw [crashed, recovered_bothStaged _ rfl rfl]
      by_cases between : interruptions.find? (· ≠ 0) = some 1
      · rw [if_pos between]
        constructor
        · rintro (⟨_, old⟩ | ⟨new, _⟩)
          · exact .inr (.inr old)
          · exact .inr (.inl new.symm)
        · rintro (fine | profileKept | indexKept)
          · exact absurd ⟨rfl, between⟩ fine
          · exact .inr ⟨profileKept.symm, rfl⟩
          · exact .inl ⟨rfl, indexKept⟩
      · rw [if_neg between]
        exact iff_of_true (.inl ⟨rfl, rfl⟩) (.inl fun stopped => between stopped.2)
  | 3 =>
      refine iff_of_true (.inr ?_) (.inl (by simp))
      have crashed : performAll files ([FileOp.writeProfileNew newProfile,
          .writeIndexNew stamped, .renameProfile, .renameIndex].take 3) =
            { files with
              profile := .holds newProfile
              profileNew := .absent
              indexNew := .holds stamped } := rfl
      rw [crashed, recovered_indexStaged _ rfl rfl]
      exact ⟨rfl, rfl⟩
  | more + 4 =>
      refine iff_of_true (.inr ?_) (.inl (by simp))
      rw [List.take_of_length_le (by simp), performAll_rotation, recovered_settled ⟨rfl, rfl⟩]
      exact ⟨rfl, rfl⟩

section Samples

/-- The files before the rotation. -/
def sampleFiles : LocalFiles where
  profile := .holds (sampleProfile "old")
  index := .holds (sampleIndex "old title")
  profileNew := .absent
  indexNew := .absent

/-- What the rotation does to them. -/
def sampleOps : List FileOp :=
  ((rotationOps id "ada" sampleFiles (sampleProfile "new")
    [⟨"v", "new title", none⟩]).toOption).getD []

/-- A crash between the renames, and a recovery cut short before its only step. -/
theorem rotation_bothOrNeither_iff_renamed :
    SameContents (recovered (performAll sampleFiles (sampleOps.take 3)) [0])
        sampleFiles ∨
      SameContents (recovered (performAll sampleFiles (sampleOps.take 3)) [0])
        (performAll sampleFiles sampleOps) := by
  have accepted : rotationOps id "ada" sampleFiles (sampleProfile "new")
      [⟨"v", "new title", none⟩] = .ok sampleOps := rfl
  exact (rotation_bothOrNeither_iff (by decide) accepted 3 [0]).mpr (.inl (by decide))

/-- A crash before the first rename, and a recovery cut short between its two removals:
the next one renames the new index over the old one, beside the old profile. -/
theorem interrupted_recovery_mixes_files :
    ¬ ∀ (mac : String → String) (active : String) (files : LocalFiles)
        (newProfile : LocalProfile) (updatedVaults : List RotatedVaultEntry)
        (ops : List FileOp) (crash : Nat) (interruptions : List Nat),
      Settled files →
      rotationOps mac active files newProfile updatedVaults = .ok ops →
        SameContents (recovered (performAll files (ops.take crash)) interruptions) files ∨
          SameContents (recovered (performAll files (ops.take crash)) interruptions)
            (performAll files ops) := by
  intro always
  have holds := always id "ada" sampleFiles (sampleProfile "new")
    [⟨"v", "new title", none⟩] sampleOps 2 [1] (by decide) rfl
  revert holds
  decide

end Samples

end Desktop
end MindMapVault
