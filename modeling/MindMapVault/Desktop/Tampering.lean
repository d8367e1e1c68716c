import MindMapVault.Desktop.VaultCommands
import MindMapVault.Foundations.Transition

/-!
# Edits of the index from outside

The tag of an entry shows that someone other than the program has changed it, until the
index is written again: a write stamps all entries anew, those that were changed from
outside among them, whichever vault it was for.
-/

namespace MindMapVault
namespace Desktop

open Transition

/-- What the tag of an entry covers beside its id. -/
inductive CoveredField
  | titleEncrypted
  | ephClassicalPublic
  | ephPqCiphertext
  | wrappedDek
  deriving DecidableEq

def coveredFields : List CoveredField :=
  [.titleEncrypted, .ephClassicalPublic, .ephPqCiphertext, .wrappedDek]

def LocalVaultMeta.covered (vault : LocalVaultMeta) : CoveredField → String
  | .titleEncrypted => vault.titleEncrypted
  | .ephClassicalPublic => vault.ephClassicalPublic
  | .ephPqCiphertext => vault.ephPqCiphertext
  | .wrappedDek => vault.wrappedDek

/-- The new value that an update has for a field. -/
def LocalVaultUpdate.covered (update : LocalVaultUpdate) : CoveredField → Option String
  | .titleEncrypted => update.titleEncrypted
  | .ephClassicalPublic => update.ephClassicalPublic
  | .ephPqCiphertext => update.ephPqCiphertext
  | .wrappedDek => update.wrappedDek

/-- The index file, and the fields of entries that were edited from outside and to which
the program has given no new value since. -/
structure GuardedIndex where
  file : File VaultIndex
  edited : List (String × CoveredField)
  deriving DecidableEq

/-- What happens to the index: someone edits the file, or a command runs, whose write may
fail. -/
inductive IndexMove
  | edit (after : File VaultIndex)
  | run (command : IndexCommand) (written : Bool)

/-- The covered fields of an entry that an edit changes; all of them if it changes the
entry, but none of them. -/
def editedFields (before after : Option LocalVaultMeta) : List CoveredField :=
  let changed := coveredFields.filter fun field =>
    decide (before.map (·.covered field) ≠ after.map (·.covered field))
  if before = after then [] else if changed = [] then coveredFields else changed

/-- What an edit leaves different from what was there. -/
def changedEntries (before after : File VaultIndex) : List (String × CoveredField) :=
  ((readIndex after).toOption.elim [] VaultIndex.ids).flatMap fun id =>
    (editedFields (before.listed? id) (after.listed? id)).map fun field => (id, field)

/-- A command gives a field of an entry a new value. -/
def IndexCommand.rewrites (id : String) (field : CoveredField) : IndexCommand → Bool
  | .updateLocalVaultMeta target update _ =>
      decide (target = id) && (update.covered field).isSome
  | .applyLocalPasswordRotation updatedVaults =>
      decide (field = .titleEncrypted) && updatedVaults.any fun entry => decide (entry.id = id)
  | .saveLocalVault .. | .importVaultFile .. | .saveLocalVaultBlob ..
  | .deleteLocalVault _ => false

/-- The index a command would write. -/
def GuardedIndex.attempt (guarded : GuardedIndex) (command : IndexCommand) :
    Except LocalStoreError VaultIndex := do
  let index ← readIndex guarded.file
  command.run index

/-- No entry has had the id. -/
def GuardedIndex.Unused (guarded : GuardedIndex) (id : String) : Prop :=
  guarded.file.listed? id = none ∧ id ∉ guarded.edited.map Prod.fst

instance (guarded : GuardedIndex) (id : String) : Decidable (guarded.Unused id) :=
  inferInstanceAs (Decidable (_ ∧ _))

/-- The index under commands and edits. An id is drawn that no entry has had. -/
def guardedIndex (mac : String → String) : System GuardedIndex IndexMove
  | guarded, .edit after =>
      some { file := after, edited := changedEntries guarded.file after ++ guarded.edited }
  | guarded, .run command written =>
      if ∀ id ∈ command.drawnId, guarded.Unused id then
        match guarded.attempt command with
        | .error _ => some guarded
        | .ok next =>
            if written then
              some
                { file := .holds (stampIndexForWrite mac next)
                  edited := guarded.edited.filter fun entry =>
                    !command.rewrites entry.1 entry.2 }
            else some guarded
      else none

/-- No entry with an edited field is reported as intact. -/
def NeverIntact (mac : String → String) (guarded : GuardedIndex) : Prop :=
  ∀ entry ∈ guarded.edited, verifyLocalVaultIntegrity mac guarded.file entry.1 ≠ .ok .ok

instance (mac : String → String) (guarded : GuardedIndex) :
    Decidable (NeverIntact mac guarded) :=
  inferInstanceAs (Decidable (∀ entry ∈ guarded.edited, _))

/-- An edit leaves no entry it changes, and none that was edited before, with a tag that
fits. A command writes the index only when the edited entries are gone from it, or when
it removes them or gives the edited fields new values. -/
def Spared (mac : String → String) (guarded : GuardedIndex) : IndexMove → Prop
  | .edit after =>
      ∀ entry ∈ changedEntries guarded.file after ++ guarded.edited,
        ∀ vault ∈ after.listed? entry.1, ¬ TagFits mac vault
  | .run command written =>
      written = true → (guarded.attempt command).toOption.isSome = true →
        ∀ entry ∈ guarded.edited, (guarded.file.listed? entry.1).isSome = true →
          command.rewrites entry.1 entry.2 = true ∨ command = .deleteLocalVault entry.1

/-- Whoever has no key changes what a tag covers and cannot make it fit. -/
theorem not_tagFits_of_edited {mac : String → String} (collisionFree : Function.Injective mac)
    {vault edited : LocalVaultMeta} (fits : TagFits mac vault)
    (sameTag : edited.entryMac = vault.entryMac)
    (covered : computeEntryMac id edited ≠ computeEntryMac id vault) :
    ¬ TagFits mac edited := by
  intro stillFits
  have sameMac : computeEntryMac mac edited = computeEntryMac mac vault :=
    Option.some.inj (stillFits.symm.trans (sameTag.trans fits))
  exact covered (collisionFree sameMac)

/-- What is written is found stamped. -/
theorem listed?_written (mac : String → String) (index : VaultIndex) (id : String) :
    (∃ vault ∈ (File.holds (stampIndexForWrite mac index)).listed? id,
        TagFits mac vault) ↔ id ∈ index.ids := by
  have read : (File.holds (stampIndexForWrite mac index)).listed? id =
      (stampIndexForWrite mac index).find? id := rfl
  rw [read, find?_stampIndexForWrite, ← isSome_find?_iff]
  cases index.find? id with
  | none => simp
  | some vault =>
      simp only [Option.map_some, Option.mem_def, Option.some.injEq, exists_eq_left',
        Option.isSome_some, iff_true]
      rfl

/-- After a command that wrote the index an edited entry is reported as intact exactly if
it is still listed and an edited field of it was given no new value. -/
theorem neverIntact_written_iff
    {mac : String → String} {guarded : GuardedIndex} {command : IndexCommand}
    {next : VaultIndex} (fresh : ∀ id ∈ command.drawnId, guarded.Unused id)
    (attempted : guarded.attempt command = .ok next) :
    NeverIntact mac
        { file := .holds (stampIndexForWrite mac next)
          edited := guarded.edited.filter fun entry => !command.rewrites entry.1 entry.2 } ↔
      ∀ entry ∈ guarded.edited, (guarded.file.listed? entry.1).isSome = true →
        command.rewrites entry.1 entry.2 = true ∨ command = .deleteLocalVault entry.1 := by
  obtain ⟨index, listed, ran⟩ := Result.bind_eq_ok.mp attempted
  have found : ∀ id, (guarded.file.listed? id).isSome = true ↔ id ∈ index.ids := by
    intro id
    rw [← isSome_find?_iff, File.listed?, listed]
    rfl
  have notDrawn : ∀ entry ∈ guarded.edited, command.drawnId ≠ some entry.1 :=
    fun entry edited drawn => (fresh entry.1 drawn).2 (List.mem_map_of_mem edited)
  simp only [NeverIntact, List.mem_filter, Bool.not_eq_true', ne_eq,
    verifyLocalVaultIntegrity_eq_ok, listed?_written, found, mem_ids_run ran]
  constructor
  · intro never entry edited stillListed
    by_cases rewritten : command.rewrites entry.1 entry.2 = true
    · exact .inl rewritten
    · refine .inr (not_not.mp fun stays => ?_)
      exact never entry ⟨edited, Bool.not_eq_true _ ▸ rewritten⟩ (.inl ⟨stillListed, stays⟩)
  · rintro spared entry ⟨edited, kept⟩ (⟨stillListed, stays⟩ | drawn)
    · rcases spared entry edited stillListed with rewritten | removed
      · rw [kept] at rewritten
        contradiction
      · exact stays removed
    · exact notDrawn entry edited drawn

/-- After one step no edited entry is reported as intact exactly if the step spares them.
-/
theorem neverIntact_step_iff (mac : String → String) (guarded : GuardedIndex) (move : IndexMove)
    (next : GuardedIndex) (never : NeverIntact mac guarded)
    (moved : guardedIndex mac guarded move = some next) :
    NeverIntact mac next ↔ Spared mac guarded move := by
  cases move with
  | edit after =>
      cases moved
      simp only [NeverIntact, Spared, ne_eq, verifyLocalVaultIntegrity_eq_ok, not_exists, not_and]
  | run command written =>
      by_cases fresh : ∀ id ∈ command.drawnId, guarded.Unused id
      · simp only [guardedIndex, if_pos fresh] at moved
        cases attempted : guarded.attempt command with
        | error error =>
            simp only [attempted] at moved
            cases moved
            refine iff_of_true never fun _ accepted => ?_
            simp [attempted, Except.toOption] at accepted
        | ok index =>
            cases written with
            | false =>
                simp only [attempted] at moved
                cases moved
                exact iff_of_true never fun wrote => by simp at wrote
            | true =>
                simp only [attempted, if_true] at moved
                cases moved
                rw [neverIntact_written_iff fresh attempted]
                simp only [Spared, attempted, Except.toOption, Option.isSome_some, true_implies]
      · simp only [guardedIndex, if_neg fresh] at moved
        contradiction

/-- No edited entry is ever reported as intact, in any state of a run, exactly if every
step of the run spares the edited entries. -/
theorem neverIntact_iff_spared
    (mac : String → String) (file : File VaultIndex) (moves : List IndexMove) :
    EveryState (guardedIndex mac) (NeverIntact mac) ⟨file, []⟩ moves ↔
      EveryStepAllowed (guardedIndex mac) (Spared mac) ⟨file, []⟩ moves :=
  everyState_iff_everyStepAllowed
    (fun _ never => never)
    (fun guarded move next never moved =>
      neverIntact_step_iff mac guarded move next never moved)
    (fun _ _ _ _ _ never => never)
    (fun _ noneEdited => absurd noneEdited List.not_mem_nil)
    moves

section Samples

/-- An entry with this id and title, stamped. -/
def stampedVault (id titleEncrypted : String) : LocalVaultMeta :=
  let vault : LocalVaultMeta :=
    { id := id
      titleEncrypted := titleEncrypted
      ephClassicalPublic := "classical"
      ephPqCiphertext := "pq"
      wrappedDek := "dek"
      vaultColor := none
      vaultNoteEncrypted := none
      vaultSharingMode := "private"
      vaultEncryptionMode := "standard"
      maxVersions := 50
      createdAt := "2025-01-01"
      updatedAt := "2025-01-01"
      entryMac := none }
  { vault with entryMac := some (computeEntryMac (·) vault) }

/-- Someone changes the title of one vault, and the blob of another is saved: the write
of the index gives the changed entry a tag that fits. -/
theorem other_vault_save_hides_edit :
    ¬ ∀ (mac : String → String) (file : File VaultIndex) (moves : List IndexMove),
      EveryState (guardedIndex mac) (NeverIntact mac) ⟨file, []⟩ moves := by
  intro always
  have holds := always (·) (.holds ⟨[stampedVault "v" "title", stampedVault "w" "other"]⟩)
    [.edit (.holds
        ⟨[{ stampedVault "v" "title" with titleEncrypted := "forged" }, stampedVault "w" "other"]⟩),
      .run (.saveLocalVaultBlob "w" "2025-02-02") true]
  revert holds
  decide

end Samples

end Desktop
end MindMapVault
