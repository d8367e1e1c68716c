import MindMapVault.Accounts.Rotation
import Mathlib.Data.List.Induction

/-!
# What a committed rotation has done

A rotation that commits has run every statement, so its effect is that of the
writes folded over the bundle. Folded over one row they amount to the last entry
of its id, and the coverage checks say which rows have one. Everything a client
can see in the manifest is what the checks require.
-/

namespace MindMapVault
namespace Accounts

open Result
open Vault (StoredMindMap)

/-- The writes of a rotation, in order. -/
def writeBundle (db : Database) (userId : String)
    (update : RotateCredentialsUpdate) (newAuthHash : String) : Database :=
  update.updatedAttachments.foldl (writeAttachment userId)
    (update.updatedVaults.foldl (writeVault userId) (writeUser db userId update newAuthHash))

theorem foldl_zipIdx {State Item : Type} (step : State → Item → State)
    (items : List Item) (start : State) :
    items.zipIdx.foldl (fun state item => step state item.1) start = items.foldl step start := by
  conv_rhs => rw [← List.zipIdx_map_fst 0 items, List.foldl_map]

/-- The bundle passes every check of the transaction. -/
structure Accepted
    (db : Database) (userId : String) (update : RotateCredentialsUpdate)
    (user : StoredUser) : Prop where
  found : db.users.find? userId = some user
  version : checkKeyVersion user update = .ok ()
  vaults : checkVaults (ownedVaults db userId) update = .ok ()
  attachments : checkAttachments (rotationAttachments db userId) update = .ok ()

/-- A transaction that commits was accepted and has written the bundle. -/
theorem rotationTransaction_eq_ok {driver : Driver} {db committed : Database} {userId : String}
    {update : RotateCredentialsUpdate} {newAuthHash : String}
    (done : rotationTransaction driver db userId update newAuthHash = .ok committed) :
    (∃ user, Accepted db userId update user) ∧
      committed = writeBundle db userId update newAuthHash := by
  unfold rotationTransaction at done
  obtain ⟨_, _, done⟩ := bind_eq_ok.mp done
  obtain ⟨_, _, done⟩ := bind_eq_ok.mp done
  obtain ⟨user, loaded, done⟩ := bind_eq_ok.mp done
  obtain ⟨_, version, done⟩ := bind_eq_ok.mp done
  obtain ⟨_, _, done⟩ := bind_eq_ok.mp done
  obtain ⟨_, vaults, done⟩ := bind_eq_ok.mp done
  obtain ⟨_, _, done⟩ := bind_eq_ok.mp done
  obtain ⟨_, attachments, done⟩ := bind_eq_ok.mp done
  obtain ⟨_, _, done⟩ := bind_eq_ok.mp done
  obtain ⟨withVaults, vaultWrites, done⟩ := bind_eq_ok.mp done
  obtain ⟨withAttachments, attachmentWrites, done⟩ := bind_eq_ok.mp done
  obtain ⟨_, _, done⟩ := bind_eq_ok.mp done
  refine ⟨⟨user, findUser_eq_ok.mp loaded, version, vaults, attachments⟩, ?_⟩
  have vaultFold := (foldlM_eq_ok
    (fun item : RotateVaultEntry × Nat => driver (.updateVault item.2))
    (fun db item => writeVault userId db item.1) _).mp vaultWrites
  have attachmentFold := (foldlM_eq_ok
    (fun item : RotateAttachmentEntry × Nat => driver (.updateAttachment item.2))
    (fun db item => writeAttachment userId db item.1) _).mp attachmentWrites
  rw [← Except.ok.inj done, ← attachmentFold.2, ← vaultFold.2, foldl_zipIdx, foldl_zipIdx]
  rfl

/-- A rotation that succeeds was accepted and has written the bundle. -/
theorem rotateUserCredentials_eq_ok {hashToken : String → Except AppError String} {driver : Driver}
    {db committed : Database} {userId : String} {update : RotateCredentialsUpdate}
    (done : rotateUserCredentials hashToken driver db userId update = (.ok (), committed)) :
    ∃ newAuthHash, hashToken update.newAuthToken = .ok newAuthHash ∧
      (∃ user, Accepted db userId update user) ∧
        committed = writeBundle db userId update newAuthHash := by
  unfold rotateUserCredentials at done
  cases hashed : hashToken update.newAuthToken with
  | error error => simp [hashed] at done
  | ok newAuthHash =>
      cases run : rotationTransaction driver db userId update newAuthHash with
      | error error => simp [hashed, run] at done
      | ok after =>
          simp only [hashed, run, Prod.mk.injEq, true_and] at done
          subst done
          exact ⟨newAuthHash, rfl, rotationTransaction_eq_ok run⟩

section Checks

variable {update : RotateCredentialsUpdate}

theorem checkKeyVersion_eq_ok {user : StoredUser} :
    checkKeyVersion user update = .ok () ↔ update.newKeyVersion = user.keyVersion + 1 := by
  rw [checkKeyVersion, refuse_eq_ok]
  simp

/-- The vault check accepts the bundles that name exactly the user's vaults and
leave no note behind. -/
theorem checkVaults_eq_ok {rows : List StoredMindMap} :
    checkVaults rows update = .ok () ↔
      (∀ id, id ∈ rows.map StoredMindMap.id ↔ id ∈ update.updatedVaults.map RotateVaultEntry.id) ∧
      ∀ row ∈ rows, hasNote row = true → carriesNote update.updatedVaults row.id = true := by
  rw [checkVaults, refuse_eq_ok, refuse_eq_ok, refuse_eq_ok,
    Nat.not_lt, Nat.not_lt, Nat.not_lt, Nat.le_zero, Nat.le_zero, Nat.le_zero,
    differenceCount_eq_zero, differenceCount_eq_zero, List.length_eq_zero_iff,
    List.filter_eq_nil_iff]
  constructor
  · rintro ⟨missing, unknown, stranded, _⟩
    refine ⟨fun id => ⟨missing id, unknown id⟩, fun row present noted => ?_⟩
    simpa [noted] using stranded row present
  · rintro ⟨sameIds, notes⟩
    refine ⟨fun id => (sameIds id).mp, fun id => (sameIds id).mpr, ?_, rfl⟩
    intro row present
    cases noted : hasNote row with
    | false => simp
    | true => simp [notes row present noted]

/-- The attachment check accepts the bundles that name exactly the attachments
with a wrapped key. -/
theorem checkAttachments_eq_ok {rows : List StoredMindMapAttachment} :
    checkAttachments rows update = .ok () ↔
      ∀ id, id ∈ rows.map StoredMindMapAttachment.id ↔
        id ∈ update.updatedAttachments.map RotateAttachmentEntry.id := by
  rw [checkAttachments, refuse_eq_ok, refuse_eq_ok, Nat.not_lt,
    Nat.not_lt, Nat.le_zero, Nat.le_zero, differenceCount_eq_zero,
    differenceCount_eq_zero]
  constructor
  · rintro ⟨missing, unknown, _⟩
    exact fun id => ⟨missing id, unknown id⟩
  · intro sameIds
    exact ⟨fun id => (sameIds id).mp, fun id => (sameIds id).mpr, rfl⟩

end Checks

/-- Of the entries of one id, the last one added counts. -/
theorem lastEntry_append
    (entries : List RotateVaultEntry) (entry : RotateVaultEntry) (id : String) :
    lastEntry (entries ++ [entry]) id =
      if entry.id = id then some entry else lastEntry entries id := by
  simp only [lastEntry, List.reverse_append, List.reverse_singleton,
    List.singleton_append, List.find?_cons]
  by_cases same : entry.id = id <;> simp [same]

theorem lastEntry_eq_some {entries : List RotateVaultEntry} {id : String} {entry : RotateVaultEntry}
    (found : lastEntry entries id = some entry) :
    entry ∈ entries ∧ entry.id = id :=
  ⟨by simpa using List.mem_of_find?_eq_some found, by simpa using List.find?_some found⟩

theorem lastEntry_isSome {entries : List RotateVaultEntry} {id : String}
    (named : id ∈ entries.map RotateVaultEntry.id) :
    ∃ entry, lastEntry entries id = some entry := by
  obtain ⟨entry, present, same⟩ := List.mem_map.mp named
  cases found : lastEntry entries id with
  | some last => exact ⟨last, rfl⟩
  | none =>
      have differs := List.find?_eq_none.mp found entry (by simpa using present)
      simp [same] at differs

section Vaults

variable (userId : String)

/-- What one statement does to one vault. -/
def vaultStep (map : StoredMindMap) (entry : RotateVaultEntry) : StoredMindMap :=
  if map.id == entry.id && map.userId == userId then rotateVault entry map else map

theorem find?_writeVault (db : Database) (entry : RotateVaultEntry) (id : String) :
    (writeVault userId db entry).mindMaps.find? id =
      (db.mindMaps.find? id).map fun map => vaultStep userId map entry :=
  Table.find?_update db.mindMaps _ (rotateVault entry) (fun _ => rfl) id

theorem find?_foldl_writeVault (entries : List RotateVaultEntry) (db : Database) (id : String) :
    (entries.foldl (writeVault userId) db).mindMaps.find? id =
      (db.mindMaps.find? id).map fun map => entries.foldl (vaultStep userId) map := by
  induction entries generalizing db with
  | nil => simp
  | cons entry entries ih =>
      rw [List.foldl_cons, ih, find?_writeVault, Option.map_map]
      rfl

/-- Nothing but vaults changes in the vault statements. -/
theorem foldl_writeVault_frame (entries : List RotateVaultEntry) (db : Database) :
    (entries.foldl (writeVault userId) db).users = db.users ∧
      (entries.foldl (writeVault userId) db).attachments = db.attachments ∧
        (entries.foldl (writeVault userId) db).unlockMethods = db.unlockMethods := by
  induction entries generalizing db with
  | nil => exact ⟨rfl, rfl, rfl⟩
  | cons entry entries ih =>
      exact ih (writeVault userId db entry)

/-- The columns the statements can touch are the title and the note. -/
theorem foldl_vaultStep_shape (entries : List RotateVaultEntry) (map : StoredMindMap) :
    ∃ title note, entries.foldl (vaultStep userId) map =
      { map with titleEncrypted := title, vaultNoteEncrypted := note } := by
  induction entries generalizing map with
  | nil => exact ⟨map.titleEncrypted, map.vaultNoteEncrypted, rfl⟩
  | cons entry entries ih =>
      obtain ⟨title, note, folded⟩ := ih (vaultStep userId map entry)
      rw [List.foldl_cons, folded, vaultStep]
      split_ifs
      · exact ⟨title, note, rfl⟩
      · exact ⟨title, note, rfl⟩

/-- A vault of another user is left alone. -/
theorem foldl_vaultStep_other {map : StoredMindMap} (other : map.userId ≠ userId)
    (entries : List RotateVaultEntry) :
    entries.foldl (vaultStep userId) map = map := by
  induction entries with
  | nil => rfl
  | cons entry entries ih =>
      have skipped : vaultStep userId map entry = map := by
        simp [vaultStep, other]
      rw [List.foldl_cons, skipped, ih]

/-- Folded over a vault, the statements leave the title and the note of its last
entry. -/
theorem foldl_vaultStep {map : StoredMindMap} (owned : map.userId = userId)
    (entries : List RotateVaultEntry) {entry : RotateVaultEntry}
    (found : lastEntry entries map.id = some entry) :
    ∃ note, entries.foldl (vaultStep userId) map =
        { map with
          titleEncrypted := entry.titleEncrypted
          vaultNoteEncrypted := note } ∧
      ∀ text, entry.vaultNoteEncrypted = some text → text ≠ "" → note = some text := by
  induction entries using List.reverseRecOn with
  | nil => simp [lastEntry] at found
  | append_singleton earlier last ih =>
      rw [lastEntry_append] at found
      rw [List.foldl_append, List.foldl_cons, List.foldl_nil]
      split_ifs at found with same
      · cases Option.some.inj found
        obtain ⟨title, note, folded⟩ := foldl_vaultStep_shape userId earlier map
        rw [folded]
        have matched : vaultStep userId
            { map with titleEncrypted := title, vaultNoteEncrypted := note } entry =
            rotateVault entry { map with titleEncrypted := title, vaultNoteEncrypted := note } := by
          simp [vaultStep, same, owned]
        refine ⟨_, matched, ?_⟩
        intro text carried nonempty
        simp [carried, nonempty]
      · obtain ⟨note, folded, carried⟩ := ih found
        refine ⟨note, ?_, carried⟩
        rw [folded]
        have skipped : map.id ≠ last.id := Ne.symm same
        simp [vaultStep, skipped]

/-- Folded over a vault, the statements leave its note or one of its entries'. -/
theorem foldl_vaultStep_note (entries : List RotateVaultEntry) (map : StoredMindMap) :
    (entries.foldl (vaultStep userId) map).vaultNoteEncrypted =
        map.vaultNoteEncrypted ∨
      ∃ entry ∈ entries, entry.id = map.id ∧
        (entries.foldl (vaultStep userId) map).vaultNoteEncrypted =
          entry.vaultNoteEncrypted.filter (· ≠ "") := by
  induction entries generalizing map with
  | nil => exact .inl rfl
  | cons entry entries ih =>
      have sameId : (vaultStep userId map entry).id = map.id := by
        rw [vaultStep]
        split_ifs <;> rfl
      rw [List.foldl_cons]
      rcases ih (vaultStep userId map entry) with
        kept | ⟨later, present, named, set⟩
      · rw [kept, vaultStep]
        split_ifs with matched
        · simp only [rotateVault]
          split_ifs
          · rw [Bool.and_eq_true, beq_iff_eq] at matched
            exact .inr ⟨entry, List.mem_cons_self, matched.1.symm, rfl⟩
          · exact .inl rfl
        · exact .inl rfl
      · exact .inr ⟨later, List.mem_cons_of_mem _ present, named.trans sameId, set⟩

end Vaults

section Attachments

variable (userId : String)

/-- What one statement does to one attachment. -/
def attachmentStep (owned : StoredMindMapAttachment → Bool)
    (attachment : StoredMindMapAttachment) (entry : RotateAttachmentEntry) :
    StoredMindMapAttachment :=
  if attachment.id == entry.id && owned attachment then
    attachment.rewrap entry
  else
    attachment

theorem find?_writeAttachment (db : Database) (entry : RotateAttachmentEntry) (id : String) :
    (writeAttachment userId db entry).attachments.find? id =
      (db.attachments.find? id).map fun attachment =>
        attachmentStep (db.ownsAttachment userId) attachment entry :=
  Table.find?_update db.attachments _ (.rewrap entry) (fun _ => rfl) id

theorem find?_foldl_writeAttachment
    (entries : List RotateAttachmentEntry) (db : Database) (id : String) :
    (entries.foldl (writeAttachment userId) db).attachments.find? id =
      (db.attachments.find? id).map fun attachment =>
        entries.foldl (attachmentStep (db.ownsAttachment userId)) attachment := by
  induction entries generalizing db with
  | nil => simp
  | cons entry entries ih =>
      rw [List.foldl_cons, ih, find?_writeAttachment, Option.map_map]
      rfl

/-- Nothing but attachments changes in the attachment statements. -/
theorem foldl_writeAttachment_frame (entries : List RotateAttachmentEntry) (db : Database) :
    (entries.foldl (writeAttachment userId) db).users = db.users ∧
      (entries.foldl (writeAttachment userId) db).mindMaps = db.mindMaps ∧
        (entries.foldl (writeAttachment userId) db).unlockMethods = db.unlockMethods := by
  induction entries generalizing db with
  | nil => exact ⟨rfl, rfl, rfl⟩
  | cons entry entries ih =>
      exact ih (writeAttachment userId db entry)

/-- An attachment that no entry names is left alone. -/
theorem foldl_attachmentStep_unnamed {owned : StoredMindMapAttachment → Bool}
    {attachment : StoredMindMapAttachment} {entries : List RotateAttachmentEntry}
    (unnamed : attachment.id ∉ entries.map RotateAttachmentEntry.id) :
    entries.foldl (attachmentStep owned) attachment = attachment := by
  induction entries with
  | nil => rfl
  | cons entry entries ih =>
      rw [List.map_cons, List.mem_cons, not_or] at unnamed
      have skipped : attachmentStep owned attachment entry = attachment := by
        simp [attachmentStep, unnamed.1]
      rw [List.foldl_cons, skipped, ih unnamed.2]

/-- The stored metadata with the file key wrapped as an entry says. -/
def Rewrapped (stored : Json) (wrappedKeyB64 : String) (rewrapped : Json) : Prop :=
  rewrapped.isObject = true ∧
    ∀ key, rewrapped.get? key = ((rewrappedKey wrappedKeyB64).get? key).or (stored.get? key)

/-- Wrapping again replaces the earlier wrap. -/
theorem Rewrapped.again {stored first : Json} {earlier later : String}
    (rewrapped : Rewrapped stored earlier first) :
    Rewrapped stored later (first.concat (rewrappedKey later)) := by
  refine ⟨Json.isObject_concat rewrapped.1 rfl, fun key => ?_⟩
  rw [Json.get?_concat rewrapped.1 rfl, rewrapped.2]
  by_cases wrapped : key = "wrapped_key_b64"
  · subst wrapped
    rfl
  by_cases wrap : key = "key_wrap"
  · subst wrap
    rfl
  have elsewhere (text : String) : (rewrappedKey text).get? key = none := by
    simp [rewrappedKey, Json.get?, List.lookup_cons,
      beq_eq_false_iff_ne.mpr wrapped, beq_eq_false_iff_ne.mpr wrap]
  rw [elsewhere, elsewhere, Option.none_or]

/-- Folded over an attachment that some entry names, the statements leave its
file key wrapped as one of its entries says. -/
theorem foldl_attachmentStep {owned : StoredMindMapAttachment → Bool}
    (column : ∀ attachment document,
      owned { attachment with encryptionMeta := document } = owned attachment)
    {attachment : StoredMindMapAttachment} (mine : owned attachment = true)
    {stored : Json} (metadata : attachment.encryptionMeta = some stored)
    {entries : List RotateAttachmentEntry}
    (named : attachment.id ∈ entries.map RotateAttachmentEntry.id) :
    ∃ entry ∈ entries, entry.id = attachment.id ∧
      ∃ rewrapped, entries.foldl (attachmentStep owned) attachment =
          { attachment with encryptionMeta := some rewrapped } ∧
        (stored.isObject = true → Rewrapped stored entry.wrappedKeyB64 rewrapped) := by
  induction entries using List.reverseRecOn with
  | nil => simp at named
  | append_singleton earlier last ih =>
      rw [List.foldl_append, List.foldl_cons, List.foldl_nil]
      by_cases before : attachment.id ∈ earlier.map RotateAttachmentEntry.id
      · obtain ⟨entry, present, same, rewrapped, folded, wrapped⟩ :=
          ih before
        rw [folded]
        by_cases names : attachment.id = last.id
        · refine ⟨last, by simp, names.symm,
            rewrapped.concat (rewrappedKey last.wrappedKeyB64), ?_, ?_⟩
          · have named := beq_iff_eq.mpr names
            simp only [attachmentStep, named, column, mine, Bool.and_self,
              if_true, StoredMindMapAttachment.rewrap, Option.map_some]
          · exact fun object => (wrapped object).again
        · refine ⟨entry, List.mem_append_left _ present, same, rewrapped, ?_, wrapped⟩
          simp [attachmentStep, names]
      · have names : attachment.id = last.id := by
          simpa [before] using named
        rw [foldl_attachmentStep_unnamed before]
        refine ⟨last, by simp, names.symm, stored.concat (rewrappedKey last.wrappedKeyB64), ?_, ?_⟩
        · have named := beq_iff_eq.mpr names
          simp only [attachmentStep, named, mine, Bool.and_self, if_true,
            StoredMindMapAttachment.rewrap, metadata, Option.map_some]
        · intro object
          exact ⟨Json.isObject_concat object rfl, fun key => Json.get?_concat object rfl key⟩

end Attachments

/-- What a committed rotation has done to the database. -/
structure Rotated
    (db : Database) (userId : String) (update : RotateCredentialsUpdate)
    (newAuthHash : String) (rotated : Database) : Prop where
  user : ∃ user, db.users.find? userId = some user ∧
    rotated.users.find? userId = some
      { user with
        authHash := newAuthHash
        argon2Salt := update.newArgon2Salt
        argon2Params := update.newArgon2Params
        classicalPrivEncrypted := update.newClassicalPrivEncrypted
        pqPrivEncrypted := update.newPqPrivEncrypted
        keyVersion := user.keyVersion + 1 }
  otherUsers : ∀ other, other ≠ userId → rotated.users.find? other = db.users.find? other
  vaults : ∀ map ∈ db.mindMaps.rows, map.userId = userId →
    ∃ entry ∈ update.updatedVaults, entry.id = map.id ∧
      ∃ note, rotated.mindMaps.find? map.id = some
          { map with
            titleEncrypted := entry.titleEncrypted
            vaultNoteEncrypted := note } ∧
        (hasNote map = true → entry.vaultNoteEncrypted = note ∧
          ∃ text, note = some text ∧ text ≠ "")
  otherVaults : ∀ map ∈ db.mindMaps.rows, map.userId ≠ userId →
    rotated.mindMaps.find? map.id = some map
  attachments : ∀ attachment ∈ db.attachments.rows,
    db.ownsAttachment userId attachment = true →
    attachment.needsRotation = true →
      ∃ entry ∈ update.updatedAttachments, entry.id = attachment.id ∧
        ∃ stored rewrapped, attachment.encryptionMeta = some stored ∧
          rotated.attachments.find? attachment.id = some
            { attachment with encryptionMeta := some rewrapped } ∧
          (stored.isObject = true → Rewrapped stored entry.wrappedKeyB64 rewrapped)
  otherAttachments : ∀ attachment ∈ db.attachments.rows,
    ¬ (db.ownsAttachment userId attachment = true ∧
        attachment.needsRotation = true) →
      rotated.attachments.find? attachment.id = some attachment
  userKeys : rotated.users.rows.map StoredUser.id = db.users.rows.map StoredUser.id
  vaultKeys : rotated.mindMaps.rows.map StoredMindMap.id = db.mindMaps.rows.map StoredMindMap.id
  attachmentKeys : rotated.attachments.rows.map StoredMindMapAttachment.id =
    db.attachments.rows.map StoredMindMapAttachment.id
  unlockMethods : rotated.unlockMethods = db.unlockMethods

section Write

variable {db : Database} {userId : String} {update : RotateCredentialsUpdate}
variable {newAuthHash : String}

theorem foldl_writeVault_keys (entries : List RotateVaultEntry) (db : Database) :
    (entries.foldl (writeVault userId) db).mindMaps.rows.map StoredMindMap.id =
      db.mindMaps.rows.map StoredMindMap.id := by
  induction entries generalizing db with
  | nil => rfl
  | cons entry entries ih =>
      rw [List.foldl_cons, ih]
      exact Table.keys_update db.mindMaps _ (rotateVault entry) (fun _ => rfl)

theorem foldl_writeAttachment_keys (entries : List RotateAttachmentEntry) (db : Database) :
    (entries.foldl (writeAttachment userId) db).attachments.rows.map
        StoredMindMapAttachment.id =
      db.attachments.rows.map StoredMindMapAttachment.id := by
  induction entries generalizing db with
  | nil => rfl
  | cons entry entries ih =>
      rw [List.foldl_cons, ih]
      exact Table.keys_update db.attachments _ (.rewrap entry) (fun _ => rfl)

@[simp] theorem writeBundle_users :
    (writeBundle db userId update newAuthHash).users =
      (writeUser db userId update newAuthHash).users := by
  rw [writeBundle, (foldl_writeAttachment_frame userId _ _).1,
    (foldl_writeVault_frame userId _ _).1]

@[simp] theorem writeBundle_unlockMethods :
    (writeBundle db userId update newAuthHash).unlockMethods = db.unlockMethods := by
  rw [writeBundle, (foldl_writeAttachment_frame userId _ _).2.2,
    (foldl_writeVault_frame userId _ _).2.2]
  rfl

theorem writeBundle_vault (id : String) :
    (writeBundle db userId update newAuthHash).mindMaps.find? id =
      (db.mindMaps.find? id).map fun map =>
        update.updatedVaults.foldl (vaultStep userId) map := by
  rw [writeBundle, (foldl_writeAttachment_frame userId _ _).2.1, find?_foldl_writeVault]
  rfl

/-- Rotating vaults changes no owner of an attachment. -/
theorem ownsAttachment_foldl_writeVault (entries : List RotateVaultEntry) (db : Database) :
    (entries.foldl (writeVault userId) db).ownsAttachment userId = db.ownsAttachment userId := by
  induction entries generalizing db with
  | nil => rfl
  | cons entry entries ih =>
      rw [List.foldl_cons, ih]
      funext attachment
      simp only [Database.ownsAttachment, writeVault, Table.update, List.any_map]
      congr 1
      funext map
      simp only [Function.comp_apply]
      split_ifs <;> rfl

theorem writeBundle_attachment (id : String) :
    (writeBundle db userId update newAuthHash).attachments.find? id =
      (db.attachments.find? id).map fun attachment =>
        update.updatedAttachments.foldl (attachmentStep (db.ownsAttachment userId)) attachment := by
  rw [writeBundle, find?_foldl_writeAttachment, ownsAttachment_foldl_writeVault,
    (foldl_writeVault_frame userId _ _).2.1]
  rfl

theorem writeBundle_user (id : String) :
    (writeBundle db userId update newAuthHash).users.find? id =
      (db.users.find? id).map fun user =>
        if user.id == userId then user.rotate update newAuthHash else user := by
  rw [writeBundle_users]
  exact Table.find?_update db.users _ (StoredUser.rotate update newAuthHash) (fun _ => rfl) id

/-- Writing an accepted bundle rotates the account. -/
theorem Accepted.rotated {user : StoredUser} (accepted : Accepted db userId update user) :
    Rotated db userId update newAuthHash (writeBundle db userId update newAuthHash) := by
  have version := checkKeyVersion_eq_ok.mp accepted.version
  obtain ⟨sameVaults, notes⟩ := checkVaults_eq_ok.mp accepted.vaults
  have sameAttachments := checkAttachments_eq_ok.mp accepted.attachments
  constructor
  case user =>
    refine ⟨user, accepted.found, ?_⟩
    have mine := (Table.find?_eq_some.mp accepted.found).2
    rw [writeBundle_user, accepted.found, Option.map_some, if_pos (beq_iff_eq.mpr mine),
      StoredUser.rotate, version]
  case otherUsers =>
    intro other differs
    rw [writeBundle_user]
    cases stored : db.users.find? other with
    | none => rfl
    | some found =>
        have theirs := (Table.find?_eq_some.mp stored).2
        have elsewhere : ¬ (found.id == userId) = true := by
          simpa [theirs] using differs
        rw [Option.map_some, if_neg elsewhere]
  case vaults =>
    intro map present owned
    have listed : map ∈ ownedVaults db userId :=
      Table.mem_select.mpr ⟨present, beq_iff_eq.mpr owned⟩
    obtain ⟨entry, found⟩ := lastEntry_isSome ((sameVaults map.id).mp (List.mem_map_of_mem listed))
    obtain ⟨named, sameId⟩ := lastEntry_eq_some found
    obtain ⟨note, folded, carried⟩ := foldl_vaultStep userId owned update.updatedVaults found
    refine ⟨entry, named, sameId, note, ?_, ?_⟩
    · rw [writeBundle_vault, Table.find?_eq_some.mpr ⟨present, rfl⟩, Option.map_some, folded]
    · intro noted
      have carries := notes map listed noted
      rw [carriesNote, found, Option.bind_some] at carries
      cases given : entry.vaultNoteEncrypted with
      | none => simp [given] at carries
      | some text =>
          have nonempty : text ≠ "" := by simpa [given] using carries
          rw [carried text given nonempty]
          exact ⟨rfl, text, rfl, nonempty⟩
  case otherVaults =>
    intro map present other
    rw [writeBundle_vault, Table.find?_eq_some.mpr ⟨present, rfl⟩,
      Option.map_some, foldl_vaultStep_other userId other]
  case attachments =>
    intro attachment present owned needs
    have listed : attachment ∈ rotationAttachments db userId :=
      Table.mem_select.mpr ⟨present, by simp [owned, needs]⟩
    have named := (sameAttachments attachment.id).mp (List.mem_map_of_mem listed)
    cases metadata : attachment.encryptionMeta with
    | none => simp [StoredMindMapAttachment.needsRotation, metadata] at needs
    | some stored =>
        obtain ⟨entry, given, sameId, rewrapped, folded, wrapped⟩ :=
          foldl_attachmentStep (fun _ _ => rfl) owned metadata named
        refine ⟨entry, given, sameId, stored, rewrapped, rfl, ?_, wrapped⟩
        rw [writeBundle_attachment, Table.find?_eq_some.mpr ⟨present, rfl⟩, Option.map_some, folded]
  case otherAttachments =>
    intro attachment present excluded
    rw [writeBundle_attachment, Table.find?_eq_some.mpr ⟨present, rfl⟩,
      Option.map_some, foldl_attachmentStep_unnamed]
    intro named
    obtain ⟨listed, selected, sameId⟩ := List.mem_map.mp ((sameAttachments attachment.id).mpr named)
    obtain ⟨old, condition⟩ := Table.mem_select.mp selected
    rw [db.attachments.eq_of_key_eq old present sameId] at condition
    exact excluded (by simpa using condition)
  case userKeys =>
    rw [writeBundle_users]
    exact Table.keys_update db.users _ (StoredUser.rotate update newAuthHash) (fun _ => rfl)
  case vaultKeys =>
    rw [writeBundle, (foldl_writeAttachment_frame userId _ _).2.1, foldl_writeVault_keys]
    rfl
  case attachmentKeys =>
    rw [writeBundle, foldl_writeAttachment_keys, (foldl_writeVault_frame userId _ _).2.1]
    rfl
  case unlockMethods => exact writeBundle_unlockMethods

end Write

/-- The bundle names exactly the items of the manifest, with a note for every
vault that has one. -/
def Covers (update : RotateCredentialsUpdate) (manifest : RotationManifest) : Prop :=
  (∀ id, id ∈ manifest.vaults.map ManifestVault.id ↔
    id ∈ update.updatedVaults.map RotateVaultEntry.id) ∧
  (∀ id, id ∈ manifest.attachments.map ManifestAttachment.id ↔
    id ∈ update.updatedAttachments.map RotateAttachmentEntry.id) ∧
  ∀ vault ∈ manifest.vaults, ∀ note, vault.vaultNoteEncrypted = some note →
    note ≠ "" → carriesNote update.updatedVaults vault.id = true

/-- The manifest lists exactly what the rotation requires. -/
theorem covers_iff_checks {db : Database} {userId : String} {manifest : RotationManifest}
    (listed : rotationManifest db userId = .ok manifest) (update : RotateCredentialsUpdate) :
    Covers update manifest ↔
      checkVaults (ownedVaults db userId) update = .ok () ∧
        checkAttachments (rotationAttachments db userId) update = .ok () := by
  rw [rotationManifest] at listed
  cases found : findUser db userId with
  | error error => simp [found, Except.map] at listed
  | ok user =>
      simp only [found, Except.map, Except.ok.injEq] at listed
      subst listed
      rw [checkVaults_eq_ok, checkAttachments_eq_ok]
      have vaultIds (id : String) :
          id ∈ ((listMindMaps db userId).map fun map => ManifestVault.mk map.id
              map.titleEncrypted map.vaultNoteEncrypted).map ManifestVault.id ↔
            id ∈ (ownedVaults db userId).map StoredMindMap.id := by
        simp [listMindMaps, ownedVaults]
      have attachmentIds (id : String) :
          id ∈ ((listRotationAttachments db userId).map fun attachment =>
              ManifestAttachment.mk attachment.id attachment.mapId
                attachment.encryptionMeta).map ManifestAttachment.id ↔
            id ∈ (rotationAttachments db userId).map StoredMindMapAttachment.id := by
        simp [listRotationAttachments, rotationAttachments]
      simp only [Covers, vaultIds, attachmentIds]
      constructor
      · rintro ⟨vaults, attachments, notes⟩
        refine ⟨⟨vaults, fun row present noted => ?_⟩, attachments⟩
        cases stored : row.vaultNoteEncrypted with
        | none => simp [hasNote, stored] at noted
        | some note =>
            have nonempty : note ≠ "" := by simpa [hasNote, stored] using noted
            exact notes ⟨row.id, row.titleEncrypted, row.vaultNoteEncrypted⟩
              (List.mem_map.mpr ⟨row, List.mem_mergeSort.mpr present, rfl⟩)
              note stored nonempty
      · rintro ⟨⟨vaults, notes⟩, attachments⟩
        refine ⟨vaults, attachments, ?_⟩
        intro vault present note stored nonempty
        obtain ⟨row, sorted, rfl⟩ := List.mem_map.mp present
        change row.vaultNoteEncrypted = some note at stored
        have noted : hasNote row = true := by simp [hasNote, stored, nonempty]
        exact notes row (List.mem_mergeSort.mp sorted) noted

/-- A rotation fails and changes nothing, or commits and has done all of its
work; and what it requires of a bundle is what the manifest lists. -/
theorem rotateUserCredentials_spec (hashToken : String → Except AppError String)
    (driver : Driver) (db : Database) (userId : String) (update : RotateCredentialsUpdate) :
    ((∃ error, rotateUserCredentials hashToken driver db userId update =
        (.error error, db)) ∨
      ∃ newAuthHash rotated,
        hashToken update.newAuthToken = .ok newAuthHash ∧
          rotateUserCredentials hashToken driver db userId update = (.ok (), rotated) ∧
          Rotated db userId update newAuthHash rotated) ∧
    ∀ manifest, rotationManifest db userId = .ok manifest →
      (Covers update manifest ↔
        checkVaults (ownedVaults db userId) update = .ok () ∧
          checkAttachments (rotationAttachments db userId) update = .ok ()) := by
  refine ⟨?_, fun manifest listed => covers_iff_checks listed update⟩
  unfold rotateUserCredentials
  cases hashed : hashToken update.newAuthToken with
  | error error => exact .inl ⟨error, rfl⟩
  | ok newAuthHash =>
      cases run : rotationTransaction driver db userId update newAuthHash with
      | error error => exact .inl ⟨error, by simp only [run]⟩
      | ok committed =>
          obtain ⟨⟨user, accepted⟩, rfl⟩ := rotationTransaction_eq_ok run
          exact .inr ⟨newAuthHash, _, rfl, by simp only [run], accepted.rotated⟩

end Accounts
end MindMapVault
