import MindMapVault.Accounts.InFlight

/-!
# What a rotation leaves under the old master key

Every ciphertext was made under the master key of some key version. A rotation
that has returned should have left none that is older than its version, and none
should come later. The writes of a rotation see to that for the rows they name;
what slips through is a row they do not name, or a write that was prepared under
the old key and lands after the commit.
-/

namespace MindMapVault
namespace Accounts

open Transition Threads Result
open Vault (StoredMindMap UpsertMindMapRequest UpdateVaultMetaRequest)

/-- The note of a vault, if it is not empty. -/
def noteSecret (map : StoredMindMap) : Option String := map.vaultNoteEncrypted.filter (· ≠ "")

/-- What a vault holds under the master key. -/
def vaultSecrets (map : StoredMindMap) : List String :=
  map.titleEncrypted :: (noteSecret map).toList

/-- The wrapped file key in the metadata of an attachment. -/
def wrappedFileKey (document : Option Json) : Option String :=
  match document.bind (·.get? "wrapped_key_b64") with
  | some (.string wrapped) => some wrapped
  | _ => none

/-- What the rows of a user hold under the master key, trusted devices apart. -/
def storedSecrets (db : Database) (userId : String) : List String :=
  (ownedVaults db userId).flatMap vaultSecrets ++
    (db.attachments.select (db.ownsAttachment userId)).filterMap fun attachment =>
      wrappedFileKey attachment.encryptionMeta

/-- The copies of the master key the trusted devices of a user keep. -/
def unlockSecrets (db : Database) (userId : String) : List String :=
  (db.unlockMethods.select (·.userId == userId)).map UnlockMethod.wrappedMasterKey

theorem mem_storedSecrets {db : Database} {userId secret : String} :
    secret ∈ storedSecrets db userId ↔
      (∃ map ∈ db.mindMaps.rows, map.userId = userId ∧ secret ∈ vaultSecrets map) ∨
      ∃ attachment ∈ db.attachments.rows,
        db.ownsAttachment userId attachment = true ∧
          wrappedFileKey attachment.encryptionMeta = some secret := by
  simp only [storedSecrets, ownedVaults, List.mem_append, List.mem_flatMap,
    List.mem_filterMap, Table.mem_select, beq_iff_eq, and_assoc]

theorem mem_unlockSecrets {db : Database} {userId secret : String} :
    secret ∈ unlockSecrets db userId ↔
      ∃ method ∈ db.unlockMethods.rows, method.userId = userId ∧
        method.wrappedMasterKey = secret := by
  simp only [unlockSecrets, List.mem_map, Table.mem_select, beq_iff_eq, and_assoc]

/-- What a statement stores under the master key. -/
def WriteStatement.secrets : WriteStatement → List String
  | .insertMindMap map => vaultSecrets map
  | .updateContent _ update => [update.titleEncrypted]
  | .updateMeta _ update =>
      update.titleEncrypted :: (update.vaultNoteEncrypted.filter (· ≠ "")).toList
  | .insertAttachment attachment =>
      (wrappedFileKey attachment.encryptionMeta).toList

/-- What the body of a write carries under the master key. -/
def Write.secrets : Write → List String
  | .createMindMap _ _ body _ | .updateMindMap _ body _ => [body.titleEncrypted]
  | .updateVaultMeta _ body _ =>
      body.titleEncrypted.toList ++ (body.vaultNoteEncrypted.filter (· ≠ "")).toList
  | .initAttachment _ _ body _ => (wrappedFileKey body.encryptionMeta).toList
  | .copyAttachment _ _ _ _ _ => []

/-- What a bundle stores under the new master key. -/
def RotateCredentialsUpdate.secrets (update : RotateCredentialsUpdate) :
    List String :=
  update.updatedVaults.map RotateVaultEntry.titleEncrypted ++
    (update.updatedVaults.filterMap fun entry =>
      entry.vaultNoteEncrypted.filter (· ≠ "")) ++
    update.updatedAttachments.map RotateAttachmentEntry.wrappedKeyB64

/-- The bundle reaches every row of the user: all vaults, with their notes, and
all attachments that carry a wrapped file key, deleted ones included. -/
def ReachesRows (db : Database) (userId : String) (update : RotateCredentialsUpdate) : Prop :=
  (∀ map ∈ ownedVaults db userId,
    map.id ∈ update.updatedVaults.map RotateVaultEntry.id ∧
      (hasNote map = true → carriesNote update.updatedVaults map.id = true)) ∧
  ∀ attachment ∈ db.attachments.select (db.ownsAttachment userId),
    (wrappedFileKey attachment.encryptionMeta).isSome →
      attachment.id ∈ update.updatedAttachments.map RotateAttachmentEntry.id

section Writes

variable {db : Database} {userId secret : String}

/-- Changing columns of vaults other than id and owner changes no owner of an
attachment. -/
theorem ownsAttachment_update
    {condition : StoredMindMap → Bool} {change : StoredMindMap → StoredMindMap}
    (keepsId : ∀ map, (change map).id = map.id)
    (keepsOwner : ∀ map, (change map).userId = map.userId) :
    Database.ownsAttachment
        { db with mindMaps := db.mindMaps.update condition change keepsId } userId =
      db.ownsAttachment userId := by
  funext attachment
  simp only [Database.ownsAttachment, Table.update, List.any_map]
  congr 1
  funext map
  simp only [Function.comp_apply]
  split_ifs
  · rw [keepsId, keepsOwner]
  · rfl

/-- An update of vaults stores nothing but what it writes. -/
theorem mem_storedSecrets_update
    {condition : StoredMindMap → Bool} (change : StoredMindMap → StoredMindMap)
    {keepsId : ∀ map, (change map).id = map.id}
    (keepsOwner : ∀ map, (change map).userId = map.userId) {written : List String}
    (writes : ∀ map, ∀ secret ∈ vaultSecrets (change map),
      secret ∈ vaultSecrets map ∨ secret ∈ written)
    (stored : secret ∈ storedSecrets
      { db with mindMaps := db.mindMaps.update condition change keepsId } userId) :
    secret ∈ storedSecrets db userId ∨ secret ∈ written := by
  rw [mem_storedSecrets, ownsAttachment_update keepsId keepsOwner] at stored
  rcases stored with ⟨after, present, owned, held⟩ | attachments
  · obtain ⟨map, old, rfl⟩ := List.mem_map.mp present
    split_ifs at owned held
    · rw [keepsOwner] at owned
      rcases writes map secret held with before | new
      · exact .inl (mem_storedSecrets.mpr (.inl ⟨map, old, owned, before⟩))
      · exact .inr new
    · exact .inl (mem_storedSecrets.mpr (.inl ⟨map, old, owned, held⟩))
  · exact .inl (mem_storedSecrets.mpr (.inr attachments))

/-- A statement stores nothing but what it carries. -/
theorem mem_storedSecrets_execute {account after : AccountState} {statement : WriteStatement}
    (taken : execute userId account statement = some after)
    (stored : secret ∈ storedSecrets after.db userId) :
    secret ∈ storedSecrets account.db userId ∨ secret ∈ statement.secrets := by
  cases statement with
  | insertMindMap map =>
      simp only [execute] at taken
      split_ifs at taken with new waits
      cases Option.some.inj taken
      rw [not_or] at waits
      rcases mem_storedSecrets.mp stored with
        ⟨other, present, owned, held⟩ | ⟨attachment, present, owned, held⟩
      · rcases List.mem_append.mp present with old | added
        · exact .inl (mem_storedSecrets.mpr (.inl ⟨other, old, owned, held⟩))
        · rw [List.mem_singleton.mp added] at held
          exact .inr held
      · refine .inl (mem_storedSecrets.mpr (.inr ⟨attachment, present, ?_, held⟩))
        obtain ⟨other, listed, same, mine⟩ := Database.ownsAttachment_iff.mp owned
        rcases List.mem_append.mp listed with old | added
        · exact Database.ownsAttachment_iff.mpr ⟨other, old, same, mine⟩
        · rw [List.mem_singleton.mp added] at same
          exact absurd (List.mem_map.mpr ⟨attachment, present, same.symm⟩) waits.2
  | updateContent id update =>
      cases taken
      refine mem_storedSecrets_update (·.updateContent update) (fun _ => rfl) ?_ stored
      intro map secret held
      rcases List.mem_cons.mp held with title | note
      · exact .inr (List.mem_singleton.mpr title)
      · exact .inl (List.mem_cons_of_mem _ note)
  | updateMeta id update =>
      cases taken
      exact mem_storedSecrets_update (·.updateMeta update)
        (fun _ => rfl) (fun _ _ held => .inr held) stored
  | insertAttachment attachment =>
      simp only [execute] at taken
      split_ifs at taken
      cases Option.some.inj taken
      rcases mem_storedSecrets.mp stored with vaults | ⟨other, present, owned, held⟩
      · exact .inl (mem_storedSecrets.mpr (.inl vaults))
      · rcases List.mem_append.mp present with old | added
        · exact .inl (mem_storedSecrets.mpr (.inr ⟨other, old, owned, held⟩))
        · rw [List.mem_singleton.mp added] at held
          exact .inr (Option.mem_toList.mpr held)

/-- Registering a device stores nothing but its copy of the master key. -/
theorem mem_unlockSecrets_save {account after : AccountState} {method : UnlockMethod}
    (taken : saveUnlockMethod account method = some after)
    (stored : secret ∈ unlockSecrets after.db userId) :
    secret ∈ unlockSecrets account.db userId ∨ secret = method.wrappedMasterKey := by
  obtain ⟨row, present, owned, held⟩ := mem_unlockSecrets.mp stored
  simp only [saveUnlockMethod] at taken
  split_ifs at taken
  · cases Option.some.inj taken
    obtain ⟨old, listed, rfl⟩ := List.mem_map.mp present
    split_ifs at owned held
    · exact .inr held.symm
    · exact .inl (mem_unlockSecrets.mpr ⟨old, listed, owned, held⟩)
  · cases Option.some.inj taken
    rcases List.mem_append.mp present with old | added
    · exact .inl (mem_unlockSecrets.mpr ⟨row, old, owned, held⟩)
    · rw [List.mem_singleton.mp added] at held
      exact .inr held.symm

/-- A write is going to store what its body carries and what the rows held that it read. -/
theorem secrets_of_prepare {write : Write} {statement : WriteStatement}
    (prepared : prepare db userId write = .ok statement) (held : secret ∈ statement.secrets) :
    secret ∈ write.secrets ∨ secret ∈ storedSecrets db userId := by
  cases write with
  | createMindMap id objectKey body now =>
      obtain ⟨_, _, rfl⟩ := map_eq_ok.mp prepared
      exact .inl held
  | updateMindMap id body now =>
      obtain ⟨_, _, prepared⟩ := bind_eq_ok.mp prepared
      obtain ⟨_, _, rfl⟩ := map_eq_ok.mp prepared
      exact .inl held
  | updateVaultMeta id body now =>
      obtain ⟨map, found, prepared⟩ := bind_eq_ok.mp prepared
      obtain ⟨update, changed, rfl⟩ := map_eq_ok.mp prepared
      obtain ⟨present, _, owned⟩ := findOwned_eq_ok.mp found
      have read : ∀ secret ∈ vaultSecrets map, secret ∈ storedSecrets db userId :=
        fun _ inRow => mem_storedSecrets.mpr (.inl ⟨map, present, owned, inRow⟩)
      rw [Vault.metaUpdate, refuse_eq_ok] at changed
      cases Except.ok.inj changed.2
      rcases List.mem_cons.mp held with title | note
      · cases given : body.titleEncrypted with
        | some text =>
            rw [given, Option.getD_some] at title
            exact .inl (List.mem_append_left _ (by simp [given, title]))
        | none =>
            rw [given, Option.getD_none] at title
            exact .inr (read secret (title ▸ List.mem_cons_self))
      · cases given : body.vaultNoteEncrypted with
        | some text =>
            rw [given, Option.some_or, ← given] at note
            exact .inl (List.mem_append_right _ note)
        | none =>
            rw [given, Option.none_or] at note
            exact .inr (read secret (List.mem_cons_of_mem _ note))
  | initAttachment id mapId body now =>
      obtain ⟨_, _, prepared⟩ := bind_eq_ok.mp prepared
      obtain ⟨_, _, rfl⟩ := map_eq_ok.mp prepared
      exact .inl held
  | copyAttachment id mapId sourceId nodeId now =>
      obtain ⟨map, found, prepared⟩ := bind_eq_ok.mp prepared
      obtain ⟨source, read, prepared⟩ := bind_eq_ok.mp prepared
      rw [refuse_eq_ok] at prepared
      cases Except.ok.inj prepared.2
      obtain ⟨present, same, owned⟩ := findOwned_eq_ok.mp found
      obtain ⟨listed, ofMap⟩ := mem_of_findAttachment read
      refine .inr (mem_storedSecrets.mpr (.inr ⟨source, listed, ?_, Option.mem_toList.mp held⟩))
      exact Database.ownsAttachment_iff.mpr ⟨map, present, same.trans ofMap.symm, owned⟩

/-- Changing columns of vaults other than id and owner leaves which vaults there are. -/
theorem ownedVaults_update
    {condition : StoredMindMap → Bool} {change : StoredMindMap → StoredMindMap}
    (keepsId : ∀ map, (change map).id = map.id)
    (keepsOwner : ∀ map, (change map).userId = map.userId) :
    ownedVaults { db with mindMaps := db.mindMaps.update condition change keepsId } userId =
      (ownedVaults db userId).map fun map => if condition map then change map else map := by
  rw [ownedVaults, ownedVaults, Table.select, Table.select, Table.update, List.filter_map]
  refine congrArg _ (List.filter_congr fun map _ => ?_)
  rw [Function.comp_apply]
  split_ifs
  · rw [keepsOwner]
  · rfl

/-- The statement gives a note to no vault of the user that has none. -/
def WriteStatement.AddsNoNote (db : Database) (userId : String) : WriteStatement → Prop
  | .updateMeta id update =>
      ∀ map ∈ ownedVaults db userId, map.id = id →
        hasNote (map.updateMeta update) = true → hasNote map = true
  | _ => True

/-- What a rotation has checked stays so under changes of columns that add no note. -/
theorem checks_update (condition : StoredMindMap → Bool) (change : StoredMindMap → StoredMindMap)
    (keepsId : ∀ map, (change map).id = map.id)
    (keepsOwner : ∀ map, (change map).userId = map.userId)
    (addsNoNote : ∀ map ∈ ownedVaults db userId, condition map = true →
      hasNote (change map) = true → hasNote map = true)
    (update : RotateCredentialsUpdate) :
    let after := { db with mindMaps := db.mindMaps.update condition change keepsId }
    (checkVaults (ownedVaults db userId) update = .ok () →
      checkVaults (ownedVaults after userId) update = .ok ()) ∧
      rotationAttachments after userId = rotationAttachments db userId := by
  refine ⟨fun checked => ?_, ?_⟩
  · obtain ⟨sameIds, notes⟩ := checkVaults_eq_ok.mp checked
    have keepsIds := Table.map_key_update keepsId condition (ownedVaults db userId)
    rw [checkVaults_eq_ok, ownedVaults_update keepsId keepsOwner, keepsIds]
    refine ⟨sameIds, fun after present noted => ?_⟩
    obtain ⟨map, listed, rfl⟩ := List.mem_map.mp present
    split_ifs at noted ⊢ with changed
    · rw [keepsId]
      exact notes map listed (addsNoNote map listed changed noted)
    · exact notes map listed noted
  · rw [rotationAttachments, ownsAttachment_update keepsId keepsOwner]
    rfl

/-- While the lock is held, a statement leaves what a rotation has checked, if it adds no
note. -/
theorem execute_checks {account after : AccountState} {statement : WriteStatement}
    (taken : execute userId account statement = some after) (locked : account.locked = true)
    (addsNoNote : statement.AddsNoNote account.db userId) (update : RotateCredentialsUpdate) :
    (checkVaults (ownedVaults account.db userId) update = .ok () →
      checkVaults (ownedVaults after.db userId) update = .ok ()) ∧
      rotationAttachments after.db userId = rotationAttachments account.db userId := by
  cases statement with
  | insertMindMap map =>
      simp [execute, locked] at taken
  | insertAttachment attachment =>
      simp [execute, locked] at taken
  | updateContent id content =>
      cases taken
      exact checks_update (fun map => map.id == id && map.userId == userId)
        (·.updateContent content) (fun _ => rfl) (fun _ => rfl) (fun _ _ _ noted => noted) update
  | updateMeta id content =>
      cases taken
      refine checks_update (fun map => map.id == id && map.userId == userId)
        (·.updateMeta content) (fun _ => rfl) (fun _ => rfl) ?_ update
      intro map listed names noted
      rw [Bool.and_eq_true, beq_iff_eq] at names
      exact addsNoNote map listed names.1 noted

/-- A statement of a write touches neither users nor devices, nor the cache or the lock. -/
theorem execute_frame {account after : AccountState} {statement : WriteStatement}
    (taken : execute userId account statement = some after) :
    after = { account with
      db := { account.db with
        mindMaps := after.db.mindMaps
        attachments := after.db.attachments } } := by
  cases statement with
  | insertMindMap map =>
      simp only [execute] at taken
      split_ifs at taken
      cases Option.some.inj taken
      rfl
  | updateContent id update | updateMeta id update =>
      cases taken
      rfl
  | insertAttachment attachment =>
      simp only [execute] at taken
      split_ifs at taken
      cases Option.some.inj taken
      rfl

/-- Registering a device touches the devices only. -/
theorem saveUnlockMethod_frame {account after : AccountState} {method : UnlockMethod}
    (taken : saveUnlockMethod account method = some after) :
    after = { account with
      db := { account.db with unlockMethods := after.db.unlockMethods } } := by
  simp only [saveUnlockMethod] at taken
  split_ifs at taken <;> cases Option.some.inj taken <;> rfl

end Writes

section Bundle

variable {db : Database} {userId : String} {update : RotateCredentialsUpdate}

/-- Where an update of the title and the note comes from the bundle. -/
theorem secret_of_rotated_vault {map : StoredMindMap} (owned : map.userId = userId)
    (named : map.id ∈ update.updatedVaults.map RotateVaultEntry.id)
    (noted : hasNote map = true → carriesNote update.updatedVaults map.id = true) {secret : String}
    (held : secret ∈ vaultSecrets (update.updatedVaults.foldl (vaultStep userId) map)) :
    secret ∈ update.secrets := by
  obtain ⟨entry, found⟩ := lastEntry_isSome named
  obtain ⟨present, _⟩ := lastEntry_eq_some found
  obtain ⟨note, folded, carried⟩ := foldl_vaultStep userId owned update.updatedVaults found
  simp only [RotateCredentialsUpdate.secrets, List.mem_append]
  rcases List.mem_cons.mp held with title | inNote
  · refine .inl (.inl ?_)
    rw [title, folded]
    exact List.mem_map_of_mem present
  · refine .inl (.inr (List.mem_filterMap.mpr ?_))
    rw [Option.mem_toList, noteSecret] at inNote
    rcases foldl_vaultStep_note userId update.updatedVaults map with
      kept | ⟨other, listed, _, set⟩
    · -- the note was there before, so the last entry carries one of its own
      rw [kept] at inNote
      obtain ⟨before, nonempty⟩ := Option.filter_eq_some_iff.mp inNote
      have carries := noted (by simpa [hasNote, before] using nonempty)
      rw [carriesNote, found, Option.bind_some] at carries
      cases given : entry.vaultNoteEncrypted with
      | none => simp [given] at carries
      | some text =>
          have full : text ≠ "" := by simpa [given] using carries
          rw [folded] at kept
          have same : some text = some secret :=
            (carried text given full).symm.trans (kept.trans before)
          rw [← Option.some.inj same]
          exact ⟨entry, present, by simp [given, full]⟩
    · rw [set, Option.filter_filter] at inNote
      exact ⟨other, listed, by simpa using inNote⟩

/-- Wrapping a file key anew leaves no other wrap. -/
theorem wrappedFileKey_rewrap
    {entry : RotateAttachmentEntry} {attachment : StoredMindMapAttachment} {secret : String}
    (held : wrappedFileKey (attachment.rewrap entry).encryptionMeta = some secret) :
    secret = entry.wrappedKeyB64 := by
  cases stored : attachment.encryptionMeta with
  | none => simp [StoredMindMapAttachment.rewrap, stored, wrappedFileKey] at held
  | some document =>
      simp only [StoredMindMapAttachment.rewrap, stored, Option.map_some,
        wrappedFileKey, Option.bind_some] at held
      by_cases object : document.isObject = true
      · have wrapped : (rewrappedKey entry.wrappedKeyB64).get? "wrapped_key_b64" =
            some (.string entry.wrappedKeyB64) := rfl
        rw [Json.get?_concat object rfl, wrapped] at held
        simpa using held.symm
      · cases document with
        | object fields => exact absurd rfl object
        | _ => simp [Json.concat, rewrappedKey, Json.get?] at held

/-- Folded over an attachment of the user, the statements leave a wrap of the
bundle, or the one there was where none of them names it. -/
theorem secret_of_rotated_attachment {owned : StoredMindMapAttachment → Bool}
    (column : ∀ attachment document,
      owned { attachment with encryptionMeta := document } = owned attachment)
    {attachment : StoredMindMapAttachment} (mine : owned attachment = true)
    {secret : String} {entries : List RotateAttachmentEntry}
    (held : wrappedFileKey
      (entries.foldl (attachmentStep owned) attachment).encryptionMeta = some secret) :
    secret ∈ entries.map RotateAttachmentEntry.wrappedKeyB64 ∨
      (attachment.id ∉ entries.map RotateAttachmentEntry.id ∧
        wrappedFileKey attachment.encryptionMeta = some secret) := by
  induction entries generalizing attachment with
  | nil => exact .inr ⟨List.not_mem_nil, held⟩
  | cons entry entries ih =>
      rw [List.foldl_cons] at held
      by_cases names : attachment.id = entry.id
      · have stepped :
            attachmentStep owned attachment entry = attachment.rewrap entry := by
          simp [attachmentStep, names, mine]
        rw [stepped] at held
        have still : owned (attachment.rewrap entry) = true := (column attachment _).trans mine
        rcases ih still held with later | ⟨_, wrapped⟩
        · exact .inl (List.mem_cons_of_mem _ later)
        · rw [wrappedFileKey_rewrap wrapped]
          exact .inl List.mem_cons_self
      · have stepped : attachmentStep owned attachment entry = attachment := by
          simp [attachmentStep, names]
        rw [stepped] at held
        rcases ih mine held with later | ⟨unnamed, wrapped⟩
        · exact .inl (List.mem_cons_of_mem _ later)
        · refine .inr ⟨?_, wrapped⟩
          rw [List.map_cons, List.mem_cons, not_or]
          exact ⟨names, unnamed⟩

/-- Rotating an attachment leaves its owner. -/
theorem foldl_attachmentStep_owned {owned : StoredMindMapAttachment → Bool}
    (column : ∀ attachment document,
      owned { attachment with encryptionMeta := document } = owned attachment)
    (entries : List RotateAttachmentEntry) (attachment : StoredMindMapAttachment) :
    owned (entries.foldl (attachmentStep owned) attachment) = owned attachment := by
  induction entries generalizing attachment with
  | nil => rfl
  | cons entry entries ih =>
      rw [List.foldl_cons, ih, attachmentStep]
      split_ifs
      · exact column attachment _
      · rfl

/-- A rotation changes no owner of an attachment. -/
theorem ownsAttachment_writeBundle (newAuthHash : String) :
    (writeBundle db userId update newAuthHash).ownsAttachment userId =
      db.ownsAttachment userId := by
  have frame := (foldl_writeAttachment_frame userId update.updatedAttachments
    (update.updatedVaults.foldl (writeVault userId) (writeUser db userId update newAuthHash))).2.1
  have vaults : (update.updatedVaults.foldl (writeVault userId)
      (writeUser db userId update newAuthHash)).ownsAttachment userId =
        (writeUser db userId update newAuthHash).ownsAttachment userId :=
    ownsAttachment_foldl_writeVault _ _
  funext attachment
  have owners := congrFun vaults attachment
  rw [Database.ownsAttachment, ← frame] at owners
  exact owners

/-- A rotation that reaches every row leaves nothing but its bundle. -/
theorem mem_storedSecrets_writeBundle
    {newAuthHash secret : String} (reaches : ReachesRows db userId update)
    (stored : secret ∈ storedSecrets (writeBundle db userId update newAuthHash) userId) :
    secret ∈ update.secrets := by
  rw [mem_storedSecrets, ownsAttachment_writeBundle] at stored
  rcases stored with ⟨after, present, owned, held⟩ | ⟨after, present, owned, held⟩
  · have found := Table.find?_eq_some.mpr ⟨present, rfl⟩
    rw [writeBundle_vault] at found
    obtain ⟨map, old, rfl⟩ := Option.map_eq_some_iff.mp found
    obtain ⟨title, note, shape⟩ := foldl_vaultStep_shape userId update.updatedVaults map
    have mine : map.userId = userId := by
      rw [shape] at owned
      exact owned
    obtain ⟨listed, _⟩ := Table.find?_eq_some.mp old
    obtain ⟨named, noted⟩ := reaches.1 map (Table.mem_select.mpr ⟨listed, beq_iff_eq.mpr mine⟩)
    exact secret_of_rotated_vault mine named noted held
  · have found := Table.find?_eq_some.mpr ⟨present, rfl⟩
    rw [writeBundle_attachment] at found
    obtain ⟨attachment, old, rfl⟩ := Option.map_eq_some_iff.mp found
    obtain ⟨listed, _⟩ := Table.find?_eq_some.mp old
    have mine : db.ownsAttachment userId attachment = true := by
      rw [← owned]
      exact (foldl_attachmentStep_owned (fun _ _ => rfl) update.updatedAttachments attachment).symm
    rcases secret_of_rotated_attachment (fun _ _ => rfl) mine held with
      given | ⟨unnamed, wrapped⟩
    · exact List.mem_append_right _ given
    · exact absurd (reaches.2 attachment (Table.mem_select.mpr ⟨listed, mine⟩)
        (by rw [wrapped]; rfl)) unnamed

end Bundle

/-- A rotation that was accepted reaches every row, if no deleted attachment keeps a wrap. -/
theorem Accepted.reachesRows
    {db : Database} {userId : String} {update : RotateCredentialsUpdate} {user : StoredUser}
    (accepted : Accepted db userId update user)
    (deleted : ∀ attachment ∈ db.attachments.select (db.ownsAttachment userId),
      attachment.status = .deleted → wrappedFileKey attachment.encryptionMeta = none) :
    ReachesRows db userId update := by
  obtain ⟨sameVaults, notes⟩ := checkVaults_eq_ok.mp accepted.vaults
  have sameAttachments := checkAttachments_eq_ok.mp accepted.attachments
  refine ⟨fun map owned => ⟨?_, notes map owned⟩, fun attachment owned wrapped => ?_⟩
  · exact (sameVaults map.id).mp (List.mem_map_of_mem owned)
  · obtain ⟨present, mine⟩ := Table.mem_select.mp owned
    have kept : attachment.status ≠ .deleted := fun isDeleted => by
      simp [deleted attachment owned isDeleted] at wrapped
    have carries : (attachment.encryptionMeta.map (·.hasKey "wrapped_key_b64")).getD false =
        true := by
      cases stored : attachment.encryptionMeta with
      | none => simp [wrappedFileKey, stored] at wrapped
      | some document =>
          cases document with
          | object fields =>
              cases found : fields.lookup "wrapped_key_b64" with
              | none => simp [wrappedFileKey, stored, Json.get?, found] at wrapped
              | some value => simp [Json.hasKey, found]
          | _ => simp [wrappedFileKey, stored, Json.get?] at wrapped
    refine (sameAttachments attachment.id).mp (List.mem_map_of_mem ?_)
    refine Table.mem_select.mpr ⟨present, Bool.and_eq_true_iff.mpr ⟨mine, ?_⟩⟩
    exact Bool.and_eq_true_iff.mpr ⟨bne_iff_ne.mpr kept, carries⟩

/-- The key version of a user, 0 if there is none. -/
def keyVersionOf (userId : String) (db : Database) : UInt32 :=
  ((db.users.find? userId).map StoredUser.keyVersion).getD 0

theorem keyVersionOf_eq {userId : String} {db : Database} {user : StoredUser}
    (found : db.users.find? userId = some user) :
    keyVersionOf userId db = user.keyVersion := by
  rw [keyVersionOf, found, Option.map_some, Option.getD_some]

/-- A rotation that commits leaves the account at its version. -/
theorem keyVersionOf_writeBundle
    {userId newAuthHash : String} {db : Database} {update : RotateCredentialsUpdate}
    {user : StoredUser} (found : db.users.find? userId = some user) :
    keyVersionOf userId (writeBundle db userId update newAuthHash) = update.newKeyVersion := by
  have rotated : (writeBundle db userId update newAuthHash).users.find? userId =
      (db.users.find? userId).map fun user =>
        if user.id == userId then user.rotate update newAuthHash else user :=
    writeBundle_user userId
  rw [found, Option.map_some, if_pos (beq_iff_eq.mpr (Table.find?_eq_some.mp found).2)] at rotated
  exact keyVersionOf_eq rotated

/-! ### When rotations stay apart -/

/-- What a write that was admitted is still going to store, as far as it is known. -/
def AccountFlight.unwritten : AccountFlight → List String
  | .admitted write => write.secrets
  | .writing statement => statement.secrets
  | _ => []

/-- The copy of the master key a registration is still going to store. -/
def AccountFlight.unregistered : AccountFlight → Option String
  | .registering method => some method.wrappedMasterKey
  | _ => none

/-- A check has loaded the version and is about to cache it. -/
def AccountFlight.isSeeding : AccountFlight → Bool
  | .seedingVersion _ _ _ => true
  | _ => false

/-- A rotation has committed and is about to cache its version. -/
def AccountFlight.isPublishing : AccountFlight → Bool
  | .publishing _ => true
  | _ => false

/-- The request is a write whose token names a version. -/
def AccountRequest.isChecked : AccountRequest → Bool
  | .write (some _) _ => true
  | _ => false

section Runs

variable (producedUnder : String → UInt32) (userId : String)

/-- What clients seal under: a write carries nothing older than the version its token
names, or than that of the account if it names none; a device copy is of the version of
the account; a bundle carries nothing older than the version it rotates to. -/
def AccountRequest.Sealed (keyVersion : UInt32) : AccountRequest → Prop
  | .write tokenKv sent =>
      ∀ secret ∈ sent.secrets, tokenKv.getD keyVersion ≤ producedUnder secret
  | .registerUnlockMethod body _ => keyVersion ≤ producedUnder body.wrappedMasterKey
  | .rotateCredentials _ update =>
      ∀ secret ∈ update.secrets, update.newKeyVersion ≤ producedUnder secret

/-- What the next operation of a request must not run into. A rotation takes the lock only
when none has still to publish, and no note is added to a vault while it has it. It commits
with no check between its load and its cache entry, no admitted write on its way to its row,
no deleted attachment that keeps a wrap, and no wrap-around of the version; it then gets to
publish. It clears the devices, or has none to clear, with no older copy on its way. -/
def AccountFlight.Apart (pool : AccountPool) : AccountFlight → AccountAct → Prop
  | .rotating _ _, .proceed => ∀ flight ∈ pool.threads, flight.isPublishing = false
  | .writing statement, .proceed =>
      pool.shared.locked = true → statement.AddsNoNote pool.shared.db userId
  | .covered _ _, .proceed =>
      (∀ flight ∈ pool.threads, flight.isSeeding = false ∧ flight.unwritten = []) ∧
      (∀ attachment ∈
          pool.shared.db.attachments.select (pool.shared.db.ownsAttachment userId),
        attachment.status = .deleted → wrappedFileKey attachment.encryptionMeta = none) ∧
      keyVersionOf userId pool.shared.db < keyVersionOf userId pool.shared.db + 1
  | .publishing _, .fail => False
  | .clearing newKeyVersion, act =>
      (act = .fail → unlockSecrets pool.shared.db userId = []) ∧
      ∀ flight ∈ pool.threads, ∀ secret ∈ flight.unregistered, newKeyVersion ≤ producedUnder secret
  | _, _ => True

/-- The move keeps rotations apart from each other and from writes under an older key. -/
def RotationsApart (pool : AccountPool) : AccountMove → Prop
  | .spawn request =>
      request.Sealed producedUnder (keyVersionOf userId pool.shared.db) ∧
      (request.isChecked = true → pool.shared.cached.isSome = true →
        ∀ flight ∈ pool.threads, flight.isPublishing = false)
  | .advance thread act =>
      ∀ flight ∈ pool.threads[thread]?, flight.Apart producedUnder userId pool act
  | .outside _ => True

/-- Nothing is stored that was made under a master key older than a rotation that
has returned. -/
def OldKeyGone (account : AccountState) : Prop :=
  ∀ version ∈ account.returned,
    ∀ secret ∈ storedSecrets account.db userId ++ unlockSecrets account.db userId,
      version ≤ producedUnder secret

instance (account : AccountState) :
    Decidable (OldKeyGone producedUnder userId account) :=
  -- over the versions in the list, not over all there are
  List.decidableBAll _ _

instance (keyVersion : UInt32) (request : AccountRequest) :
    Decidable (request.Sealed producedUnder keyVersion) := by
  unfold AccountRequest.Sealed
  split <;> infer_instance

instance (db : Database) (statement : WriteStatement) :
    Decidable (statement.AddsNoNote db userId) := by
  unfold WriteStatement.AddsNoNote
  split <;> infer_instance

instance (pool : AccountPool) (flight : AccountFlight) (act : AccountAct) :
    Decidable (flight.Apart producedUnder userId pool act) := by
  unfold AccountFlight.Apart
  split <;> infer_instance

instance (pool : AccountPool) (move : AccountMove) :
    Decidable (RotationsApart producedUnder userId pool move) := by
  unfold RotationsApart
  split <;> infer_instance

/-! ### The rotation that holds the lock -/

/-- A rotation holds the lock or has still to publish. -/
def AccountFlight.isRotating : AccountFlight → Bool
  | .locking _ _ | .vaultsCovered _ _ | .covered _ _ | .publishing _ => true
  | _ => false

/-- The cache is empty or current. -/
def CachesCurrent (account : AccountState) : Prop :=
  ∀ version ∈ account.cached, version = keyVersionOf userId account.db

/-- What is known of the account beside the rotation that holds the lock, or has still to
publish. What it has checked stays so until it commits. -/
def KnownBy (account : AccountState) : Option AccountFlight → Prop
  | some (.locking _ update) =>
      account.locked = true ∧ CachesCurrent userId account ∧
        ∃ user, account.db.users.find? userId = some user ∧ checkKeyVersion user update = .ok ()
  | some (.vaultsCovered _ update) =>
      account.locked = true ∧ CachesCurrent userId account ∧
        ∃ user, account.db.users.find? userId = some user ∧
          checkKeyVersion user update = .ok () ∧
            checkVaults (ownedVaults account.db userId) update = .ok ()
  | some (.covered _ update) =>
      account.locked = true ∧ CachesCurrent userId account ∧
        ∃ user, Accepted account.db userId update user
  | some (.publishing newKeyVersion) =>
      account.locked = false ∧ newKeyVersion = keyVersionOf userId account.db
  | _ => account.locked = false ∧ CachesCurrent userId account

variable {producedUnder userId}
variable {account after : AccountState} {before flight : AccountFlight}
variable {worker : Option AccountFlight}

/-- What is known stays true under steps that leave the user, the lock and what was checked,
and the cache current. -/
theorem KnownBy.of_frame (known : KnownBy userId account worker)
    (users : after.db.users = account.db.users)
    (current : CachesCurrent userId account → CachesCurrent userId after)
    (lock : after.locked = account.locked)
    (checks : account.locked = true → ∀ update,
      (checkVaults (ownedVaults account.db userId) update = .ok () →
        checkVaults (ownedVaults after.db userId) update = .ok ()) ∧
        rotationAttachments after.db userId = rotationAttachments account.db userId) :
    KnownBy userId after worker := by
  have version : keyVersionOf userId after.db = keyVersionOf userId account.db := by
    rw [keyVersionOf, users, keyVersionOf]
  cases worker with
  | none => exact ⟨lock.trans known.1, current known.2⟩
  | some flight =>
      cases flight with
      | locking newAuthHash update =>
          obtain ⟨isLocked, isCurrent, user, found, follows⟩ := known
          exact ⟨lock.trans isLocked, current isCurrent, user, users ▸ found, follows⟩
      | vaultsCovered newAuthHash update =>
          obtain ⟨isLocked, isCurrent, user, found, follows, vaults⟩ := known
          exact ⟨lock.trans isLocked, current isCurrent, user, users ▸ found, follows,
            (checks isLocked update).1 vaults⟩
      | covered newAuthHash update =>
          obtain ⟨isLocked, isCurrent, user, accepted⟩ := known
          refine ⟨lock.trans isLocked, current isCurrent, user, users ▸ accepted.found,
            accepted.version, (checks isLocked update).1 accepted.vaults, ?_⟩
          rw [(checks isLocked update).2]
          exact accepted.attachments
      | publishing newKeyVersion => exact ⟨lock.trans known.1, known.2.trans version.symm⟩
      | _ => exact ⟨lock.trans known.1, current known.2⟩

/-- A rotation that holds the lock passes its check, or gives the lock back. -/
theorem knownBy_passing {check : Except AppError Unit} {next : AccountFlight}
    (taken : some (account.passing check next) = some (after, flight))
    (current : CachesCurrent userId account)
    (passes : check = .ok () → KnownBy userId account (some next)) :
    KnownBy userId after (some flight) := by
  cases check with
  | ok passed =>
      cases taken
      exact passes rfl
  | error error =>
      cases taken
      exact ⟨rfl, current⟩

/-- What a rotation knows while it works. -/
theorem knownBy_working {pool : AccountPool} {act : AccountAct}
    (works : before.isRotating = true) (known : KnownBy userId account (some before))
    (apart : before.Apart producedUnder userId pool act)
    (taken : (accountRequests userId).advance account before act = some (after, flight)) :
    KnownBy userId after (some flight) := by
  cases before with
  | locking newAuthHash update =>
      obtain ⟨isLocked, isCurrent, user, found, follows⟩ := known
      cases act with
      | proceed =>
          exact knownBy_passing taken isCurrent fun vaults =>
            ⟨isLocked, isCurrent, user, found, follows, vaults⟩
      | fail =>
          cases taken
          exact ⟨rfl, isCurrent⟩
  | vaultsCovered newAuthHash update =>
      obtain ⟨isLocked, isCurrent, user, found, follows, vaults⟩ := known
      cases act with
      | proceed =>
          exact knownBy_passing taken isCurrent fun attachments =>
            ⟨isLocked, isCurrent, user, found, follows, vaults, attachments⟩
      | fail =>
          cases taken
          exact ⟨rfl, isCurrent⟩
  | covered newAuthHash update =>
      obtain ⟨_, isCurrent, user, accepted⟩ := known
      cases act with
      | proceed =>
          cases taken
          exact ⟨rfl, (keyVersionOf_writeBundle accepted.found).symm⟩
      | fail =>
          cases taken
          exact ⟨rfl, isCurrent⟩
  | publishing newKeyVersion =>
      cases act with
      | proceed =>
          cases taken
          refine ⟨known.1, ?_⟩
          rintro version ⟨⟩
          exact known.2
      | fail => exact apart.elim
  | _ => contradiction

/-- The cache is current unless a rotation has still to publish. -/
theorem cachesCurrent_of_exclusive {pool : AccountPool}
    (exclusive : Exclusive AccountFlight.isRotating (KnownBy userId) pool)
    (published : ∀ flight ∈ pool.threads, flight.isPublishing = false) :
    CachesCurrent userId pool.shared := by
  obtain ⟨worker, others, arranged, -, -, known⟩ := exclusive
  cases worker with
  | none => exact known.2
  | some flight =>
      have present : flight ∈ pool.threads := arranged.mem_iff.mpr List.mem_cons_self
      cases flight with
      | locking _ _ | vaultsCovered _ _ | covered _ _ => exact known.2.1
      | publishing newKeyVersion => exact absurd (published _ present) nofun
      | _ => exact known.2

/-- Any other request leaves what is known, or is a rotation that takes the lock. -/
theorem knownBy_idling {pool : AccountPool} {act : AccountAct}
    (idle : before.isRotating = false) (known : KnownBy userId pool.shared worker)
    (present : ∀ own ∈ worker, own ∈ pool.threads) (works : ∀ own ∈ worker, own.isRotating = true)
    (seeds : ∀ tokenKv loaded write, before = .seedingVersion tokenKv loaded write →
      loaded = keyVersionOf userId pool.shared.db)
    (apart : before.Apart producedUnder userId pool act)
    (taken : (accountRequests userId).advance pool.shared before act = some (after, flight)) :
    flight.isRotating = false ∧ KnownBy userId after worker ∨
      worker = none ∧ KnownBy userId after (some flight) := by
  cases act with
  | fail =>
      cases before with
      | clearing newKeyVersion =>
          cases taken
          exact .inl ⟨rfl, known.of_frame rfl id rfl fun _ _ => ⟨id, rfl⟩⟩
      | finished => cases taken
      | locking _ _ | vaultsCovered _ _ | covered _ _ | publishing _ => contradiction
      | _ =>
          cases taken
          exact .inl ⟨rfl, known⟩
  | proceed =>
      cases before with
      | loadingVersion tokenKv write =>
          simp only [accountRequests, proceed] at taken
          split at taken <;> cases taken <;> exact .inl ⟨rfl, known⟩
      | seedingVersion tokenKv loaded write =>
          cases taken
          refine .inl ⟨by split_ifs <;> rfl, known.of_frame rfl ?_ rfl fun _ _ => ⟨id, rfl⟩⟩
          rintro - version ⟨⟩
          exact seeds tokenKv loaded write rfl
      | admitted write =>
          simp only [accountRequests, proceed] at taken
          split at taken <;> cases taken <;> exact .inl ⟨rfl, known⟩
      | writing statement =>
          obtain ⟨_, executed, same⟩ := Option.map_eq_some_iff.mp taken
          cases same
          have frame := execute_frame executed
          refine .inl ⟨rfl, known.of_frame (by rw [frame]) ?_ (by rw [frame]) ?_⟩
          · rw [frame]
            exact id
          · exact fun locked => execute_checks executed locked (apart locked)
      | registering method =>
          obtain ⟨_, saved, same⟩ := Option.map_eq_some_iff.mp taken
          cases same
          have frame := saveUnlockMethod_frame saved
          rw [frame]
          exact .inl ⟨rfl, known.of_frame rfl id rfl fun _ _ => ⟨id, rfl⟩⟩
      | rotating newAuthHash update =>
          simp only [accountRequests, proceed] at taken
          split_ifs at taken with locked
          split at taken
          · cases taken
            exact .inl ⟨rfl, known⟩
          · next user found =>
            have alone : worker = none := by
              refine Option.eq_none_iff_forall_not_mem.mpr fun own isWorker => ?_
              have rotates := works own isWorker
              have published := apart own (present own isWorker)
              obtain rfl := Option.mem_def.mp isWorker
              cases own with
              | locking _ _ | vaultsCovered _ _ | covered _ _ => exact locked known.1
              | _ => contradiction
            subst alone
            refine .inr ⟨rfl, knownBy_passing taken known.2 ?_⟩
            exact fun follows => ⟨rfl, known.2, user, found, follows⟩
      | clearing newKeyVersion =>
          cases taken
          exact .inl ⟨rfl, known.of_frame rfl id rfl fun _ _ => ⟨id, rfl⟩⟩
      | finished => cases taken
      | locking _ _ | vaultsCovered _ _ | covered _ _ | publishing _ => contradiction

/-! ### What is on its way -/

variable (producedUnder userId) in
/-- What the account has reached since key version `start`: after a first rotation
everything stored is of the version of the account, and the devices are of every version
that has returned. -/
structure AccountState.Fresh (start : UInt32) (account : AccountState) : Prop where
  grows : start ≤ keyVersionOf userId account.db
  stored : start < keyVersionOf userId account.db →
    ∀ secret ∈ storedSecrets account.db userId,
      keyVersionOf userId account.db ≤ producedUnder secret
  versions : ∀ version ∈ account.returned,
    start < version ∧ version ≤ keyVersionOf userId account.db
  devices : ∀ version ∈ account.returned,
    ∀ secret ∈ unlockSecrets account.db userId, version ≤ producedUnder secret

variable (producedUnder) in
/-- What a request under way has loaded and is going to store. -/
def AccountFlight.Fresh (start keyVersion : UInt32) (returned : List UInt32) :
    AccountFlight → Prop
  | .loadingVersion tokenKv write => ∀ secret ∈ write.secrets, tokenKv ≤ producedUnder secret
  | .seedingVersion tokenKv loaded write =>
      loaded = keyVersion ∧ ∀ secret ∈ write.secrets, tokenKv ≤ producedUnder secret
  | .admitted write => ∀ secret ∈ write.secrets, keyVersion ≤ producedUnder secret
  | .writing statement =>
      start < keyVersion → ∀ secret ∈ statement.secrets, keyVersion ≤ producedUnder secret
  | .registering method =>
      ∀ version ∈ returned, version ≤ producedUnder method.wrappedMasterKey
  | .rotating _ update | .locking _ update | .vaultsCovered _ update | .covered _ update =>
      ∀ secret ∈ update.secrets, update.newKeyVersion ≤ producedUnder secret
  | .publishing newKeyVersion | .clearing newKeyVersion =>
      start < newKeyVersion ∧ newKeyVersion ≤ keyVersion
  | .finished => True

variable (producedUnder userId) in
/-- A step leaves the account, its own request and the others as they should be. -/
structure FreshStep (start : UInt32) (pool : AccountPool) (after : AccountState)
    (flight : AccountFlight) : Prop where
  shared : after.Fresh producedUnder userId start
  own : flight.Fresh producedUnder start (keyVersionOf userId after.db) after.returned
  others : ∀ other ∈ pool.threads,
    other.Fresh producedUnder start (keyVersionOf userId pool.shared.db)
        pool.shared.returned →
      other.Fresh producedUnder start (keyVersionOf userId after.db) after.returned

variable {start : UInt32} {pool : AccountPool}

theorem AccountState.Fresh.oldKeyGone (fresh : account.Fresh producedUnder userId start) :
    OldKeyGone producedUnder userId account := by
  intro version returned secret present
  rcases List.mem_append.mp present with stored | device
  · obtain ⟨later, reached⟩ := fresh.versions version returned
    exact UInt32.le_trans reached (fresh.stored (UInt32.lt_of_lt_of_le later reached) secret stored)
  · exact fresh.devices version returned secret device

/-- A step that leaves the tables and the returned rotations. -/
theorem freshStep_of_unchanged (fresh : pool.shared.Fresh producedUnder userId start)
    (tables : after.db = pool.shared.db) (returned : after.returned = pool.shared.returned)
    (own : flight.Fresh producedUnder start (keyVersionOf userId pool.shared.db)
      pool.shared.returned) :
    FreshStep producedUnder userId start pool after flight := by
  rw [← tables, ← returned] at own
  refine ⟨⟨?_, ?_, ?_, ?_⟩, own, fun other _ known => ?_⟩
  · rw [tables]
    exact fresh.grows
  · rw [tables]
    exact fresh.stored
  · rw [tables, returned]
    exact fresh.versions
  · rw [tables, returned]
    exact fresh.devices
  · rw [tables, returned]
    exact known

/-- A statement that carries nothing older than the account leaves nothing older. -/
theorem freshStep_execute {statement : WriteStatement}
    (fresh : pool.shared.Fresh producedUnder userId start)
    (own : start < keyVersionOf userId pool.shared.db →
      ∀ secret ∈ statement.secrets, keyVersionOf userId pool.shared.db ≤ producedUnder secret)
    (executed : execute userId pool.shared statement = some after) :
    FreshStep producedUnder userId start pool after .finished := by
  have frame := execute_frame executed
  have version : keyVersionOf userId after.db = keyVersionOf userId pool.shared.db := by
    rw [frame]
    rfl
  have returned : after.returned = pool.shared.returned := by
    rw [frame]
  have devices : unlockSecrets after.db userId = unlockSecrets pool.shared.db userId := by
    rw [frame]
    rfl
  refine ⟨⟨?_, ?_, ?_, ?_⟩, trivial, fun other _ known => ?_⟩
  · rw [version]
    exact fresh.grows
  · rw [version]
    intro rotated secret held
    rcases mem_storedSecrets_execute executed held with old | written
    · exact fresh.stored rotated secret old
    · exact own rotated secret written
  · rw [version, returned]
    exact fresh.versions
  · rw [returned, devices]
    exact fresh.devices
  · rw [version, returned]
    exact known

/-- A device copy that is no older than any returned rotation leaves none older. -/
theorem freshStep_register {method : UnlockMethod}
    (fresh : pool.shared.Fresh producedUnder userId start)
    (own : ∀ version ∈ pool.shared.returned, version ≤ producedUnder method.wrappedMasterKey)
    (saved : saveUnlockMethod pool.shared method = some after) :
    FreshStep producedUnder userId start pool after .finished := by
  have devices : ∀ version ∈ pool.shared.returned,
      ∀ secret ∈ unlockSecrets after.db userId, version ≤ producedUnder secret := by
    intro version listed secret held
    rcases mem_unlockSecrets_save saved held with old | new
    · exact fresh.devices version listed secret old
    · rw [new]
      exact own version listed
  have frame := saveUnlockMethod_frame saved
  rw [frame] at devices ⊢
  exact ⟨⟨fresh.grows, fresh.stored, fresh.versions, devices⟩, trivial, fun other _ known => known⟩

/-- A commit leaves nothing but its bundle, and finds no write on its way. -/
theorem freshStep_commit {newAuthHash : String} {update : RotateCredentialsUpdate}
    (fresh : pool.shared.Fresh producedUnder userId start)
    (known : KnownBy userId pool.shared (some (.covered newAuthHash update)))
    (own : ∀ secret ∈ update.secrets, update.newKeyVersion ≤ producedUnder secret)
    (apart : (AccountFlight.covered newAuthHash update).Apart producedUnder userId pool .proceed)
    (tables : after.db = writeBundle pool.shared.db userId update newAuthHash)
    (returned : after.returned = pool.shared.returned) :
    FreshStep producedUnder userId start pool after (.publishing update.newKeyVersion) := by
  obtain ⟨_, _, user, accepted⟩ := known
  obtain ⟨quiet, deleted, grows⟩ := apart
  have version : keyVersionOf userId after.db = update.newKeyVersion := by
    rw [tables]
    exact keyVersionOf_writeBundle accepted.found
  rw [keyVersionOf_eq accepted.found, ← checkKeyVersion_eq_ok.mp accepted.version,
    ← keyVersionOf_eq accepted.found] at grows
  have upTo := UInt32.le_of_lt grows
  have later := UInt32.lt_of_le_of_lt fresh.grows grows
  refine ⟨⟨?_, ?_, ?_, ?_⟩, ?_, fun other present before => ?_⟩
  · rw [version]
    exact UInt32.le_of_lt later
  · rw [version, tables]
    intro _ secret held
    exact own secret (mem_storedSecrets_writeBundle (accepted.reachesRows deleted) held)
  · rw [version, returned]
    intro earlier listed
    obtain ⟨since, reached⟩ := fresh.versions earlier listed
    exact ⟨since, UInt32.le_trans reached upTo⟩
  · rw [returned, unlockSecrets, tables, writeBundle_unlockMethods]
    exact fresh.devices
  · rw [version]
    exact ⟨later, UInt32.le_refl _⟩
  · rw [version, returned]
    obtain ⟨noSeed, nothing⟩ := quiet other present
    cases other with
    | seedingVersion tokenKv loaded write => contradiction
    | admitted write =>
        intro secret held
        rw [AccountFlight.unwritten] at nothing
        simp [nothing] at held
    | writing statement =>
        intro _ secret held
        rw [AccountFlight.unwritten] at nothing
        simp [nothing] at held
    | publishing earlier | clearing earlier =>
        exact ⟨before.1, UInt32.le_trans before.2 upTo⟩
    | _ => exact before

/-- A rotation returns where no device is left and no older copy is on its way. -/
theorem freshStep_return {newKeyVersion : UInt32} {cleared : Database} {act : AccountAct}
    (fresh : pool.shared.Fresh producedUnder userId start)
    (own : start < newKeyVersion ∧ newKeyVersion ≤ keyVersionOf userId pool.shared.db)
    (apart : (AccountFlight.clearing newKeyVersion).Apart producedUnder userId pool act)
    (version : keyVersionOf userId cleared = keyVersionOf userId pool.shared.db)
    (secrets : storedSecrets cleared userId = storedSecrets pool.shared.db userId)
    (empty : unlockSecrets cleared userId = []) :
    FreshStep producedUnder userId start pool
      ({ pool.shared with db := cleared }.return newKeyVersion) .finished := by
  refine ⟨⟨?_, ?_, ?_, ?_⟩, trivial, fun other present before => ?_⟩
  · rw [AccountState.return, version]
    exact fresh.grows
  · rw [AccountState.return, version, secrets]
    exact fresh.stored
  · rw [AccountState.return, version]
    exact List.forall_mem_cons.mpr ⟨own, fresh.versions⟩
  · rw [AccountState.return, empty]
    nofun
  · rw [AccountState.return, version]
    cases other with
    | registering method =>
        exact List.forall_mem_cons.mpr ⟨apart.2 _ present _ rfl, before⟩
    | _ => exact before

/-- A check that is passed or not changes neither tables nor returned rotations. -/
theorem freshStep_passing {check : Except AppError Unit} {next : AccountFlight}
    (taken : some (account.passing check next) = some (after, flight))
    (fresh : pool.shared.Fresh producedUnder userId start)
    (tables : account.db = pool.shared.db) (returned : account.returned = pool.shared.returned)
    (own : next.Fresh producedUnder start (keyVersionOf userId pool.shared.db)
      pool.shared.returned) :
    FreshStep producedUnder userId start pool after flight := by
  cases check with
  | ok passed =>
      cases taken
      exact freshStep_of_unchanged fresh tables returned own
  | error error =>
      cases taken
      exact freshStep_of_unchanged fresh tables returned trivial

/-- Where rotations stay apart, the next operation of a request leaves everything as it
should be. -/
theorem freshStep_proceed (fresh : pool.shared.Fresh producedUnder userId start)
    (own : before.Fresh producedUnder start (keyVersionOf userId pool.shared.db)
      pool.shared.returned)
    (known : before.isRotating = true → KnownBy userId pool.shared (some before))
    (apart : before.Apart producedUnder userId pool .proceed)
    (taken : proceed userId pool.shared before = some (after, flight)) :
    FreshStep producedUnder userId start pool after flight := by
  cases before with
  | loadingVersion tokenKv write =>
      simp only [proceed] at taken
      split at taken
      · cases taken
        exact freshStep_of_unchanged fresh rfl rfl trivial
      · next user found =>
          cases taken
          exact freshStep_of_unchanged fresh rfl rfl ⟨(keyVersionOf_eq found).symm, own⟩
  | seedingVersion tokenKv loaded write =>
      cases taken
      refine freshStep_of_unchanged fresh rfl rfl ?_
      split_ifs with same
      · intro secret held
        rw [← own.1, ← same]
        exact own.2 secret held
      · trivial
  | admitted write =>
      simp only [proceed] at taken
      split at taken
      · cases taken
        exact freshStep_of_unchanged fresh rfl rfl trivial
      · next statement prepared =>
          cases taken
          refine freshStep_of_unchanged fresh rfl rfl fun rotated secret held => ?_
          rcases secrets_of_prepare prepared held with carried | read
          · exact own secret carried
          · exact fresh.stored rotated secret read
  | writing statement =>
      obtain ⟨_, executed, same⟩ := Option.map_eq_some_iff.mp taken
      cases same
      exact freshStep_execute fresh own executed
  | registering method =>
      obtain ⟨_, saved, same⟩ := Option.map_eq_some_iff.mp taken
      cases same
      exact freshStep_register fresh own saved
  | rotating newAuthHash update =>
      simp only [proceed] at taken
      split_ifs at taken
      split at taken
      · cases taken
        exact freshStep_of_unchanged fresh rfl rfl trivial
      · exact freshStep_passing taken fresh rfl rfl own
  | locking newAuthHash update =>
      exact freshStep_passing taken fresh rfl rfl own
  | vaultsCovered newAuthHash update =>
      exact freshStep_passing taken fresh rfl rfl own
  | covered newAuthHash update =>
      cases taken
      exact freshStep_commit fresh (known rfl) own apart rfl rfl
  | publishing newKeyVersion =>
      cases taken
      exact freshStep_of_unchanged fresh rfl rfl own
  | clearing newKeyVersion =>
      cases taken
      refine freshStep_return fresh own apart rfl rfl ?_
      refine List.eq_nil_iff_forall_not_mem.mpr fun secret held => ?_
      obtain ⟨method, present, owned, _⟩ := mem_unlockSecrets.mp held
      have other := (Table.mem_rows_delete.mp present).2
      simp [owned] at other
  | finished => cases taken

/-- So does an operation that fails. -/
theorem freshStep_fail (fresh : pool.shared.Fresh producedUnder userId start)
    (own : before.Fresh producedUnder start (keyVersionOf userId pool.shared.db)
      pool.shared.returned)
    (apart : before.Apart producedUnder userId pool .fail)
    (taken : fail pool.shared before = some (after, flight)) :
    FreshStep producedUnder userId start pool after flight := by
  cases before with
  | clearing newKeyVersion =>
      cases taken
      exact freshStep_return fresh own apart rfl rfl (apart.1 rfl)
  | finished => cases taken
  | _ =>
      cases taken
      exact freshStep_of_unchanged fresh rfl rfl trivial

/-- A request that arrives is sealed under the version of the account, as its check shows. -/
theorem fresh_arrive {request : AccountRequest}
    (fresh : pool.shared.Fresh producedUnder userId start)
    (exclusive : Exclusive AccountFlight.isRotating (KnownBy userId) pool)
    (apart : RotationsApart producedUnder userId pool (.spawn request))
    (taken : arrive userId pool.shared request = some (after, flight)) :
    after = pool.shared ∧ flight.isRotating = false ∧
      flight.Fresh producedUnder start (keyVersionOf userId pool.shared.db)
        pool.shared.returned := by
  obtain ⟨sealed, published⟩ := apart
  cases request with
  | write tokenKv write =>
      cases tokenKv with
      | none =>
          cases taken
          exact ⟨rfl, rfl, sealed⟩
      | some tokenKv =>
          simp only [arrive] at taken
          split at taken
          · cases taken
            exact ⟨rfl, rfl, sealed⟩
          · next current cached =>
              cases taken
              have known := cachesCurrent_of_exclusive exclusive
                (published rfl (by rw [cached]; rfl)) current cached
              split_ifs with same
              · refine ⟨rfl, rfl, fun secret held => ?_⟩
                rw [← known, ← same]
                exact sealed secret held
              · exact ⟨rfl, rfl, trivial⟩
  | registerUnlockMethod body now =>
      simp only [arrive] at taken
      split at taken
      · cases taken
        exact ⟨rfl, rfl, trivial⟩
      · next method registered =>
          cases taken
          have copies : method.wrappedMasterKey = body.wrappedMasterKey := by
            simp only [registerUnlockMethod, refuse_eq_ok, Except.ok.injEq] at registered
            rw [← registered.2.2.2]
          refine ⟨rfl, rfl, fun version listed => ?_⟩
          rw [copies]
          exact UInt32.le_trans (fresh.versions version listed).2 sealed
  | rotateCredentials newAuthHash update =>
      cases taken
      exact ⟨rfl, rfl, sealed⟩

variable (producedUnder userId) in
/-- One rotation at a time holds the lock or has still to publish, and nothing older than
the account is stored or on its way. -/
def RotatesInTurn (start : UInt32) (pool : AccountPool) : Prop :=
  Exclusive AccountFlight.isRotating (KnownBy userId) pool ∧
    pool.shared.Fresh producedUnder userId start ∧
      ∀ flight ∈ pool.threads,
        flight.Fresh producedUnder start (keyVersionOf userId pool.shared.db) pool.shared.returned

theorem rotatesInTurn_preserved (pool : AccountPool) (move : AccountMove) (next : AccountPool)
    (inTurn : RotatesInTurn producedUnder userId start pool)
    (apart : RotationsApart producedUnder userId pool move)
    (taken : (accountRequests userId).system pool move = some next) :
    RotatesInTurn producedUnder userId start next := by
  obtain ⟨exclusive, fresh, flights⟩ := inTurn
  refine ⟨?_, ?_⟩
  · refine exclusive_preserved (fun pool move =>
      RotatesInTurn producedUnder userId start pool ∧ RotationsApart producedUnder userId pool move)
      ?_ ?_ ?_ ?_ ?_ pool move next exclusive ⟨⟨exclusive, fresh, flights⟩, apart⟩ taken
    · intro account flight rests known
      cases flight with
      | locking _ _ | vaultsCovered _ _ | covered _ _ | publishing _ => contradiction
      | _ => exact known
    · exact fun _ event => nomatch event
    · intro pool request after flight worker known ⟨⟨exclusive, fresh, _⟩, apart⟩ _ _ arrives
      obtain ⟨rfl, rests, _⟩ := fresh_arrive fresh exclusive apart arrives
      exact .inl ⟨rests, known⟩
    · intro pool thread act before after flight works known ⟨_, apart⟩ stands moved
      exact knownBy_working works known (apart before stands) moved
    · intro pool thread act before after flight worker idle known ⟨⟨_, _, flights⟩, apart⟩
        present works stands moved
      refine knownBy_idling idle known present works ?_ (apart before stands) moved
      rintro tokenKv loaded write rfl
      exact (flights _ (List.mem_of_getElem? stands)).1
  · revert apart
    refine Program.system_cases (motive := fun move next =>
      RotationsApart producedUnder userId pool move →
        next.shared.Fresh producedUnder userId start ∧
          ∀ flight ∈ next.threads,
            flight.Fresh producedUnder start (keyVersionOf userId next.shared.db)
              next.shared.returned) ?_ ?_ ?_ taken
    · exact fun event => nomatch event
    · intro request after flight arrives apart
      obtain ⟨rfl, _, own⟩ := fresh_arrive fresh exclusive apart arrives
      exact ⟨fresh, forall_mem_append_singleton flights own⟩
    · intro thread act before after flight stands moved apart
      have present := List.mem_of_getElem? stands
      have step : FreshStep producedUnder userId start pool after flight := by
        cases act with
        | proceed =>
            exact freshStep_proceed fresh (flights before present)
              (exclusive.known_of_active present) (apart before stands) moved
        | fail => exact freshStep_fail fresh (flights before present) (apart before stands) moved
      exact ⟨step.shared, forall_mem_set
        (fun other there => step.others other there (flights other there)) step.own⟩

end Runs

/-- An account with no request under way, whose cache is empty or warm. -/
def restingAccount (userId : String) (db : Database) (warm : Bool) : AccountPool where
  shared :=
    { db := db
      cached := if warm then some (keyVersionOf userId db) else none
      locked := false
      returned := [] }
  threads := []

/-- In a run in which clients seal under current keys and rotations stay apart from each
other and from the writes of older keys, nothing made under an older master key is stored
once a rotation has returned. -/
theorem oldKeyGone_of_rotationsApart (producedUnder : String → UInt32) (userId : String)
    (db : Database) (warm : Bool) (run : List AccountMove)
    (apart : EveryStepAllowed (accountRequests userId).system
      (RotationsApart producedUnder userId) (restingAccount userId db warm) run) :
    EveryState (accountRequests userId).system
      (fun pool => OldKeyGone producedUnder userId pool.shared)
      (restingAccount userId db warm) run := by
  refine everyState_of_allowed rotatesInTurn_preserved
    (fun pool (inTurn : RotatesInTurn producedUnder userId (keyVersionOf userId db) pool) =>
      inTurn.2.1.oldKeyGone) ⟨?_, ⟨?_, ?_, ?_, ?_⟩, ?_⟩ apart
  · refine ⟨none, [], .refl _, nofun, nofun, rfl, ?_⟩
    intro version cached
    cases warm with
    | false => cases cached
    | true => exact (Option.some.inj cached).symm
  · exact UInt32.le_refl _
  · exact fun rotated => absurd rotated (UInt32.lt_irrefl _)
  · nofun
  · nofun
  · nofun

/-- An account with one vault, at key version 1. -/
def smallAccount : Database where
  users := Table.empty.insert
    { id := "u"
      username := "ada"
      authHash := "old-hash"
      argon2Salt := "old-salt"
      argon2Params := { mCost := 65536, tCost := 3, pCost := 4 }
      classicalPublicKey := "classical"
      pqPublicKey := "pq"
      classicalPrivEncrypted := "old-classical"
      pqPrivEncrypted := "old-pq"
      keyVersion := 1
      createdAt := 0
      isLocked := false } List.not_mem_nil
  mindMaps := Table.empty.insert
    (Vault.createMindMap "m" "u" "key"
      { titleEncrypted := "old-title"
        ephClassicalPublic := "eph"
        ephPqCiphertext := "pq"
        wrappedDek := "dek" } 0) List.not_mem_nil
  attachments := Table.empty
  unlockMethods := Table.empty

/-- A bundle that rotates the account to version 2. -/
def smallBundle : RotateCredentialsUpdate where
  newAuthToken := "token"
  newArgon2Salt := "new-salt"
  newArgon2Params := { mCost := 65536, tCost := 3, pCost := 4 }
  newClassicalPrivEncrypted := "new-classical"
  newPqPrivEncrypted := "new-pq"
  newKeyVersion := 2
  updatedVaults := [{ id := "m", titleEncrypted := "new-title", vaultNoteEncrypted := none }]
  updatedAttachments := []

/-- Only what starts with `new` was made under the new key. -/
def smallProducedUnder (secret : String) : UInt32 := if secret = "new-title" then 2 else 1

/-- A change of colour that lands before the rotation reads the vaults. -/
theorem oldKeyGone_of_rotationsApart_example :
    EveryState (accountRequests "u").system
      (fun pool => OldKeyGone smallProducedUnder "u" pool.shared)
      (restingAccount "u" smallAccount true)
      [.spawn (.write (some 1) (.updateVaultMeta "m" { vaultColor := some "red" } 1)),
        .advance 0 .proceed, .advance 0 .proceed,
        .spawn (.rotateCredentials "new-hash" smallBundle), .advance 1 .proceed,
        .advance 1 .proceed, .advance 1 .proceed, .advance 1 .proceed,
        .advance 1 .proceed, .advance 1 .proceed] :=
  oldKeyGone_of_rotationsApart _ _ _ _ _ (by decide)

/-- A change of colour that read the vault before the rotation and writes it after
puts the old title back. -/
theorem colour_change_restores_old_title :
    ¬ EveryState (accountRequests "u").system
      (fun pool => OldKeyGone smallProducedUnder "u" pool.shared)
      (restingAccount "u" smallAccount true)
      [.spawn (.write (some 1) (.updateVaultMeta "m" { vaultColor := some "red" } 1)),
        .advance 0 .proceed, .spawn (.rotateCredentials "new-hash" smallBundle),
        .advance 1 .proceed, .advance 1 .proceed, .advance 1 .proceed,
        .advance 1 .proceed, .advance 1 .proceed, .advance 1 .proceed,
        .advance 0 .proceed] := by
  decide

end Accounts
end MindMapVault
