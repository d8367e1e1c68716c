import MindMapVault.Shares.Purge
import MindMapVault.Storage.Deletion

/-!
# What a deletion leaves in storage

A deletion that answers with success should leave no object of the vaults it was
for, should never touch those of another vault, and should keep the rows where the
storage fails it. The second it always does. The first it does exactly where every
stored object of the vaults is one it goes by, and the third where it does not lose a
listing and then the rows. What has been shared from a vault is none of what it goes
by, and an account deletion does not go by versions either.
-/

namespace MindMapVault
namespace Storage

open Remote
open Accounts (Database StoredMindMapAttachment listMindMaps)
open Vault (StoredMindMap)

variable {calls : Calls} {holdings before : Holdings}

/-- A deletion of the vaults keeps its word: success leaves nothing of them, other
vaults keep their objects, and where the storage fails it the answer is an error and
the rows are still there. -/
structure KeepsWord
    (before : Holdings) (vaults : StoredMindMap → Prop) (deletion : Deletion) :
    Prop where
  clean : deletion.result = .ok () →
    ∀ map ∈ before.db.mindMaps.rows, vaults map →
      ∀ key, ownsKey map key = true → deletion.holdings.objects key = none
  spares : ∀ other ∈ before.db.mindMaps.rows, ¬ vaults other →
    ∀ key, ownsKey other key = true → deletion.holdings.objects key = before.objects key
  retriable : deletion.storageFailed = true →
    deletion.result ≠ .ok () ∧ before.SameRows deletion.holdings

/-- The key of an attachment of the vault that is not deleted. -/
def KeptKey (db : Database) (mapId key : String) : Prop :=
  ∃ attachment ∈ db.attachments.rows,
    attachment.mapId = mapId ∧ attachment.status ≠ .deleted ∧ attachment.s3Key = key

/-- The attachments of the vault can be read, and they and its bare key deleted. -/
structure Unhindered (calls : Calls) (db : Database) (map : StoredMindMap) : Prop where
  read : calls.attachmentsRead map.id = true
  kept : ∀ key, KeptKey db map.id key → (calls.object key).reported = true
  bare : (calls.object map.objectKey).reported = true

/-- The deletion of a vault is not told to succeed where something is left. If all
its calls go through, every object of the vault is its bare key, a version or an
attachment that is kept; if the listing fails and the objects are deleted, then the
rows are not. -/
def VaultAccountedFor (calls : Calls) (holdings : Holdings) (userId id : String) : Prop :=
  ∀ map ∈ holdings.db.mindMaps.rows, map.id = id → map.userId = userId →
    calls.ownerRead = true → Unhindered calls holdings.db map →
      (calls.listing = true →
        (∀ key ∈ holdings.listKeysUnder (versionsUnder map.objectKey),
          (calls.object key).reported = true) →
        calls.row = .done →
        ∀ key ∈ holdings.keys, ownsKey map key = true →
          key = map.objectKey ∨ Text.startsWith (versionsUnder map.objectKey) key = true ∨
            KeptKey holdings.db map.id key) ∧
      (calls.listing = false → calls.row = .refused)

/-- If all calls of an account's deletion go through, every object of its vaults is
at a bare key or that of an attachment that is kept. -/
def AccountAccountedFor (calls : Calls) (holdings : Holdings) (userId : String) : Prop :=
  (holdings.db.users.find? userId).isSome = true →
    calls.ownerRead = true → calls.mapsRead = true →
    (∀ map ∈ holdings.db.mindMaps.rows, map.userId = userId → Unhindered calls holdings.db map) →
    calls.row = .done →
    ∀ map ∈ holdings.db.mindMaps.rows, map.userId = userId →
      ∀ key ∈ holdings.keys, ownsKey map key = true →
        key = map.objectKey ∨ KeptKey holdings.db map.id key

/-- What a sequence of deletions of objects does: the rows stay, only targets are
deleted, and it succeeds exactly under a condition, where the targets are gone and a
failure of the storage went unnoticed only if one is said to. -/
structure Removes
    (before : Holdings) (targets : String → Prop) (succeeds unnoticed : Prop)
    (deletion : Deletion) : Prop where
  rows : before.SameRows deletion.holdings
  deletes : ∀ key, deletion.holdings.objects key = before.objects key ∨
    (targets key ∧ deletion.holdings.objects key = none)
  succeeds_iff : deletion.result = .ok () ↔ succeeds
  clean : succeeds → ∀ key, targets key → deletion.holdings.objects key = none
  failed : succeeds → (deletion.storageFailed = true ↔ unnoticed)

/-- What the deletions go by of the attachments of a vault. -/
theorem mem_attachmentKeys {db : Database} {mapId key : String} :
    key ∈ (listMindMapAttachments db mapId).map (·.s3Key) ↔ KeptKey db mapId key := by
  unfold listMindMapAttachments KeptKey
  rw [List.mem_map]
  refine exists_congr fun attachment => ?_
  rw [(List.perm_insertionSort _ _).mem_iff, Table.mem_select]
  simp [and_assoc]

namespace Removes

variable {targets targets' : String → Prop} {succeeds succeeds' : Prop}
variable {unnoticed unnoticed' : Prop} {deletion : Deletion}
variable {rest : Holdings → Deletion}

theorem finished (holdings : Holdings) :
    Removes holdings (fun _ => False) True False (.finished holdings) where
  rows := .refl holdings
  deletes := fun _ => .inl rfl
  succeeds_iff := iff_of_true rfl trivial
  clean := fun _ _ => False.elim
  failed := fun _ => by simp [Deletion.finished]

/-- A read that fails ends a deletion. -/
theorem unread (holdings : Holdings) (targets : String → Prop) (unnoticed : Prop) :
    Removes holdings targets False unnoticed (.unread holdings) where
  rows := .refl holdings
  deletes := fun _ => .inl rfl
  succeeds_iff := iff_of_false nofun id
  clean := False.elim
  failed := False.elim

/-- Where a deletion deletes nothing else, everything else is as before. -/
theorem spares (removes : Removes before targets succeeds unnoticed deletion)
    {key : String} (other : ¬ targets key) :
    deletion.holdings.objects key = before.objects key :=
  (removes.deletes key).resolve_right fun deleted => other deleted.1

/-- One sequence after the other. -/
theorem andThen (removes : Removes before targets succeeds unnoticed deletion)
    (later : before.SameRows deletion.holdings →
      (∀ key, ¬ targets key → deletion.holdings.objects key = before.objects key) →
      Removes deletion.holdings targets' succeeds' unnoticed' (rest deletion.holdings)) :
    Removes before (fun key => targets key ∨ targets' key) (succeeds ∧ succeeds')
      (unnoticed ∨ unnoticed') (deletion.andThen rest) := by
  have second := later removes.rows fun key => removes.spares
  cases answered : deletion.result with
  | error error =>
      have failed : ¬ succeeds := by
        rw [← removes.succeeds_iff, answered]
        exact nofun
      simp only [Deletion.andThen, answered]
      exact
        { rows := removes.rows
          deletes := fun key => (removes.deletes key).imp_right (And.imp_left .inl)
          succeeds_iff := iff_of_false (by rw [answered]; exact nofun) fun both => failed both.1
          clean := fun both => absurd both.1 failed
          failed := fun both => absurd both.1 failed }
  | ok _ =>
      have done : succeeds := removes.succeeds_iff.mp answered
      simp only [Deletion.andThen, answered]
      exact
        { rows := removes.rows.trans second.rows
          deletes := by
            intro key
            rcases second.deletes key with same | ⟨target, gone⟩
            · rw [same]
              exact (removes.deletes key).imp_right (And.imp_left .inl)
            · exact .inr ⟨.inr target, gone⟩
          succeeds_iff := second.succeeds_iff.trans ⟨fun doneToo => ⟨done, doneToo⟩, And.right⟩
          clean := by
            rintro ⟨_, doneToo⟩ key (target | target)
            · rcases second.deletes key with same | ⟨-, gone⟩
              · rw [same]
                exact removes.clean done key target
              · exact gone
            · exact second.clean doneToo key target
          failed := by
            rintro ⟨_, doneToo⟩
            rw [Bool.or_eq_true, removes.failed done, second.failed doneToo] }

/-- The same under other descriptions. -/
theorem congr (removes : Removes before targets succeeds unnoticed deletion)
    (sameTargets : ∀ key, targets key ↔ targets' key)
    (sameSucceeds : succeeds ↔ succeeds') (sameUnnoticed : unnoticed ↔ unnoticed') :
    Removes before targets' succeeds' unnoticed' deletion := by
  obtain rfl : targets = targets' := funext fun key => propext (sameTargets key)
  obtain rfl := propext sameSucceeds
  obtain rfl := propext sameUnnoticed
  exact removes

/-- Deleting a list of objects. -/
theorem deleteObjects (calls : Calls) (holdings : Holdings) (keys : List String) :
    Removes holdings (· ∈ keys) (∀ key ∈ keys, (calls.object key).reported = true) False
      (deleteObjects calls holdings keys) := by
  induction keys generalizing holdings with
  | nil => exact (finished holdings).congr (by simp) (by simp) Iff.rfl
  | cons first keys ih =>
      cases outcome : calls.object first with
      | done =>
          have rest := ih (holdings.deleteObject first)
          simp only [Storage.deleteObjects, outcome, Outcome.reported,
            Outcome.applied_done, if_true]
          exact
            { rows := (holdings.sameRows_deleteObject first).trans rest.rows
              deletes := by
                intro key
                by_cases same : key = first
                · subst same
                  rcases rest.deletes key with kept | ⟨-, gone⟩
                  · rw [kept]
                    exact .inr ⟨List.mem_cons_self, Vault.Objects.delete_self _ _⟩
                  · exact .inr ⟨List.mem_cons_self, gone⟩
                · have unchanged : (holdings.deleteObject first).objects key =
                      holdings.objects key := Vault.Objects.delete_of_ne _ same
                  rw [← unchanged]
                  exact (rest.deletes key).imp_right (And.imp_left (List.mem_cons_of_mem _))
              succeeds_iff := by simp [rest.succeeds_iff, outcome, Outcome.reported]
              clean := by
                intro reported key target
                have others : ∀ key ∈ keys, (calls.object key).reported = true :=
                  fun key later => reported key (List.mem_cons_of_mem _ later)
                rcases List.mem_cons.mp target with rfl | later
                · rcases rest.deletes key with kept | ⟨-, gone⟩
                  · rw [kept]
                    exact Vault.Objects.delete_self _ _
                  · exact gone
                · exact rest.clean others key later
              failed := fun reported => rest.failed
                fun key later => reported key (List.mem_cons_of_mem _ later) }
      | refused | unanswered =>
          have fails : ¬ ∀ key ∈ first :: keys, (calls.object key).reported = true := by
            intro all
            have ended := all first List.mem_cons_self
            rw [outcome] at ended
            exact absurd ended nofun
          simp only [Storage.deleteObjects, outcome, Outcome.reported,
            Outcome.applied_refused, Outcome.applied_unanswered, Bool.false_eq_true,
            if_false]
          exact
            { rows := ⟨rfl, rfl, rfl⟩
              deletes := by
                intro key
                by_cases same : key = first
                · subst same
                  first
                  | exact .inl rfl
                  | exact .inr ⟨List.mem_cons_self, Vault.Objects.delete_self _ _⟩
                · first
                  | exact .inl rfl
                  | exact .inl (Vault.Objects.delete_of_ne _ same)
              succeeds_iff := iff_of_false nofun fails
              clean := fun all => absurd all fails
              failed := fun all => absurd all fails }

theorem deleteAttachmentObjects (calls : Calls) (holdings : Holdings) (mapId : String) :
    Removes holdings (KeptKey holdings.db mapId)
      (∀ key, KeptKey holdings.db mapId key → (calls.object key).reported = true) False
      (deleteAttachmentObjects calls holdings (listMindMapAttachments holdings.db mapId)) :=
  (deleteObjects calls holdings _).congr (fun _ => mem_attachmentKeys)
    (forall_congr' fun _ => imp_congr_left mem_attachmentKeys) Iff.rfl

/-- Deleting the versions and the bare key of a vault. -/
theorem deleteAllVersions (calls : Calls) (holdings : Holdings) (objectKey : String) :
    Removes holdings
      (fun key => key = objectKey ∨
        (calls.listing = true ∧ Text.startsWith (versionsUnder objectKey) key = true))
      ((calls.object objectKey).reported = true ∧
        (calls.listing = true → ∀ key ∈ holdings.listKeysUnder (versionsUnder objectKey),
          (calls.object key).reported = true))
      (calls.listing = false) (deleteAllVersions calls holdings objectKey) := by
  cases listing : calls.listing with
  | false =>
      have bare := deleteObjects calls holdings [objectKey]
      simp only [Storage.deleteAllVersions, listing, Bool.false_eq_true, if_false,
        List.nil_append, Bool.not_false, Bool.or_true]
      exact
        { rows := bare.rows
          deletes := fun key => (bare.deletes key).imp_right
            (And.imp_left fun target => .inl (List.mem_singleton.mp target))
          succeeds_iff := bare.succeeds_iff.trans (by simp)
          clean := by
            rintro ⟨reported, -⟩ key (rfl | ⟨impossible, -⟩)
            · exact bare.clean (by simpa using reported) key List.mem_cons_self
            · exact absurd impossible nofun
          failed := by simp }
  | true =>
      have all := deleteObjects calls holdings
        (holdings.listKeysUnder (versionsUnder objectKey) ++ [objectKey])
      simp only [Storage.deleteAllVersions, listing, if_true, Bool.not_true,
        Bool.or_false, true_and, true_implies, Bool.true_eq_false]
      have reported :
          (∀ key ∈ holdings.listKeysUnder (versionsUnder objectKey) ++ [objectKey],
            (calls.object key).reported = true) ↔
          ((calls.object objectKey).reported = true ∧
            ∀ key ∈ holdings.listKeysUnder (versionsUnder objectKey),
              (calls.object key).reported = true) := by
        rw [List.forall_mem_append, List.forall_mem_singleton, and_comm]
      exact
        { rows := all.rows
          deletes := by
            intro key
            refine (all.deletes key).imp_right (And.imp_left fun target => ?_)
            rcases List.mem_append.mp target with version | bare
            · exact .inr (Holdings.mem_listKeysUnder.mp version).2
            · exact .inl (List.mem_singleton.mp bare)
          succeeds_iff := all.succeeds_iff.trans reported
          clean := by
            rintro succeeded key (rfl | version)
            · exact all.clean (reported.mpr succeeded) key (by simp)
            · rcases all.deletes key with same | ⟨-, gone⟩
              · cases stored : holdings.objects key with
                | none => rw [same, stored]
                | some body =>
                    refine all.clean (reported.mpr succeeded) key
                      (List.mem_append_left _ (Holdings.mem_listKeysUnder.mpr ?_))
                    exact ⟨by rw [stored]; rfl, version⟩
              · exact gone
          failed := fun succeeded => all.failed (reported.mpr succeeded) }

/-- Deleting what an account's deletion goes by. -/
theorem deleteOwnedBlobs (calls : Calls) {db : Database} (maps : List StoredMindMap)
    (holdings : Holdings) (sameDb : holdings.db = db) :
    Removes holdings
      (fun key => ∃ map ∈ maps, KeptKey db map.id key ∨ key = map.objectKey)
      (∀ map ∈ maps, Unhindered calls db map) False
      (deleteOwnedBlobs calls holdings maps) := by
  induction maps generalizing holdings with
  | nil => exact (finished holdings).congr (by simp) (by simp) Iff.rfl
  | cons map maps ih =>
      rw [Storage.deleteOwnedBlobs]
      cases read : calls.attachmentsRead map.id with
      | false =>
          simp only [Bool.not_false, if_true]
          refine (unread holdings _ False).congr (fun _ => Iff.rfl) ?_ Iff.rfl
          refine iff_of_false id fun all => ?_
          have readable := (all map List.mem_cons_self).read
          rw [read] at readable
          exact absurd readable nofun
      | true =>
          simp only [Bool.not_true, Bool.false_eq_true, if_false]
          refine Removes.congr (andThen (deleteAttachmentObjects calls holdings map.id)
            fun sameRows _ => andThen (deleteObjects calls _ [map.objectKey])
              fun sameRows' _ => ih _
                (sameRows'.db.trans (sameRows.db.trans sameDb)))
            (fun key => ?_) ?_ (by simp)
          all_goals rw [sameDb]
          · rw [List.exists_mem_cons_iff, List.mem_singleton, or_assoc]
          · rw [List.forall_mem_singleton, List.forall_mem_cons, ← and_assoc]
            refine and_congr_left' ⟨fun both => ⟨read, both.1, both.2⟩,
              fun free => ⟨free.kept, free.bare⟩⟩

end Removes

/-- A deletion that was refused before it did anything keeps its word. -/
theorem keepsWord_of_untouched (vaults : StoredMindMap → Prop) {error : AppError} :
    KeepsWord before vaults ⟨.error error, before, false⟩ where
  clean := nofun
  spares := fun _ _ _ _ _ => rfl
  retriable := nofun

theorem Deletion.andThen_assoc (first : Deletion) (second third : Holdings → Deletion) :
    (first.andThen second).andThen third =
      first.andThen fun holdings => (second holdings).andThen third := by
  cases answered : first.result with
  | error error => simp only [Deletion.andThen, answered]
  | ok _ =>
      cases later : (second first.holdings).result with
      | error error => simp only [Deletion.andThen, answered, later]
      | ok _ => simp only [Deletion.andThen, answered, later, Bool.or_assoc]

section Row

variable {targets : String → Prop} {succeeds unnoticed : Prop} {deletion : Deletion}
variable {delete : Holdings → Holdings}

/-- Where the objects could not all be deleted, the row is not tried. -/
theorem andThen_deleteRow_of_not
    (removes : Removes before targets succeeds unnoticed deletion) (fails : ¬ succeeds) :
    deletion.andThen (deleteRow calls · delete) = deletion ∧ deletion.result ≠ .ok () := by
  have stopped : deletion.result ≠ .ok () := fun ok => fails (removes.succeeds_iff.mp ok)
  cases answered : deletion.result with
  | error error => exact ⟨by simp only [Deletion.andThen, answered], nofun⟩
  | ok _ => exact absurd answered stopped

/-- Where they could, the row's deletion decides. -/
theorem andThen_deleteRow
    (removes : Removes before targets succeeds unnoticed deletion) (done : succeeds) :
    deletion.andThen (deleteRow calls · delete) =
      { deleteRow calls deletion.holdings delete with
        storageFailed := deletion.storageFailed } := by
  simp only [Deletion.andThen, removes.succeeds_iff.mpr done, deleteRow, Bool.or_false]

/-- A deletion of objects and then of the row keeps its word exactly if, when all goes
through, the objects of the vaults are among its targets, and if no failure of the
storage goes unnoticed unless the row stays. -/
theorem keepsWord_row_iff {vaults : StoredMindMap → Prop} (keyed : Keyed before.db)
    (removes : Removes before targets succeeds unnoticed deletion)
    (targetsOwned : ∀ key, targets key →
      ∃ map ∈ before.db.mindMaps.rows, vaults map ∧ ownsKey map key = true)
    (keepsObjects : ∀ holdings : Holdings, (delete holdings).objects = holdings.objects)
    (changesRows : ∀ holdings, before.SameRows holdings → ¬ before.SameRows (delete holdings)) :
    KeepsWord before vaults (deletion.andThen (deleteRow calls · delete)) ↔
      (succeeds → calls.row = .done →
        ∀ map ∈ before.db.mindMaps.rows, vaults map → ∀ key ∈ before.keys,
          ownsKey map key = true → targets key) ∧
      (succeeds → unnoticed → calls.row = .refused) := by
  have untouched : ∀ other ∈ before.db.mindMaps.rows, ¬ vaults other →
      ∀ key, ownsKey other key = true → deletion.holdings.objects key = before.objects key := by
    intro other present notOne key owns
    refine removes.spares fun target => ?_
    obtain ⟨map, mapPresent, isOne, mapOwns⟩ := targetsOwned key target
    rw [keyed.ownsKey_unique present mapPresent owns mapOwns] at notOne
    exact notOne isOne
  by_cases done : succeeds
  · rw [andThen_deleteRow removes done]
    have objects : ∀ key, (calls.row.applied delete deletion.holdings).objects key =
        deletion.holdings.objects key := by
      intro key
      rcases calls.row.applied_eq delete deletion.holdings with same | same
      · rw [same]
      · rw [same, keepsObjects]
    constructor
    · intro word
      constructor
      · intro _ rowDone map present isOne key stored owns
        by_contra missed
        have gone : (calls.row.applied delete deletion.holdings).objects key = none :=
          word.clean (by simp [deleteRow, rowDone, Outcome.reported]) map present isOne key owns
        rw [objects key, removes.spares missed] at gone
        have there := (before.listed key).mp stored
        rw [gone] at there
        exact absurd there nofun
      · intro _ overlooked
        have failed := (removes.failed done).mpr overlooked
        obtain ⟨refused, sameRows⟩ := word.retriable failed
        cases ended : calls.row with
        | done => simp [deleteRow, ended, Outcome.reported] at refused
        | refused => rfl
        | unanswered =>
            simp only [deleteRow, ended, Outcome.applied_unanswered] at sameRows
            exact absurd sameRows (changesRows _ removes.rows)
    · rintro ⟨complete, noticed⟩
      exact
        { clean := by
            intro ok map present isOne key owns
            have rowDone : calls.row = .done := by
              cases ended : calls.row with
              | done => rfl
              | refused | unanswered => simp [deleteRow, ended, Outcome.reported] at ok
            refine (objects key).trans ?_
            by_cases stored : key ∈ before.keys
            · exact removes.clean done key (complete done rowDone map present isOne key stored owns)
            · rcases removes.deletes key with same | ⟨-, gone⟩
              · rw [same]
                rw [before.listed, Bool.not_eq_true, Option.isSome_eq_false_iff,
                  Option.isNone_iff_eq_none] at stored
                exact stored
              · exact gone
          spares := fun other present notOne key owns =>
            (objects key).trans (untouched other present notOne key owns)
          retriable := by
            intro failed
            have refused := noticed done ((removes.failed done).mp failed)
            simp only [deleteRow, refused, Outcome.applied_refused, Outcome.reported]
            exact ⟨nofun, removes.rows⟩ }
  · obtain ⟨same, stopped⟩ := andThen_deleteRow_of_not removes done
    rw [same]
    refine iff_of_true ?_ ⟨fun succeeds => absurd succeeds done,
      fun succeeds => absurd succeeds done⟩
    exact
      { clean := fun ok => absurd ok stopped
        spares := untouched
        retriable := fun _ => ⟨stopped, removes.rows⟩ }

end Row

/-- What a vault's deletion goes by are keys of the vault. -/
theorem KeptKey.owned {db : Database} (keyed : Keyed db) {map : StoredMindMap}
    {key : String} (kept : KeptKey db map.id key) : ownsKey map key = true := by
  obtain ⟨attachment, present, sameMap, -, rfl⟩ := kept
  have under := keyed.attachments attachment present
  rw [sameMap] at under
  simp [ownsKey, under]

/-- No attachment of a vault is kept among its versions. -/
theorem KeptKey.not_version {db : Database} (keyed : Keyed db) {map : StoredMindMap}
    {key : String} (present : map ∈ db.mindMaps.rows)
    (version : Text.startsWith (versionsUnder map.objectKey) key = true) :
    ¬ KeptKey db map.id key := by
  rintro ⟨attachment, attachmentPresent, sameMap, -, rfl⟩
  have under := keyed.attachments attachment attachmentPresent
  rw [sameMap] at under
  obtain ⟨rest, starts⟩ := Text.startsWith_iff.mp version
  obtain ⟨otherRest, otherStarts⟩ := Text.startsWith_iff.mp under
  have uuid := (keyed.drawn map present).2
  have mapsSegment : '/' ∉ "maps".toList := by decide
  have inVersions : attachment.s3Key.toList =
      map.objectKey.toList ++ '/' :: ('v' :: '/' :: rest) := by
    rw [starts, versionsUnder, String.toList_append]
    simp
  have inMaps : attachment.s3Key.toList =
      "maps".toList ++ '/' :: (map.id.toList ++ '/' :: otherRest) := by
    rw [otherStarts, mapsUnder]
    simp [toString, String.toList_append]
  exact uuid.ne_maps (Text.segment_inj uuid.no_separator mapsSegment
    (inVersions.symm.trans inMaps)).1

/-- The deletion of the objects of a vault: its attachments, then its versions. -/
theorem Removes.vault (calls : Calls) (keyed : Keyed holdings.db) {map : StoredMindMap}
    (present : map ∈ holdings.db.mindMaps.rows) :
    Removes holdings
      (fun key => KeptKey holdings.db map.id key ∨ key = map.objectKey ∨
        (calls.listing = true ∧ Text.startsWith (versionsUnder map.objectKey) key = true))
      ((∀ key, KeptKey holdings.db map.id key → (calls.object key).reported = true) ∧
        (calls.object map.objectKey).reported = true ∧
        (calls.listing = true →
          ∀ key ∈ holdings.listKeysUnder (versionsUnder map.objectKey),
            (calls.object key).reported = true))
      (calls.listing = false)
      ((Storage.deleteAttachmentObjects calls holdings
        (listMindMapAttachments holdings.db map.id)).andThen fun holdings =>
          Storage.deleteAllVersions calls holdings map.objectKey) := by
  refine Removes.congr (Removes.andThen
    (Removes.deleteAttachmentObjects calls holdings map.id) fun _ unchanged =>
      Removes.congr (Removes.deleteAllVersions calls _ map.objectKey)
        (fun _ => Iff.rfl) ?_ Iff.rfl) (fun _ => Iff.rfl) Iff.rfl (by simp)
  refine and_congr_right' (imp_congr_right fun _ => forall_congr' fun key => ?_)
  -- the attachments that are gone by now were not among the versions
  refine imp_congr_left ?_
  rw [Holdings.mem_listKeysUnder, Holdings.mem_listKeysUnder]
  refine and_congr_left fun version => ?_
  rw [unchanged key (KeptKey.not_version keyed present version)]

/-- The deletion of a vault keeps its word exactly where it accounts for the vault. -/
theorem deleteMindMap_keepsWord_iff (keyed : Keyed holdings.db) (userId id : String) :
    KeepsWord holdings (fun map => map.id = id ∧ map.userId = userId)
        (deleteMindMap calls holdings userId id) ↔
      VaultAccountedFor calls holdings userId id := by
  rw [deleteMindMap]
  cases ownerRead : calls.ownerRead with
  | false =>
      refine iff_of_true (keepsWord_of_untouched _) ?_
      intro map _ _ _ answered
      rw [ownerRead] at answered
      exact absurd answered nofun
  | true =>
  simp only [Bool.not_true, Bool.false_eq_true, if_false]
  cases found : Accounts.findOwned holdings.db id userId with
  | error error =>
      refine iff_of_true (keepsWord_of_untouched _) ?_
      intro map present sameId owned
      rw [Accounts.findOwned_eq_ok.mpr ⟨present, sameId, owned⟩] at found
      exact absurd found nofun
  | ok map =>
  obtain ⟨present, rfl, owned⟩ := Accounts.findOwned_eq_ok.mp found
  have onlyOne : ∀ other ∈ holdings.db.mindMaps.rows, other.id = map.id → other = map :=
    fun other otherPresent sameId =>
      holdings.db.mindMaps.eq_of_key_eq otherPresent present sameId
  cases attachmentsRead : calls.attachmentsRead map.id with
  | false =>
      refine iff_of_true (keepsWord_of_untouched _) ?_
      intro other otherPresent sameId _ _ free
      have readable := free.read
      rw [sameId, attachmentsRead] at readable
      exact absurd readable nofun
  | true =>
  simp only [Bool.not_true, Bool.false_eq_true, if_false]
  rw [← Deletion.andThen_assoc, keepsWord_row_iff keyed (Removes.vault calls keyed present)]
  · constructor
    · rintro ⟨complete, noticed⟩ other otherPresent sameId _ _ free
      obtain rfl := onlyOne other otherPresent sameId
      constructor
      · intro listed versions rowDone key stored owns
        rcases complete ⟨free.kept, free.bare, fun _ => versions⟩ rowDone
          other present ⟨rfl, owned⟩ key stored owns with kept | bare | ⟨-, version⟩
        · exact .inr (.inr kept)
        · exact .inl bare
        · exact .inr (.inl version)
      · intro unlisted
        refine noticed ⟨free.kept, free.bare, fun listed => ?_⟩ unlisted
        rw [unlisted] at listed
        exact absurd listed nofun
    · intro accounted
      constructor
      · rintro ⟨kept, bare, versions⟩ rowDone other otherPresent ⟨sameId, _⟩ key stored owns
        obtain rfl := onlyOne other otherPresent sameId
        obtain ⟨listed, unlisted⟩ :=
          accounted other present rfl owned ownerRead ⟨attachmentsRead, kept, bare⟩
        cases listing : calls.listing with
        | false =>
            have refused := unlisted listing
            rw [rowDone] at refused
            exact absurd refused nofun
        | true =>
            rcases listed listing (versions listing) rowDone key stored owns with
              atBare | version | atKept
            · exact .inr (.inl atBare)
            · exact .inr (.inr ⟨rfl, version⟩)
            · exact .inl atKept
      · rintro ⟨kept, bare, _⟩ unlisted
        exact (accounted map present rfl owned ownerRead ⟨attachmentsRead, kept, bare⟩).2 unlisted
  · rintro key (kept | rfl | ⟨-, version⟩)
    · exact ⟨map, present, ⟨rfl, owned⟩, kept.owned keyed⟩
    · exact ⟨map, present, ⟨rfl, owned⟩, by simp [ownsKey]⟩
    · exact ⟨map, present, ⟨rfl, owned⟩, by simp [ownsKey, version]⟩
  · intro _
    rfl
  · intro after sameRows unchanged
    have gone : map ∉ (after.deleteMindMapRow map.id userId).db.mindMaps.rows := by
      intro stays
      simpa [owned] using (Table.mem_rows_delete.mp stays).2
    rw [unchanged.db] at gone
    exact gone present

/-- The deletion of an account keeps its word exactly where it accounts for its
vaults. -/
theorem deleteAccount_keepsWord_iff (keyed : Keyed holdings.db) (userId : String) :
    KeepsWord holdings (·.userId = userId) (deleteAccount calls holdings userId) ↔
      AccountAccountedFor calls holdings userId := by
  have selected : ∀ map, map ∈ listMindMaps holdings.db userId ↔
      map ∈ holdings.db.mindMaps.rows ∧ map.userId = userId := by
    intro map
    simp [listMindMaps]
  rw [deleteAccount]
  cases ownerRead : calls.ownerRead with
  | false =>
      refine iff_of_true (keepsWord_of_untouched _) fun _ answered => ?_
      rw [ownerRead] at answered
      contradiction
  | true =>
  simp only [Bool.not_true, Bool.false_eq_true, if_false]
  cases found : holdings.db.users.find? userId with
  | none =>
      refine iff_of_true (keepsWord_of_untouched _) fun present => ?_
      rw [found] at present
      contradiction
  | some user =>
  cases mapsRead : calls.mapsRead with
  | false =>
      refine iff_of_true (keepsWord_of_untouched _) fun _ _ answered => ?_
      rw [mapsRead] at answered
      contradiction
  | true =>
  simp only [Option.isNone_some, Bool.not_true, Bool.false_eq_true, if_false]
  rw [keepsWord_row_iff keyed
    (Removes.deleteOwnedBlobs calls (listMindMaps holdings.db userId) holdings rfl)]
  · constructor
    · rintro ⟨complete, -⟩ _ _ _ free rowDone map present owned key stored owns
      obtain ⟨other, listed, target⟩ := complete
        (fun map listed => free map ((selected map).mp listed).1 ((selected map).mp listed).2)
        rowDone map present owned key stored owns
      have otherOwns : ownsKey other key = true := by
        rcases target with kept | rfl
        · exact kept.owned keyed
        · simp [ownsKey]
      rw [keyed.ownsKey_unique present ((selected other).mp listed).1 owns otherOwns]
      exact target.symm
    · intro accounted
      refine ⟨fun free rowDone map present owned key stored owns => ?_,
        fun _ impossible => impossible.elim⟩
      have every : ∀ map ∈ holdings.db.mindMaps.rows, map.userId = userId →
          Unhindered calls holdings.db map :=
        fun map present owned => free map ((selected map).mpr ⟨present, owned⟩)
      have target := accounted (by rw [found]; rfl) ownerRead mapsRead every rowDone
        map present owned key stored owns
      exact ⟨map, (selected map).mpr ⟨present, owned⟩, target.symm⟩
  · rintro key ⟨map, listed, kept | rfl⟩
    · exact ⟨map, ((selected map).mp listed).1, ((selected map).mp listed).2, kept.owned keyed⟩
    · exact ⟨map, ((selected map).mp listed).1, ((selected map).mp listed).2, by simp [ownsKey]⟩
  · intro _
    rfl
  · intro after sameRows unchanged
    obtain ⟨present, sameId⟩ := Table.find?_eq_some.mp found
    have gone : user ∉ (after.deleteUserRow userId).db.users.rows := by
      intro stays
      simpa [sameId] using (Table.mem_rows_delete.mp stays).2
    rw [unchanged.db] at gone
    exact gone present

/-- In every reachable state, however its calls end, the deletion of a vault and both
deletions of an account keep their word exactly where they account for the objects. -/
theorem deletions_keepWord_iff (reachable : Reachable holdings) (calls : Calls)
    (userId id : String) :
    (KeepsWord holdings (fun map => map.id = id ∧ map.userId = userId)
        (deleteMindMap calls holdings userId id) ↔
      VaultAccountedFor calls holdings userId id) ∧
    (KeepsWord holdings (·.userId = userId) (deleteProfile calls holdings userId) ↔
      AccountAccountedFor calls holdings userId) ∧
    (KeepsWord holdings (·.userId = userId)
        (deleteSqlUserAccount calls holdings userId) ↔
      AccountAccountedFor calls holdings userId) :=
  ⟨deleteMindMap_keepsWord_iff reachable.keyed userId id,
    deleteAccount_keepsWord_iff reachable.keyed userId,
    deleteAccount_keepsWord_iff reachable.keyed userId⟩

section SharedVault

/-- A user. -/
def someUser : Accounts.StoredUser where
  id := "u1"
  username := "ada"
  authHash := "hash"
  argon2Salt := "salt"
  argon2Params := ⟨65536, 3, 4⟩
  classicalPublicKey := "classical"
  pqPublicKey := "pq"
  classicalPrivEncrypted := "classical private"
  pqPrivEncrypted := "pq private"
  keyVersion := 1
  createdAt := 0
  isLocked := false

/-- The user creates a vault, saves it once, shares it and uploads the share. -/
def sharing : List Event :=
  [.insertUser someUser,
    .write "u1" (.createMindMap "62ea0a57-8b2a-4fd2-8046-cf8769d81489"
      "4d1f0a11-0d5e-4a2c-9a1e-2f7d4c8b1a33"
      { titleEncrypted := "title", ephClassicalPublic := "eph", ephPqCiphertext := "pq",
        wrappedDek := "dek" } 0),
    .store (.uploadBlob (Vault.versionKey "4d1f0a11-0d5e-4a2c-9a1e-2f7d4c8b1a33"
      "7c9e6679-7425-40de-944b-e07fc1f90ae7") [1]),
    .store (.createMindMapShare (Shares.createShare "s1"
      "62ea0a57-8b2a-4fd2-8046-cf8769d81489" "u1" (Shares.shareRequest none) .null 0)),
    .store (.uploadBlob "maps/62ea0a57-8b2a-4fd2-8046-cf8769d81489/shares/s1/plan" [2])]

/-- What that leaves. -/
def sharedVault : Holdings :=
  (Transition.exec Holdings.step (.empty ⟨0, 0⟩ 0) sharing).getD (.empty ⟨0, 0⟩ 0)

theorem reachable_sharedVault : Reachable sharedVault := ⟨⟨0, 0⟩, 0, sharing, rfl⟩

/-- While its row cannot be deleted, the deletion of the shared vault keeps its word:
the answer is an error, and the row is there to try again. -/
theorem deletions_keepWord_iff_sharedVault :
    KeepsWord sharedVault
        (fun map => map.id = "62ea0a57-8b2a-4fd2-8046-cf8769d81489" ∧ map.userId = "u1")
        (deleteMindMap { Calls.allDone with row := .refused } sharedVault "u1"
          "62ea0a57-8b2a-4fd2-8046-cf8769d81489") :=
  ((deletions_keepWord_iff reachable_sharedVault
    { Calls.allDone with row := .refused } "u1"
    "62ea0a57-8b2a-4fd2-8046-cf8769d81489").1).mpr
      fun _ _ _ _ _ _ => ⟨fun _ _ => nofun, fun _ => rfl⟩

/-- Everything goes through, the vault is deleted, and the blob of its share stays in
storage. -/
theorem shared_blob_outlives_vault :
    ¬ ∀ holdings, Reachable holdings → ∀ calls userId id,
      KeepsWord holdings (fun map => map.id = id ∧ map.userId = userId)
          (deleteMindMap calls holdings userId id) ∧
        KeepsWord holdings (·.userId = userId) (deleteProfile calls holdings userId) ∧
        KeepsWord holdings (·.userId = userId) (deleteSqlUserAccount calls holdings userId) := by
  intro always
  obtain ⟨word, -, -⟩ := always sharedVault reachable_sharedVault .allDone "u1"
    "62ea0a57-8b2a-4fd2-8046-cf8769d81489"
  have gone := word.clean rfl
    (Vault.createMindMap "62ea0a57-8b2a-4fd2-8046-cf8769d81489" "u1"
      "4d1f0a11-0d5e-4a2c-9a1e-2f7d4c8b1a33"
      { titleEncrypted := "title", ephClassicalPublic := "eph", ephPqCiphertext := "pq",
        wrappedDek := "dek" } 0) (by decide) (by decide)
    "maps/62ea0a57-8b2a-4fd2-8046-cf8769d81489/shares/s1/plan" (by decide)
  revert gone
  decide

end SharedVault

end Storage
end MindMapVault
