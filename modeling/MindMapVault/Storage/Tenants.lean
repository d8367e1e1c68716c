import MindMapVault.Storage.Usage

/-!
# What belongs to a vault

The rows and objects of a vault are told from those of others by the columns that refer to it
and by the keys under its id. A write for the vaults in a scope leaves what belongs to those
out of it as it is, as long as every row is kept under the vault it refers to.
-/

namespace MindMapVault
namespace Storage

open Accounts (Database StoredMindMapAttachment)
open Shares (Store StoreWrite StoredMindMapShare StoredMindMapShareAttachment)
open Vault (StoredMindMap DateTime Bytes Objects)

/-- What is kept of a vault beside its row. -/
structure Belongings where
  attachments : List StoredMindMapAttachment
  shares : List StoredMindMapShare
  shareAttachments : List StoredMindMapShareAttachment
  objects : String → Option Bytes

/-- What belongs to a vault. -/
def belongings (store : Store) (map : StoredMindMap) : Belongings :=
  let shares := store.shares.select (·.mapId == map.id)
  { attachments := store.db.attachments.select (·.mapId == map.id)
    shares := shares
    shareAttachments := store.shareAttachments.select fun attachment =>
      shares.any (·.id == attachment.shareId)
    objects := fun key => if ownsKey map key then store.objects key else none }

/-- The key is one of a vault in scope. -/
def OwnsKey (db : Database) (scope : String → Prop) (key : String) : Prop :=
  ∃ map ∈ db.mindMaps.rows, scope map.id ∧ ownsKey map key = true

/-- The key is under that of a vault in scope. -/
def KeptUnder (db : Database) (scope : String → Prop) (mapId key : String) : Prop :=
  scope mapId ∧ Text.startsWith (mapsUnder mapId) key = true ∧
    ∃ map ∈ db.mindMaps.rows, map.id = mapId

/-- The share is of a vault in scope. -/
def OwnsShare (store : Store) (scope : String → Prop) (shareId : String) : Prop :=
  ∃ share ∈ store.shares.rows, share.id = shareId ∧ scope share.mapId

/-- The attachment is shared from a vault in scope and kept under it. -/
def OwnsShared (store : Store) (scope : String → Prop)
    (attachment : StoredMindMapShareAttachment) : Prop :=
  ∃ share ∈ store.shares.rows, share.id = attachment.shareId ∧
    KeptUnder store.db scope share.mapId attachment.s3Key

/-- The write is for a vault in scope. -/
def Write.IsFor (store : Store) (scope : String → Prop) : Write → Prop
  | .share (.createMindMapShare row) => KeptUnder store.db scope row.mapId row.s3Key
  | .share (.completeMindMapShareUpload mapId _ _)
  | .share (.setMindMapShareRevoked mapId _) => scope mapId
  | .share (.markMindMapSharePurged shareId)
  | .share (.completeMindMapShareAttachmentUpload shareId _ _) => OwnsShare store scope shareId
  | .share (.createMindMapShareAttachment row) => OwnsShared store scope row
  | .share (.uploadBlob key _) | .share (.deleteObject key) => OwnsKey store.db scope key
  | .attachment (.createMindMapAttachment row) => KeptUnder store.db scope row.mapId row.s3Key
  | .attachment (.completeMindMapAttachmentUpload mapId _ _)
  | .attachment (.markMindMapAttachmentDeleted mapId _) => scope mapId
  | .attachment (.uploadBlob key _) | .attachment (.deleteObject key)
  | .attachment (.copyObject _ key) => OwnsKey store.db scope key

/-- Every row is kept under the vault it refers to. -/
structure Tenancy (store : Store) : Prop where
  keyed : Keyed store.db
  shares : ∀ share ∈ store.shares.rows,
    Text.startsWith (mapsUnder share.mapId) share.s3Key = true ∧
      ∃ map ∈ store.db.mindMaps.rows, map.id = share.mapId
  shareAttachments : ∀ attachment ∈ store.shareAttachments.rows,
    ∃ share ∈ store.shares.rows, share.id = attachment.shareId ∧
      Text.startsWith (mapsUnder share.mapId) attachment.s3Key = true

/-- The vaults are the same, every share is of the vault it was of, and what is over stays
over. -/
structure Keeps (store after : Store) : Prop where
  mindMaps : after.db.mindMaps = store.db.mindMaps
  shares : ∀ share ∈ store.shares.rows,
    ∃ same ∈ after.shares.rows, same.id = share.id ∧ same.mapId = share.mapId ∧
      (share.isOver store.clock = true → same.isOver after.clock = true)

section Ownership

variable {store after : Store} {scope wider : String → Prop} {key vault shareId : String}
variable {map : StoredMindMap}

/-- What is in scope is not what is out of it. -/
theorem ne_of_scope {other : String} (inScope : scope vault) (apart : ¬scope other) :
    vault ≠ other := fun same => apart (same ▸ inScope)

theorem KeptUnder.ownsKey {db : Database} (kept : KeptUnder db scope vault key) :
    OwnsKey db scope key := by
  obtain ⟨inScope, under, map, present, rfl⟩ := kept
  refine ⟨map, present, inScope, ?_⟩
  rw [Storage.ownsKey, under, Bool.or_true]

theorem OwnsShared.ownsKey {attachment : StoredMindMapShareAttachment}
    (owns : OwnsShared store scope attachment) : OwnsKey store.db scope attachment.s3Key :=
  have ⟨_, _, _, kept⟩ := owns
  kept.ownsKey

theorem OwnsShared.ownsShare {attachment : StoredMindMapShareAttachment}
    (owns : OwnsShared store scope attachment) : OwnsShare store scope attachment.shareId :=
  have ⟨share, present, same, kept⟩ := owns
  ⟨share, present, same, kept.1⟩

/-- What is a share in scope is of a vault in scope. -/
theorem OwnsShare.mapId (owns : OwnsShare store scope shareId) {share : StoredMindMapShare}
    (present : share ∈ store.shares.rows) (same : share.id = shareId) : scope share.mapId := by
  obtain ⟨own, ownPresent, rfl, inScope⟩ := owns
  rw [store.shares.eq_of_key_eq present ownPresent same]
  exact inScope

/-- The attachments of a share in scope are kept under vaults in scope. -/
theorem Tenancy.ownsShared (tenancy : Tenancy store) {attachment : StoredMindMapShareAttachment}
    (present : attachment ∈ store.shareAttachments.rows)
    (owns : OwnsShare store scope attachment.shareId) : OwnsShared store scope attachment := by
  obtain ⟨share, isShare, same, under⟩ := tenancy.shareAttachments attachment present
  exact ⟨share, isShare, same, owns.mapId isShare same, under, (tenancy.shares share isShare).2⟩

/-- No key in scope is one of a vault that is not. -/
theorem Tenancy.not_ownsKey (tenancy : Tenancy store) (owns : OwnsKey store.db scope key)
    (present : map ∈ store.db.mindMaps.rows) (other : ¬scope map.id) :
    ownsKey map key = false := by
  obtain ⟨own, ownPresent, inScope, ownKey⟩ := owns
  by_contra isKey
  obtain rfl := tenancy.keyed.ownsKey_unique ownPresent present ownKey
    (Bool.eq_true_of_not_eq_false isKey)
  exact other inScope

variable (keeps : Keeps store after) (widens : ∀ vault, scope vault → wider vault)

include keeps

theorem Keeps.ownsMap {userId : String} : Storage.ownsMap after.db userId vault =
    Storage.ownsMap store.db userId vault := by
  rw [Storage.ownsMap, keeps.mindMaps, ← Storage.ownsMap]

include widens

theorem Keeps.ownsKey (owns : OwnsKey store.db scope key) : OwnsKey after.db wider key := by
  obtain ⟨map, present, inScope, ownKey⟩ := owns
  exact ⟨map, keeps.mindMaps ▸ present, widens _ inScope, ownKey⟩

theorem Keeps.keptUnder (kept : KeptUnder store.db scope vault key) :
    KeptUnder after.db wider vault key := by
  obtain ⟨inScope, under, map, present, same⟩ := kept
  exact ⟨widens _ inScope, under, map, keeps.mindMaps ▸ present, same⟩

theorem Keeps.ownsShare (owns : OwnsShare store scope shareId) :
    OwnsShare after wider shareId := by
  obtain ⟨share, present, rfl, inScope⟩ := owns
  obtain ⟨same, isSame, sameId, sameMap, -⟩ := keeps.shares share present
  exact ⟨same, isSame, sameId, sameMap ▸ widens _ inScope⟩

theorem Keeps.ownsShared {attachment : StoredMindMapShareAttachment}
    (owns : OwnsShared store scope attachment) : OwnsShared after wider attachment := by
  obtain ⟨share, present, shareId, kept⟩ := owns
  obtain ⟨same, isSame, sameId, sameMap, -⟩ := keeps.shares share present
  exact ⟨same, isSame, sameId.trans shareId, sameMap ▸ keeps.keptUnder widens kept⟩

end Ownership

/-! ### What a write keeps -/

/-- What the write inserts is kept under the vault it refers to. -/
def Write.InsertsKept (store : Store) : Write → Prop
  | .share (.createMindMapShare row) => Text.startsWith (mapsUnder row.mapId) row.s3Key = true
  | .share (.createMindMapShareAttachment row) =>
      ∃ share ∈ store.shares.rows, share.id = row.shareId ∧
        Text.startsWith (mapsUnder share.mapId) row.s3Key = true
  | .attachment (.createMindMapAttachment row) =>
      Text.startsWith (mapsUnder row.mapId) row.s3Key = true
  | _ => True

theorem Write.IsFor.insertsKept {store : Store} {scope : String → Prop} {write : Write}
    (isFor : write.IsFor store scope) : write.InsertsKept store := by
  cases write with
  | share write =>
      cases write with
      | createMindMapShare row => exact isFor.2.1
      | createMindMapShareAttachment row =>
          obtain ⟨share, present, same, -, under, -⟩ := isFor
          exact ⟨share, present, same, under⟩
      | completeMindMapShareUpload | setMindMapShareRevoked | markMindMapSharePurged
      | completeMindMapShareAttachmentUpload | uploadBlob | deleteObject => trivial
  | attachment write =>
      cases write with
      | createMindMapAttachment row => exact isFor.2.1
      | completeMindMapAttachmentUpload | markMindMapAttachmentDeleted | uploadBlob | copyObject
      | deleteObject => trivial

section Execute

variable {store after : Store} {write : Write}

/-- What is over stays over. -/
theorem isOver_mono (share : StoredMindMapShare) {now later : DateTime} (passes : now ≤ later)
    (ended : share.isOver now = true) : share.isOver later = true := by
  unfold StoredMindMapShare.isOver at ended ⊢
  rcases Bool.or_eq_true_iff.mp ended with revoked | expired
  · exact Bool.or_eq_true_iff.mpr (.inl revoked)
  · refine Bool.or_eq_true_iff.mpr (.inr ?_)
    obtain ⟨expiresAt, expires, past⟩ := (Option.any_eq_true _ _).mp expired
    have stillPast := lt_of_lt_of_le (of_decide_eq_true past) passes
    exact (Option.any_eq_true _ _).mpr ⟨expiresAt, expires, decide_eq_true stillPast⟩

/-- A change of rows that leaves their ids and vaults, and what is over. -/
theorem keeps_updateShares {condition : StoredMindMapShare → Bool}
    {change : StoredMindMapShare → StoredMindMapShare}
    (keepsId : ∀ share, (change share).id = share.id)
    (keepsMap : ∀ share, (change share).mapId = share.mapId)
    (keepsOver : ∀ share now, share.isOver now = true → (change share).isOver now = true) :
    Keeps store { store with shares := store.shares.update condition change keepsId } where
  mindMaps := rfl
  shares := by
    intro share present
    refine ⟨_, List.mem_map.mpr ⟨share, present, rfl⟩, ?_⟩
    split_ifs
    · exact ⟨keepsId share, keepsMap share, keepsOver share _⟩
    · exact ⟨rfl, rfl, id⟩

theorem keeps_of_same (mindMaps : after.db.mindMaps = store.db.mindMaps)
    (shares : after.shares = store.shares) (later : store.clock ≤ after.clock) :
    Keeps store after where
  mindMaps := mindMaps
  shares := fun share present =>
    ⟨share, shares ▸ present, rfl, rfl, isOver_mono share later⟩

/-- No write changes which vault is whose. -/
theorem keeps_execute (executed : write.execute store = .ok after) : Keeps store after := by
  cases write with
  | share write =>
      cases write with
      | createMindMapShare row =>
          simp only [Write.execute, Store.execute] at executed
          split_ifs at executed with new
          cases executed
          exact ⟨rfl, fun share present =>
            ⟨share, (Table.mem_rows_insert new).mpr (.inl present), rfl, rfl, id⟩⟩
      | completeMindMapShareUpload mapId shareId update =>
          cases executed
          exact keeps_updateShares (StoredMindMapShare.completed_id update store.clock)
            (fun _ => rfl) fun _ _ => id
      | setMindMapShareRevoked mapId shareId =>
          cases executed
          exact keeps_updateShares (StoredMindMapShare.withdrawn_id store.clock)
            (fun _ => rfl) fun _ _ _ => rfl
      | markMindMapSharePurged shareId =>
          cases executed
          exact keeps_updateShares (StoredMindMapShare.purged_id store.clock)
            (fun _ => rfl) fun _ _ _ => rfl
      | createMindMapShareAttachment row =>
          simp only [Write.execute, Store.execute] at executed
          split_ifs at executed
          cases executed
          exact keeps_of_same rfl rfl le_rfl
      | completeMindMapShareAttachmentUpload | uploadBlob | deleteObject =>
          cases executed
          exact keeps_of_same rfl rfl le_rfl
  | attachment write =>
      cases write with
      | createMindMapAttachment row =>
          simp only [Write.execute, executeAttachment] at executed
          split_ifs at executed
          cases executed
          exact keeps_of_same rfl rfl le_rfl
      | copyObject sourceKey destinationKey =>
          obtain ⟨body, rfl⟩ := executeAttachment_copyObject executed
          exact keeps_of_same rfl rfl le_rfl
      | completeMindMapAttachmentUpload | markMindMapAttachmentDeleted | uploadBlob
      | deleteObject =>
          cases executed
          exact keeps_of_same rfl rfl le_rfl

/-- Where shares stay those of their vaults and keep their keys, what is shared stays where it
is kept. -/
theorem Tenancy.updateShares (tenancy : Tenancy store) {condition : StoredMindMapShare → Bool}
    {change : StoredMindMapShare → StoredMindMapShare}
    {keepsId : ∀ share, (change share).id = share.id}
    (keeps : Keeps store { store with shares := store.shares.update condition change keepsId })
    (keepsMap : ∀ share, (change share).mapId = share.mapId)
    (keepsKey : ∀ share, (change share).s3Key = share.s3Key) :
    Tenancy { store with shares := store.shares.update condition change keepsId } where
  keyed := tenancy.keyed
  shares := by
    intro row present
    obtain ⟨share, isShare, rfl⟩ := List.mem_map.mp present
    have kept := tenancy.shares share isShare
    split_ifs
    · rw [keepsMap, keepsKey]
      exact kept
    · exact kept
  shareAttachments := by
    intro attachment present
    obtain ⟨share, isShare, sameId, under⟩ := tenancy.shareAttachments attachment present
    obtain ⟨same, isSame, id, mapId, -⟩ := keeps.shares share isShare
    exact ⟨same, isSame, id.trans sameId, mapId ▸ under⟩

/-- What is inserted under its vault leaves every row under its vault. -/
theorem Tenancy.execute (tenancy : Tenancy store) (kept : write.InsertsKept store)
    (executed : write.execute store = .ok after) : Tenancy after := by
  have keeps := keeps_execute executed
  cases write with
  | share write =>
      cases write with
      | createMindMapShare row =>
          simp only [Write.execute, Store.execute] at executed
          split_ifs at executed with new there
          cases executed
          refine ⟨tenancy.keyed, ?_, ?_⟩
          · intro share present
            rcases (Table.mem_rows_insert new).mp present with old | rfl
            · exact tenancy.shares share old
            · obtain ⟨map, isMap, same⟩ := List.any_eq_true.mp there
              exact ⟨kept, map, isMap, beq_iff_eq.mp same⟩
          · intro attachment present
            obtain ⟨share, isShare, rest⟩ := tenancy.shareAttachments attachment present
            exact ⟨share, (Table.mem_rows_insert new).mpr (.inl isShare), rest⟩
      | completeMindMapShareUpload mapId shareId update =>
          cases executed
          exact tenancy.updateShares keeps (fun _ => rfl) fun _ => rfl
      | setMindMapShareRevoked mapId shareId =>
          cases executed
          exact tenancy.updateShares keeps (fun _ => rfl) fun _ => rfl
      | markMindMapSharePurged shareId =>
          cases executed
          exact tenancy.updateShares keeps (fun _ => rfl) fun _ => rfl
      | createMindMapShareAttachment row =>
          simp only [Write.execute, Store.execute] at executed
          split_ifs at executed with new
          cases executed
          refine ⟨tenancy.keyed, tenancy.shares, fun attachment present => ?_⟩
          rcases (Table.mem_rows_insert new).mp present with old | rfl
          · exact tenancy.shareAttachments attachment old
          · exact kept
      | completeMindMapShareAttachmentUpload shareId attachmentId update =>
          cases executed
          refine ⟨tenancy.keyed, tenancy.shares, fun row present => ?_⟩
          obtain ⟨attachment, isAttachment, rfl⟩ := List.mem_map.mp present
          have kept := tenancy.shareAttachments attachment isAttachment
          split_ifs
          · exact kept
          · exact kept
      | uploadBlob | deleteObject =>
          cases executed
          exact ⟨tenancy.keyed, tenancy.shares, tenancy.shareAttachments⟩
  | attachment write =>
      cases write with
      | createMindMapAttachment row =>
          simp only [Write.execute, executeAttachment] at executed
          split_ifs at executed with new
          cases executed
          exact ⟨tenancy.keyed.insertAttachment new kept, tenancy.shares, tenancy.shareAttachments⟩
      | completeMindMapAttachmentUpload mapId attachmentId update =>
          cases executed
          exact ⟨tenancy.keyed.updateAttachments (by intro; rfl) _ _, tenancy.shares,
            tenancy.shareAttachments⟩
      | markMindMapAttachmentDeleted mapId attachmentId =>
          cases executed
          exact ⟨tenancy.keyed.updateAttachments (by intro; rfl) _ _, tenancy.shares,
            tenancy.shareAttachments⟩
      | copyObject sourceKey destinationKey =>
          obtain ⟨body, rfl⟩ := executeAttachment_copyObject executed
          exact ⟨tenancy.keyed, tenancy.shares, tenancy.shareAttachments⟩
      | uploadBlob | deleteObject =>
          cases executed
          exact ⟨tenancy.keyed, tenancy.shares, tenancy.shareAttachments⟩

end Execute

/-! ### What a write leaves -/

section Select

variable {Row : Type} {key : Row → String} {table : Table key} {view : Row → Bool}

theorem select_insert {row : Row} (new : key row ∉ table.rows.map key) (apart : view row = false) :
    (table.insert row new).select view = table.select view := by
  rw [Table.select, Table.insert, List.filter_append, List.filter_singleton, apart]
  exact List.append_nil _

theorem select_update {condition : Row → Bool} {change : Row → Row}
    (keepsKey : ∀ row, key (change row) = key row)
    (apart : ∀ row ∈ table.rows, condition row = true →
      view row = false ∧ view (change row) = false) :
    (table.update condition change keepsKey).select view = table.select view := by
  rw [Table.select, Table.select, Table.update, List.filter_map]
  have same : ∀ row ∈ table.rows,
      (view ∘ fun row => if condition row then change row else row) row = view row := by
    intro row present
    rw [Function.comp_apply]
    split_ifs with changed
    · obtain ⟨old, new⟩ := apart row present changed
      rw [old, new]
    · rfl
  rw [List.filter_congr same]
  refine (List.map_congr_left fun row present => ?_).trans (List.map_id _)
  obtain ⟨isRow, inView⟩ := List.mem_filter.mp present
  rw [if_neg, id]
  intro changed
  rw [(apart row isRow changed).1] at inView
  exact Bool.false_ne_true inView

end Select

section Leaves

variable {store after : Store} {scope : String → Prop} {map : StoredMindMap}

/-- The belongings are told from three selections and the objects. -/
theorem belongings_congr
    (attachments : after.db.attachments.select (·.mapId == map.id) =
      store.db.attachments.select (·.mapId == map.id))
    (shares : after.shares.select (·.mapId == map.id) = store.shares.select (·.mapId == map.id))
    (shareAttachments : ∀ shares : List StoredMindMapShare,
      shares = store.shares.select (·.mapId == map.id) →
      (after.shareAttachments.select fun attachment =>
          shares.any (·.id == attachment.shareId)) =
        store.shareAttachments.select fun attachment => shares.any (·.id == attachment.shareId))
    (objects : ∀ key, ownsKey map key = true → after.objects key = store.objects key) :
    belongings after map = belongings store map := by
  have sameObjects : (fun key => if ownsKey map key then after.objects key else none) =
      fun key => if ownsKey map key then store.objects key else none := by
    funext key
    split_ifs with owned
    · exact objects key owned
    · rfl
  rw [belongings, belongings, attachments, shares, shareAttachments _ rfl, sameObjects]

variable (other : ¬scope map.id)

section Objects

variable (present : map ∈ store.db.mindMaps.rows)
variable (tenancy : Tenancy store) {key : String}

include other present tenancy

theorem put_of_ownsKey (owns : OwnsKey store.db scope key) (body : Bytes) :
    ∀ wanted, ownsKey map wanted = true →
      (store.objects.put key body) wanted = store.objects wanted := by
  intro wanted owned
  refine store.objects.put_of_ne body ?_
  rintro rfl
  rw [tenancy.not_ownsKey owns present other] at owned
  exact Bool.false_ne_true owned

theorem delete_of_ownsKey (owns : OwnsKey store.db scope key) :
    ∀ wanted, ownsKey map wanted = true →
      (store.objects.delete key) wanted = store.objects wanted := by
  intro wanted owned
  refine store.objects.delete_of_ne ?_
  rintro rfl
  rw [tenancy.not_ownsKey owns present other] at owned
  exact Bool.false_ne_true owned

end Objects

include other

/-- A share in scope is of no vault out of it. -/
theorem mapId_of_ownsShare {shareId : String} (owns : OwnsShare store scope shareId) :
    ∀ share ∈ store.shares.rows, share.id = shareId → (share.mapId == map.id) = false :=
  fun _ isShare same => beq_false_of_ne (ne_of_scope (owns.mapId isShare same) other)

/-- What is shared with a share in scope is shared from no vault out of it. -/
theorem any_of_ownsShare {shareId : String} (owns : OwnsShare store scope shareId) :
    ((store.shares.select (·.mapId == map.id)).any (·.id == shareId)) = false := by
  refine List.any_eq_false.mpr fun share selected same => ?_
  obtain ⟨isShare, ofMap⟩ := Table.mem_select.mp selected
  rw [mapId_of_ownsShare other owns share isShare (beq_iff_eq.mp same)] at ofMap
  exact Bool.false_ne_true ofMap

/-- A change of shares in scope. -/
theorem belongings_updateShares {condition : StoredMindMapShare → Bool}
    {change : StoredMindMapShare → StoredMindMapShare}
    (keepsId : ∀ share, (change share).id = share.id)
    (keepsMap : ∀ share, (change share).mapId = share.mapId)
    (own : ∀ share ∈ store.shares.rows, condition share = true → scope share.mapId) :
    belongings { store with shares := store.shares.update condition change keepsId } map =
      belongings store map := by
  refine belongings_congr rfl (select_update keepsId fun share isShare changed => ?_)
    (fun _ _ => rfl) fun _ _ => rfl
  have apart := beq_false_of_ne (ne_of_scope (own share isShare changed) other)
  rw [keepsMap]
  exact ⟨apart, apart⟩

/-- A change of attachments of a vault in scope. -/
theorem belongings_updateAttachments {vault : String} {condition : StoredMindMapAttachment → Bool}
    {change : StoredMindMapAttachment → StoredMindMapAttachment}
    (keepsId : ∀ attachment, (change attachment).id = attachment.id)
    (keepsMap : ∀ attachment, (change attachment).mapId = attachment.mapId) (own : scope vault)
    (ofVault : ∀ attachment, condition attachment = true → attachment.mapId = vault) :
    belongings { store with
      db := { store.db with
        attachments := store.db.attachments.update condition change keepsId } } map =
      belongings store map := by
  refine belongings_congr (select_update keepsId fun attachment _ changed => ?_) rfl
    (fun _ _ => rfl) fun _ _ => rfl
  have apart := ne_of_scope own other
  rw [keepsMap, ofVault attachment changed]
  exact ⟨beq_false_of_ne apart, beq_false_of_ne apart⟩

/-- A write for a vault in scope leaves what belongs to those out of it. -/
theorem Write.IsFor.leaves {write : Write} (tenancy : Tenancy store)
    (present : map ∈ store.db.mindMaps.rows) (isFor : write.IsFor store scope)
    (executed : write.execute store = .ok after) :
    belongings after map = belongings store map := by
  cases write with
  | share write =>
      cases write with
      | createMindMapShare row =>
          simp only [Write.execute, Store.execute] at executed
          split_ifs at executed with new
          cases executed
          exact belongings_congr rfl
            (select_insert new (beq_false_of_ne (ne_of_scope isFor.1 other)))
            (fun _ _ => rfl) fun _ _ => rfl
      | completeMindMapShareUpload mapId shareId update =>
          cases executed
          refine belongings_updateShares other _ (fun _ => rfl) fun share _ changed => ?_
          rw [beq_iff_eq.mp (Bool.and_eq_true_iff.mp changed).1]
          exact isFor
      | setMindMapShareRevoked mapId shareId =>
          cases executed
          refine belongings_updateShares other _ (fun _ => rfl) fun share _ changed => ?_
          rw [beq_iff_eq.mp (Bool.and_eq_true_iff.mp changed).1]
          exact isFor
      | markMindMapSharePurged shareId =>
          cases executed
          exact belongings_updateShares other _ (fun _ => rfl)
            fun share isShare changed => isFor.mapId isShare (beq_iff_eq.mp changed)
      | createMindMapShareAttachment row =>
          simp only [Write.execute, Store.execute] at executed
          split_ifs at executed with new
          cases executed
          refine belongings_congr rfl rfl (fun shares same => select_insert new ?_) fun _ _ => rfl
          rw [same]
          exact any_of_ownsShare other isFor.ownsShare
      | completeMindMapShareAttachmentUpload shareId attachmentId update =>
          cases executed
          refine belongings_congr rfl rfl (fun shares same =>
            select_update (StoredMindMapShareAttachment.completed_id update) ?_) fun _ _ => rfl
          intro row _ changed
          obtain ⟨ofShare, -⟩ := Bool.and_eq_true_iff.mp (Bool.and_eq_true_iff.mp changed).1
          have apart := any_of_ownsShare other isFor
          rw [← beq_iff_eq.mp ofShare, ← same] at apart
          exact ⟨apart, apart⟩
      | uploadBlob key body =>
          cases executed
          exact belongings_congr rfl rfl (fun _ _ => rfl)
            (put_of_ownsKey other present tenancy isFor body)
      | deleteObject key =>
          cases executed
          exact belongings_congr rfl rfl (fun _ _ => rfl)
            (delete_of_ownsKey other present tenancy isFor)
  | attachment write =>
      cases write with
      | createMindMapAttachment row =>
          simp only [Write.execute, executeAttachment] at executed
          split_ifs at executed with new
          cases executed
          exact belongings_congr
            (select_insert new (beq_false_of_ne (ne_of_scope isFor.1 other)))
            rfl (fun _ _ => rfl) fun _ _ => rfl
      | completeMindMapAttachmentUpload mapId attachmentId update =>
          cases executed
          refine belongings_updateAttachments other _ (fun _ => rfl) isFor fun attachment kept => ?_
          exact beq_iff_eq.mp (Bool.and_eq_true_iff.mp (Bool.and_eq_true_iff.mp kept).1).1
      | markMindMapAttachmentDeleted mapId attachmentId =>
          cases executed
          refine belongings_updateAttachments other _ (fun _ => rfl) isFor fun attachment kept => ?_
          exact beq_iff_eq.mp (Bool.and_eq_true_iff.mp (Bool.and_eq_true_iff.mp kept).1).1
      | uploadBlob key body =>
          cases executed
          exact belongings_congr rfl rfl (fun _ _ => rfl)
            (put_of_ownsKey other present tenancy isFor body)
      | copyObject sourceKey destinationKey =>
          obtain ⟨body, rfl⟩ := executeAttachment_copyObject executed
          exact belongings_congr rfl rfl (fun _ _ => rfl)
            (put_of_ownsKey other present tenancy isFor body)
      | deleteObject key =>
          cases executed
          exact belongings_congr rfl rfl (fun _ _ => rfl)
            (delete_of_ownsKey other present tenancy isFor)

end Leaves

end Storage
end MindMapVault
