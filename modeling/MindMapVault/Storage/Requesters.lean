import MindMapVault.Storage.Quota
import MindMapVault.Storage.Tenants

/-!
# Whose vaults a request changes

Every request of a user looks for the vault among the user's own before it does anything, and
goes on with rows that it finds under that vault. So whatever requests interleave, and wherever
they fail, nothing that belongs to the vault of another changes, and no answer is about it. One
handler is an exception: the completion of a shared attachment finds the attachment by the
share alone, whichever vault the share is of.
-/

namespace MindMapVault
namespace Storage

open Remote Threads Transition Result
open Accounts (Database StoredMindMapAttachment findOwned findAttachment)
open Shares (Store StoreWrite StoredMindMapShare StoredMindMapShareAttachment ShareFlight
  ShareReply ShareRequest ShareAct UploadUpdate)
open Vault (StoredMindMap DateTime)

/-- A request on shares or on attachments. -/
abbrev StorageRequest := ShareRequest ⊕ AttachmentRequest

/-- A request under way. -/
abbrev StorageFlight := ShareFlight ⊕ AttachmentFlight

/-- For whom a request is made. -/
inductive Requester
  | user (userId : String)
  | visitor
  | purge
  deriving DecidableEq

/-- The user whose access token a request carries. -/
def requester : StorageRequest → Requester
  | .inl (.createShare userId ..) | .inl (.uploadShareBlob userId ..)
  | .inl (.completeShareUpload userId ..) | .inl (.revokeShare userId ..)
  | .inl (.initShareAttachment userId ..) | .inl (.uploadShareAttachmentBlob userId ..)
  | .inl (.completeShareAttachmentUpload userId ..) => .user userId
  | .inl .purgeExpiredShares => .purge
  | .inl (.read ..) => .visitor
  | .inr (.initAttachment userId ..) | .inr (.uploadAttachmentBlob userId ..)
  | .inr (.completeAttachmentUpload userId ..) | .inr (.copyAttachment userId ..)
  | .inr (.deleteAttachment userId ..) => .user userId

/-- The vaults that a request may change: those of its user, or those of shares that are over. -/
def Requester.scope (store : Store) : Requester → String → Prop
  | .user userId, vault => ownsMap store.db userId vault = true
  | .visitor, _ => False
  | .purge, vault =>
      ∃ share ∈ store.shares.rows, share.mapId = vault ∧ share.isOver store.clock = true

/-- The request completes an attachment that is shared from a vault of another. -/
def Crosses (store : Store) : StorageRequest → Prop
  | .inl (.completeShareAttachmentUpload userId _ shareId _ _) =>
      ∃ share ∈ store.shares.rows, share.id = shareId ∧ ownsMap store.db userId share.mapId = false
  | _ => False

/-- The share was found under a vault in scope. -/
def HoldsShare (store : Store) (scope : String → Prop) (share : StoredMindMapShare) : Prop :=
  KeptUnder store.db scope share.mapId share.s3Key ∧ OwnsShare store scope share.id

/-- The answer is about a vault in scope, or public. -/
def ShareReplyIsFor (store : Store) (scope : String → Prop) : ShareReply → Prop
  | .share share => scope share.mapId
  | .attachment attachment => OwnsShare store scope attachment.shareId
  | .uploaded | .purged _ | .publicShare .. | .publicAttachment .. | .publicBlob .. => True

def AttachmentReplyIsFor (scope : String → Prop) : AttachmentReply → Prop
  | .attachment attachment => scope attachment.mapId
  | .uploaded | .deleted => True

/-- What an answer says, if it is not an error. -/
def Told {Reply : Type} (isFor : Reply → Prop) : Except AppError Reply → Prop
  | .ok reply => isFor reply
  | .error _ => True

/-- A request on shares is at vaults in scope. -/
def ShareFlightIsFor (store : Store) (scope : String → Prop) : ShareFlight → Prop
  | .creating _ share | .inserting share => KeptUnder store.db scope share.mapId share.s3Key
  | .completing share _ | .recording share _ | .revoking share | .listing share
  | .marking share => HoldsShare store scope share
  | .deleting share objectKeys =>
      HoldsShare store scope share ∧ ∀ key ∈ objectKeys, OwnsKey store.db scope key
  | .uploading key _ | .rollingBack key _ => OwnsKey store.db scope key
  | .reloading mapId _ => scope mapId
  | .attaching _ _ _ attachment | .insertingAttachment attachment
  | .completingAttachment attachment _ | .recordingAttachment attachment _ =>
      OwnsShared store scope attachment
  | .finding shareId _ _ | .reloadingAttachment shareId _ => OwnsShare store scope shareId
  | .sweeping _ shares => ∀ share ∈ shares, HoldsShare store scope share
  | .sweepingObjects _ share objectKeys _ rest =>
      HoldsShare store scope share ∧ (∀ key ∈ objectKeys, OwnsKey store.db scope key) ∧
        ∀ share ∈ rest, HoldsShare store scope share
  | .sweepMarking _ share rest =>
      HoldsShare store scope share ∧ ∀ share ∈ rest, HoldsShare store scope share
  | .looking .. | .found .. | .fetching .. => True
  | .answered reply => Told (ShareReplyIsFor store scope) reply

/-- A request on attachments is at vaults in scope. -/
def AttachmentFlightIsFor (store : Store) (scope : String → Prop) : AttachmentFlight → Prop
  | .initializing _ attachment | .inserting attachment | .completing attachment _
  | .recording attachment _ | .admittingCopy _ _ attachment | .copying _ attachment
  | .insertingCopy attachment | .deleting attachment | .marking attachment =>
      KeptUnder store.db scope attachment.mapId attachment.s3Key
  | .uploading key _ | .rollingBack key _ => OwnsKey store.db scope key
  | .reloading mapId _ => scope mapId
  | .answered reply => Told (AttachmentReplyIsFor scope) reply

/-- A request is at vaults in scope. -/
def IsAt (store : Store) (scope : String → Prop) : StorageFlight → Prop
  | .inl flight => ShareFlightIsFor store scope flight
  | .inr flight => AttachmentFlightIsFor store scope flight

section Stable

variable {store after : Store} (keeps : Keeps store after)

include keeps

/-- What is in scope stays in scope. -/
theorem Keeps.scope {who : Requester} {vault : String} (inScope : who.scope store vault) :
    who.scope after vault := by
  cases who with
  | user userId => exact keeps.ownsMap.trans inScope
  | visitor => exact inScope
  | purge =>
      obtain ⟨share, present, rfl, isOver⟩ := inScope
      obtain ⟨same, isSame, -, sameMap, staysOver⟩ := keeps.shares share present
      exact ⟨same, isSame, sameMap, staysOver isOver⟩

variable {scope wider : String → Prop} (widens : ∀ vault, scope vault → wider vault)

include widens

theorem Keeps.holdsShare {share : StoredMindMapShare} (holds : HoldsShare store scope share) :
    HoldsShare after wider share :=
  ⟨keeps.keptUnder widens holds.1, keeps.ownsShare widens holds.2⟩

theorem Keeps.shareReplyIsFor {reply : Except AppError ShareReply}
    (told : Told (ShareReplyIsFor store scope) reply) :
    Told (ShareReplyIsFor after wider) reply := by
  cases reply with
  | error error => trivial
  | ok reply =>
      cases reply with
      | share share => exact widens _ told
      | attachment attachment => exact keeps.ownsShare widens told
      | uploaded | purged | publicShare | publicAttachment | publicBlob => trivial

/-- What a request is at stays in scope. -/
theorem Keeps.isAt {flight : StorageFlight} (isAt : IsAt store scope flight) :
    IsAt after wider flight := by
  cases flight with
  | inl flight =>
      cases flight with
      | creating | inserting => exact keeps.keptUnder widens isAt
      | completing | recording | revoking | listing | marking =>
          exact keeps.holdsShare widens isAt
      | deleting share objectKeys =>
          exact ⟨keeps.holdsShare widens isAt.1,
            fun key listed => keeps.ownsKey widens (isAt.2 key listed)⟩
      | uploading | rollingBack => exact keeps.ownsKey widens isAt
      | reloading => exact widens _ isAt
      | attaching | insertingAttachment | completingAttachment | recordingAttachment =>
          exact keeps.ownsShared widens isAt
      | finding | reloadingAttachment => exact keeps.ownsShare widens isAt
      | sweeping => exact fun share listed => keeps.holdsShare widens (isAt share listed)
      | sweepingObjects =>
          exact ⟨keeps.holdsShare widens isAt.1,
            fun key listed => keeps.ownsKey widens (isAt.2.1 key listed),
            fun share listed => keeps.holdsShare widens (isAt.2.2 share listed)⟩
      | sweepMarking =>
          exact ⟨keeps.holdsShare widens isAt.1,
            fun share listed => keeps.holdsShare widens (isAt.2 share listed)⟩
      | looking | found | fetching => trivial
      | answered => exact keeps.shareReplyIsFor widens isAt
  | inr flight =>
      cases flight with
      | initializing | inserting | completing | recording | admittingCopy | copying
      | insertingCopy | deleting | marking => exact keeps.keptUnder widens isAt
      | uploading | rollingBack => exact keeps.ownsKey widens isAt
      | reloading => exact widens _ isAt
      | answered reply =>
          cases reply with
          | error error => trivial
          | ok reply =>
              cases reply with
              | attachment attachment => exact widens _ isAt
              | uploaded | deleted => trivial

end Stable

/-! ### What is found -/

section Found

variable {store : Store} {scope : String → Prop} {mapId shareId attachmentId : String}

theorem ownsMap_eq_true {db : Database} {userId : String} :
    ownsMap db userId mapId = true ↔
      ∃ map ∈ db.mindMaps.rows, map.id = mapId ∧ map.userId = userId := by
  simp only [ownsMap, List.any_eq_true, Bool.and_eq_true, beq_iff_eq]

theorem ownsMap_of_findOwned {db : Database} {userId : String} {map : StoredMindMap}
    (found : findOwned db mapId userId = .ok map) : ownsMap db userId mapId = true :=
  ownsMap_eq_true.mpr ⟨map, Accounts.findOwned_eq_ok.mp found⟩

/-- What a user's request makes for a vault that it has found is kept under that vault. -/
theorem keptUnder_of_findOwned {db : Database} {userId key : String} {map : StoredMindMap}
    (found : findOwned db mapId userId = .ok map)
    (under : Text.startsWith (mapsUnder mapId) key = true) :
    KeptUnder db (fun vault => ownsMap db userId vault = true) mapId key :=
  have ⟨present, same, _⟩ := Accounts.findOwned_eq_ok.mp found
  ⟨ownsMap_of_findOwned found, under, map, present, same⟩

theorem of_findShare {share : StoredMindMapShare}
    (found : store.findShare mapId shareId = .ok share) :
    share ∈ store.shares.rows ∧ share.id = shareId ∧ share.mapId = mapId := by
  unfold Store.findShare at found
  split at found
  · next looked =>
      cases found
      obtain ⟨here, ofMap⟩ := Option.filter_eq_some_iff.mp looked
      obtain ⟨present, same⟩ := Table.find?_eq_some.mp here
      exact ⟨present, same, beq_iff_eq.mp ofMap⟩
  · cases found

theorem of_findShareAttachment {attachment : StoredMindMapShareAttachment}
    (found : store.findShareAttachment shareId attachmentId = .ok attachment) :
    attachment ∈ store.shareAttachments.rows ∧ attachment.shareId = shareId := by
  unfold Store.findShareAttachment at found
  split at found
  · next looked =>
      cases found
      obtain ⟨here, kept⟩ := Option.filter_eq_some_iff.mp looked
      exact ⟨(Table.find?_eq_some.mp here).1, beq_iff_eq.mp (Bool.and_eq_true_iff.mp kept).1⟩
  · cases found

variable (tenancy : Tenancy store)

include tenancy

/-- A row of a share of a vault in scope is held. -/
theorem Tenancy.holdsRow {share : StoredMindMapShare} (present : share ∈ store.shares.rows)
    (inScope : scope share.mapId) : HoldsShare store scope share :=
  have ⟨under, map, isMap, same⟩ := tenancy.shares share present
  ⟨⟨inScope, under, map, isMap, same⟩, share, present, rfl, inScope⟩

/-- A share that is found under a vault in scope is in scope. -/
theorem Tenancy.holdsShare {share : StoredMindMapShare} (inScope : scope mapId)
    (found : store.findShare mapId shareId = .ok share) : HoldsShare store scope share := by
  obtain ⟨present, -, rfl⟩ := of_findShare found
  exact tenancy.holdsRow present inScope

theorem Tenancy.ownsShared_of_found {attachment : StoredMindMapShareAttachment}
    (owns : OwnsShare store scope shareId)
    (found : store.findShareAttachment shareId attachmentId = .ok attachment) :
    OwnsShared store scope attachment := by
  obtain ⟨present, rfl⟩ := of_findShareAttachment found
  exact tenancy.ownsShared present owns

theorem Tenancy.under_of_found {attachment : StoredMindMapAttachment}
    (found : findAttachment store.db mapId attachmentId = .ok attachment) :
    Text.startsWith (mapsUnder mapId) attachment.s3Key = true := by
  obtain ⟨present, rfl⟩ := Accounts.mem_of_findAttachment found
  exact tenancy.keyed.attachments attachment present

/-- The objects of a share in scope are in scope. -/
theorem Tenancy.ownsKeys {share : StoredMindMapShare} (holds : HoldsShare store scope share) :
    ∀ key ∈ Shares.objectKeysOf store share, OwnsKey store.db scope key := by
  intro key listed
  rcases List.mem_append.mp listed with shared | own
  · obtain ⟨attachment, isListed, rfl⟩ := List.mem_map.mp shared
    obtain ⟨present, kept⟩ := Table.mem_select.mp ((List.mem_insertionSort _).mp isListed)
    refine (tenancy.ownsShared present ?_).ownsKey
    rw [beq_iff_eq.mp (Bool.and_eq_true_iff.mp kept).1]
    exact holds.2
  · rw [List.mem_singleton.mp own]
    exact holds.1.ownsKey

end Found

/-! ### Arrivals -/

section Arrivals

variable {store : Store}

/-- What `create_share` makes of ids and a name starts with the id of the vault. -/
theorem startsWith_share (mapId id name : String) :
    Text.startsWith (mapsUnder mapId) s!"maps/{mapId}/shares/{id}/{name}" = true := by
  rw [Text.startsWith_iff]
  refine ⟨("shares/" ++ id ++ "/" ++ name).toList, ?_⟩
  simp [mapsUnder, toString, String.toList_append]

theorem startsWith_shareAttachment (mapId shareId id name : String) :
    Text.startsWith (mapsUnder mapId)
      (s!"maps/{mapId}/shares/{shareId}/attachments/{id}/" ++ name) = true := by
  rw [Text.startsWith_iff]
  refine ⟨("shares/" ++ shareId ++ "/attachments/" ++ id ++ "/" ++ name).toList, ?_⟩
  simp [mapsUnder, toString, String.toList_append]

variable (tenancy : Tenancy store)

include tenancy

/-- A request on shares that does not cross arrives at vaults of its scope. -/
theorem isAt_shareArrival (request : ShareRequest) (uncrossed : ¬Crosses store (.inl request)) :
    IsAt store ((requester (.inl request)).scope store)
      (.inl (Shares.answerOr (Shares.admitShareRequest store request))) := by
  refine Shares.answerOr_ensures
    (ShareFlightIsFor store ((requester (.inl request)).scope store)) ?_ fun _ => trivial
  cases request with
  | createShare userId mapId shareId body =>
      refine ensures_bind fun map owned => ensures_bind fun _ _ => ?_
      split
      · exact ensures_error _
      · exact ensures_ok (keptUnder_of_findOwned owned (startsWith_share _ _ _))
  | uploadShareBlob userId mapId shareId body =>
      refine ensures_ite (ensures_error _) ?_
      refine ensures_bind fun map owned => ensures_bind fun share found => ?_
      refine ensures_ite (ensures_error _) (ensures_ok ?_)
      exact (tenancy.holdsShare (ownsMap_of_findOwned owned) found).1.ownsKey
  | completeShareUpload userId mapId shareId body =>
      refine ensures_bind fun map owned => ensures_bind fun _ _ => ?_
      refine ensures_bind fun share found => ensures_ok ?_
      exact tenancy.holdsShare (ownsMap_of_findOwned owned) found
  | revokeShare userId mapId shareId =>
      refine ensures_bind fun map owned => ensures_bind fun share found => ?_
      exact ensures_ok (tenancy.holdsShare (ownsMap_of_findOwned owned) found)
  | initShareAttachment userId mapId shareId attachmentId body =>
      refine ensures_bind fun map owned => ensures_bind fun _ _ =>
        ensures_bind fun share found => ?_
      refine ensures_ite (ensures_error _) ?_
      refine ensures_ite (ensures_error _) ?_
      split
      · exact ensures_error _
      · obtain ⟨present, same, rfl⟩ := of_findShare found
        exact ensures_ok ⟨share, present, same,
          keptUnder_of_findOwned owned (startsWith_shareAttachment _ _ _ _)⟩
  | uploadShareAttachmentBlob userId mapId shareId attachmentId body =>
      refine ensures_ite (ensures_error _) ?_
      refine ensures_bind fun map owned => ensures_bind fun share found => ?_
      refine ensures_ite (ensures_error _) (ensures_ok ?_)
      obtain ⟨present, same, rfl⟩ := of_findShare found
      exact ⟨share, present, same, ownsMap_of_findOwned owned⟩
  | completeShareAttachmentUpload userId mapId shareId attachmentId body =>
      refine ensures_bind fun _ _ => ensures_bind fun _ _ => ?_
      refine ensures_bind fun attachment found => ensures_ok ?_
      -- the share is not looked for under the vault: that it is of the user's is the assumption
      obtain ⟨present, rfl⟩ := of_findShareAttachment found
      obtain ⟨share, isShare, same, -⟩ := tenancy.shareAttachments attachment present
      refine tenancy.ownsShared present ⟨share, isShare, same, ?_⟩
      by_contra isOther
      exact uncrossed ⟨share, isShare, same, Bool.eq_false_of_not_eq_true isOther⟩
  | purgeExpiredShares =>
      refine ensures_ok fun share listed => ?_
      have selected := (List.mem_insertionSort _).mp (List.mem_of_mem_take listed)
      obtain ⟨present, purgeable⟩ := Table.mem_select.mp selected
      exact tenancy.holdsRow present ⟨share, present, rfl, (Bool.and_eq_true_iff.mp purgeable).2⟩
  | read endpoint shareId => exact ensures_ok trivial

/-- A request on attachments arrives at vaults of its user. -/
theorem isAt_attachmentArrival (request : AttachmentRequest) :
    IsAt store ((requester (.inr request)).scope store)
      (.inr (answerOr (admitAttachmentRequest store request))) := by
  refine answerOr_ensures
    (AttachmentFlightIsFor store ((requester (.inr request)).scope store)) ?_ fun _ => trivial
  cases request with
  | initAttachment userId mapId attachmentId body =>
      refine ensures_bind fun map owned => ensures_bind fun _ _ => ?_
      exact ensures_ok (keptUnder_of_findOwned owned (Keyed.startsWith_attachment _ _ _))
  | uploadAttachmentBlob userId mapId attachmentId body =>
      refine ensures_ite (ensures_error _) ?_
      refine ensures_bind fun map owned => ensures_bind fun attachment found => ?_
      exact ensures_ok (keptUnder_of_findOwned owned (tenancy.under_of_found found)).ownsKey
  | completeAttachmentUpload userId mapId attachmentId body =>
      refine ensures_bind fun map owned => ensures_bind fun attachment found => ?_
      obtain ⟨-, rfl⟩ := Accounts.mem_of_findAttachment found
      exact ensures_ok (keptUnder_of_findOwned owned (tenancy.under_of_found found))
  | copyAttachment userId mapId attachmentId newId nodeId =>
      refine ensures_bind fun map owned => ensures_bind fun source found => ?_
      refine ensures_ite (ensures_error _) (ensures_ok ?_)
      exact keptUnder_of_findOwned owned (Keyed.startsWith_attachment _ _ _)
  | deleteAttachment userId mapId attachmentId =>
      refine ensures_bind fun map owned => ensures_bind fun attachment found => ?_
      obtain ⟨-, rfl⟩ := Accounts.mem_of_findAttachment found
      exact ensures_ok (keptUnder_of_findOwned owned (tenancy.under_of_found found))

end Arrivals

end Storage
end MindMapVault
