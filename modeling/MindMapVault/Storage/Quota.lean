import MindMapVault.Shares.Ended
import MindMapVault.Storage.Usage

/-!
# What requests announce

What is announced is checked against what is available by then, and counts only when
its upload is completed. No size that is announced is negative, and no step of a request
announces more than it had. So no store of a run has a row of a negative size.
-/

namespace MindMapVault
namespace Storage

open Remote Threads Transition Result
open Accounts (Database)
open Shares (Store StoreWrite ShareFlight ShareRequest ShareAct InstanceSettings)
open Vault (DateTime Bytes Objects)

/-- The next write of a request. -/
def pendingWrite : ShareFlight ⊕ AttachmentFlight → Option Write
  | .inl flight => flight.pending.map .share
  | .inr flight => flight.pending.map .attachment

/-- The row a request is going to insert. -/
def announcement : ShareFlight ⊕ AttachmentFlight → Option Announcement
  | .inl (.creating _ row) | .inl (.inserting row) => some (.share row)
  | .inl (.attaching _ _ _ row) | .inl (.insertingAttachment row) =>
      some (.shareAttachment row)
  | .inr (.initializing _ row) | .inr (.inserting row) | .inr (.admittingCopy _ _ row)
  | .inr (.copying _ row) | .inr (.insertingCopy row) => some (.attachment row)
  | _ => none

/-- The request announces no negative size. -/
def Announced (_ : Store) (flight : ShareFlight ⊕ AttachmentFlight) : Prop :=
  ∀ row ∈ announcement flight, 0 ≤ row.sizeBytes

/-- What is inserted had been announced. -/
theorem inserts_of_pendingWrite {flight : ShareFlight ⊕ AttachmentFlight} {write : Write}
    (due : pendingWrite flight = some write) :
    ∀ row ∈ write.inserts, row ∈ announcement flight := by
  intro row inserted
  cases flight with
  | inl flight =>
      obtain ⟨_, next, rfl⟩ := Option.map_eq_some_iff.mp due
      unfold ShareFlight.pending at next
      split at next <;> cases next <;> exact inserted
  | inr flight =>
      obtain ⟨_, next, rfl⟩ := Option.map_eq_some_iff.mp due
      unfold AttachmentFlight.pending at next
      split at next <;> cases next <;> first | exact inserted | cases inserted

section Announced

variable {store : Store}

/-- A size that passed its check. -/
theorem validateShareCreate_size {body : Shares.CreateMapShareRequest} {now : DateTime}
    (valid : Shares.validateShareCreate body now = .ok ()) : 0 ≤ body.sizeBytes := by
  unfold Shares.validateShareCreate at valid
  have afterName := (refuse_eq_ok.mp valid).2
  have afterType := (refuse_eq_ok.mp afterName).2
  exact not_lt.mp (refuse_eq_ok.mp afterType).1

theorem validateShareAttachmentInit_size {body : Shares.InitMapShareAttachmentRequest}
    (valid : Shares.validateShareAttachmentInit body = .ok ()) : 0 ≤ body.size := by
  unfold Shares.validateShareAttachmentInit at valid
  have afterName := (refuse_eq_ok.mp valid).2
  have afterType := (refuse_eq_ok.mp afterName).2
  exact not_lt.mp (refuse_eq_ok.mp afterType).1

theorem validateAttachmentInit_size {body : Accounts.InitAttachmentRequest}
    (valid : Accounts.validateAttachmentInit body = .ok ()) : 0 ≤ body.size := by
  unfold Accounts.validateAttachmentInit at valid
  have afterName := (refuse_eq_ok.mp valid).2
  have afterType := (refuse_eq_ok.mp afterName).2
  exact not_lt.mp (refuse_eq_ok.mp afterType).1

/-- A request on shares that has just arrived announces no negative size. -/
theorem announced_shareArrival (request : ShareRequest) :
    Announced store (.inl (Shares.answerOr (Shares.admitShareRequest store request))) := by
  refine Shares.answerOr_ensures (fun flight => Announced store (.inl flight)) ?_
    fun _ _ => nofun
  cases request with
  | createShare userId mapId shareId body =>
      refine ensures_bind fun _ _ => ensures_bind fun _ valid => ?_
      split
      · exact ensures_error _
      · refine ensures_ok ?_
        rintro _ ⟨⟩
        exact validateShareCreate_size valid
  | uploadShareBlob userId mapId shareId body
  | uploadShareAttachmentBlob userId mapId shareId attachmentId body =>
      refine ensures_ite (ensures_error _) ?_
      refine ensures_bind fun _ _ => ensures_bind fun _ _ => ?_
      exact ensures_ite (ensures_error _) (ensures_ok fun _ => nofun)
  | completeShareUpload userId mapId shareId body
  | completeShareAttachmentUpload userId mapId shareId attachmentId body =>
      refine ensures_bind fun _ _ => ensures_bind fun _ _ => ?_
      exact ensures_bind fun _ _ => ensures_ok fun _ => nofun
  | revokeShare userId mapId shareId =>
      exact ensures_bind fun _ _ => ensures_bind fun _ _ =>
        ensures_ok fun _ => nofun
  | initShareAttachment userId mapId shareId attachmentId body =>
      refine ensures_bind fun _ _ => ensures_bind fun _ valid =>
        ensures_bind fun _ _ => ?_
      refine ensures_ite (ensures_error _) ?_
      refine ensures_ite (ensures_error _) ?_
      split
      · exact ensures_error _
      · refine ensures_ok ?_
        rintro _ ⟨⟩
        exact validateShareAttachmentInit_size valid
  | purgeExpiredShares | read endpoint shareId => exact ensures_ok fun _ => nofun

/-- Where a read leads a request on shares, it announces what it announced. -/
theorem announcement_shareRead {flight after : ShareFlight}
    (read : flight.read store = some after) :
    ∀ row ∈ announcement (.inl after), row ∈ announcement (.inl flight) := by
  cases flight with
  | creating _ _ | completing _ _ | reloading _ _ | finding _ _ _
  | completingAttachment _ _ | reloadingAttachment _ _ | looking _ _ | fetching _ _ _ =>
      cases read
      refine Shares.answerOr_ensures
        (fun after => ∀ row ∈ announcement (.inl after), row ∈ announcement (.inl _))
        ?_ fun _ _ => nofun
      refine ensures_bind fun _ _ => ensures_ok ?_
      rintro _ ⟨⟩ <;> rfl
  | listing share =>
      cases read
      exact fun _ => nofun
  | attaching userId mapId sourceAttachmentId attachment =>
      cases read
      refine Shares.answerOr_ensures
        (fun after => ∀ row ∈ announcement (.inl after), row ∈ announcement (.inl _))
        ?_ fun _ _ => nofun
      cases sourceAttachmentId with
      | none =>
          refine ensures_bind fun _ _ => ensures_ok ?_
          exact fun _ => id
      | some sourceAttachmentId =>
          refine ensures_bind fun _ _ =>
            ensures_bind fun _ _ => ensures_ok ?_
          exact fun _ => id
  | sweeping cleared shares =>
      cases shares <;> cases read <;> exact fun _ => nofun
  | found endpoint share =>
      cases endpoint with
      | share | blob =>
          cases read
          exact fun _ => nofun
      | attachmentDownload attachmentId | attachmentBlob attachmentId =>
          cases read
          refine Shares.answerOr_ensures
            (fun after => ∀ row ∈ announcement (.inl after), row ∈ announcement (.inl _))
            ?_ fun _ _ => nofun
          exact ensures_bind fun _ _ => ensures_ok fun _ => nofun
  | inserting _ | uploading _ _ | recording _ _ | rollingBack _ _ | revoking _
  | deleting _ _ | marking _ | insertingAttachment _ | recordingAttachment _ _
  | sweepingObjects _ _ _ _ _ | sweepMarking _ _ _ | answered _ =>
      simp [ShareFlight.read] at read

/-- After a write or a failed read a request on shares announces nothing more. -/
theorem announcement_of_followsUp {flight : ShareFlight} (follows : flight.FollowsUp) :
    announcement (.inl flight) = none := by
  cases flight with
  | creating _ _ | inserting _ | attaching _ _ _ _ | insertingAttachment _ => exact follows.elim
  | _ => rfl

/-- A sequence of checks ends a request on attachments or goes on. -/
theorem answerOr_ensures
    (property : AttachmentFlight → Prop) {result : Except AppError AttachmentFlight}
    (ensured : Ensures property result) (refused : ∀ error, property (.answered (.error error))) :
    property (answerOr result) := by
  cases result with
  | error error => exact refused error
  | ok flight => exact ensured flight rfl

/-- A request on attachments that has just arrived announces no negative size: it
checked that of a new upload, and a copy has the size of its source. -/
theorem announced_attachmentArrival (nonneg : NonNegative store) (request : AttachmentRequest) :
    Announced store (.inr (answerOr (admitAttachmentRequest store request))) := by
  refine answerOr_ensures (fun flight => Announced store (.inr flight)) ?_
    fun _ _ => nofun
  cases request with
  | initAttachment userId mapId attachmentId body =>
      refine ensures_bind fun _ _ => ensures_bind fun _ valid =>
        ensures_ok ?_
      rintro _ ⟨⟩
      exact validateAttachmentInit_size valid
  | uploadAttachmentBlob userId mapId attachmentId body =>
      refine ensures_ite (ensures_error _) ?_
      exact ensures_bind fun _ _ => ensures_bind fun _ _ =>
        ensures_ok fun _ => nofun
  | completeAttachmentUpload userId mapId attachmentId body =>
      exact ensures_bind fun _ _ => ensures_bind fun _ _ =>
        ensures_ok fun _ => nofun
  | copyAttachment userId mapId attachmentId newId nodeId =>
      refine ensures_bind fun _ _ => ensures_bind fun source found => ?_
      refine ensures_ite (ensures_error _) (ensures_ok ?_)
      rintro _ ⟨⟩
      exact nonneg.attachments source (Accounts.mem_of_findAttachment found).1
  | deleteAttachment userId mapId attachmentId =>
      exact ensures_bind fun _ _ => ensures_bind fun _ _ =>
        ensures_ok fun _ => nofun

/-- Where a step leads a request on attachments, it announces what it announced. -/
theorem announcement_advanceAttachment {store next : Store}
    {flight after : AttachmentFlight} {act : ShareAct}
    (action : advanceAttachment store flight act = some (next, after)) :
    ∀ row ∈ announcement (.inr after), row ∈ announcement (.inr flight) := by
  cases act with
  | read =>
      obtain ⟨_, read, same⟩ := Option.map_eq_some_iff.mp action
      cases same
      cases flight with
      | initializing _ _ | completing _ _ | reloading _ _ | admittingCopy _ _ _ =>
          cases read
          refine answerOr_ensures
            (fun after => ∀ row ∈ announcement (.inr after), row ∈ announcement (.inr _))
            ?_ fun _ _ => nofun
          refine ensures_bind fun _ _ => ensures_ok ?_
          rintro _ ⟨⟩ <;> rfl
      | inserting _ | uploading _ _ | recording _ _ | rollingBack _ _ | copying _ _
      | insertingCopy _ | deleting _ | marking _ | answered _ =>
          simp [AttachmentFlight.read] at read
  | readFails error =>
      obtain ⟨_, failed, same⟩ := Option.map_eq_some_iff.mp action
      cases same
      unfold AttachmentFlight.readFails at failed
      split at failed <;> cases failed <;> exact fun _ => nofun
  | write outcome error =>
      obtain ⟨write, due, same⟩ := Option.map_eq_some_iff.mp action
      cases same
      generalize (performAttachment store write outcome error).2 = answer
      cases flight with
      | inserting _ | uploading _ _ | recording _ _ | rollingBack _ _ | insertingCopy _
      | marking _ => cases answer <;> exact fun _ => nofun
      | copying _ copy =>
          cases answer with
          | ok _ => exact fun _ => id
          | error error => exact fun _ => nofun
      | deleting attachment =>
          simp only [AttachmentFlight.resume]
          split <;> exact fun _ => nofun
      | initializing _ _ | completing _ _ | reloading _ _ | admittingCopy _ _ _
      | answered _ => simp [AttachmentFlight.pending] at due

/-- Where a step leads a request on shares, it announces what it announced. -/
theorem announcement_advanceShare {store next : Store} {flight after : ShareFlight}
    {act : ShareAct} (action : Shares.advanceShare store flight act = some (next, after)) :
    ∀ row ∈ announcement (.inl after), row ∈ announcement (.inl flight) := by
  cases act with
  | read =>
      obtain ⟨_, read, same⟩ := Option.map_eq_some_iff.mp action
      cases same
      exact announcement_shareRead read
  | readFails error =>
      obtain ⟨_, failed, same⟩ := Option.map_eq_some_iff.mp action
      cases same
      rw [announcement_of_followsUp (Shares.followsUp_readFails failed)]
      exact fun _ => nofun
  | write outcome error =>
      obtain ⟨write, due, same⟩ := Option.map_eq_some_iff.mp action
      cases same
      have next := (Option.filter_eq_some_iff.mp due).1
      rw [announcement_of_followsUp (Shares.followsUp_resume next _)]
      exact fun _ => nofun

end Announced

/-- What a step of a request does to the store: its write goes through, or nothing
happens. -/
def Steps (store : Store) (flight : ShareFlight ⊕ AttachmentFlight) :
    ShareAct → Store → Prop
  | .write outcome _, next =>
      ∃ write, pendingWrite flight = some write ∧
        (next = store ∧
            (outcome = .refused ∨ ∃ refusal, write.execute store = .error refusal) ∨
          outcome ≠ .refused ∧ write.execute store = .ok next)
  | .read, next | .readFails _, next => next = store

theorem steps_of_advance
    {store next : Store} {flight after : ShareFlight ⊕ AttachmentFlight} {act : ShareAct}
    (action : storageRequests.advance store flight act = some (next, after)) :
    Steps store flight act next := by
  cases flight with
  | inl flight =>
      obtain ⟨⟨_, _⟩, advanced, same⟩ := Option.map_eq_some_iff.mp action
      cases same
      cases act with
      | read | readFails _ =>
          obtain ⟨_, -, same⟩ := Option.map_eq_some_iff.mp advanced
          cases same
          rfl
      | write outcome error =>
          obtain ⟨write, due, same⟩ := Option.map_eq_some_iff.mp advanced
          cases same
          have next := (Option.filter_eq_some_iff.mp due).1
          exact ⟨.share write, by rw [pendingWrite, next]; rfl,
            outcome.perform_cases store (store.execute write) error⟩
  | inr flight =>
      obtain ⟨⟨_, _⟩, advanced, same⟩ := Option.map_eq_some_iff.mp action
      cases same
      cases act with
      | read | readFails _ =>
          obtain ⟨_, -, same⟩ := Option.map_eq_some_iff.mp advanced
          cases same
          rfl
      | write outcome error =>
          obtain ⟨write, due, same⟩ := Option.map_eq_some_iff.mp advanced
          cases same
          exact ⟨.attachment write, by rw [pendingWrite, due]; rfl,
            outcome.perform_cases store (executeAttachment store write) error⟩

/-- A step of a request announces nothing new. -/
theorem announcement_advance
    {store next : Store} {flight after : ShareFlight ⊕ AttachmentFlight} {act : ShareAct}
    (action : storageRequests.advance store flight act = some (next, after)) :
    ∀ row ∈ announcement after, row ∈ announcement flight := by
  cases flight with
  | inl flight =>
      obtain ⟨⟨_, _⟩, advanced, same⟩ := Option.map_eq_some_iff.mp action
      cases same
      exact announcement_advanceShare advanced
  | inr flight =>
      obtain ⟨⟨_, _⟩, advanced, same⟩ := Option.map_eq_some_iff.mp action
      cases same
      exact announcement_advanceAttachment advanced

/-- What every store of a run has. -/
def Sound (store : Store) : Prop := NonNegative store ∧ store.AttachmentsOwned

/-- A step of a request keeps what every store has. -/
theorem Sound.advance
    {store next : Store} {flight : ShareFlight ⊕ AttachmentFlight} {act : ShareAct}
    (sound : Sound store) (announced : Announced store flight)
    (steps : Steps store flight act next) : Sound next := by
  cases act with
  | read | readFails _ =>
      cases steps
      exact sound
  | write outcome error =>
      obtain ⟨write, due, ⟨rfl, -⟩ | ⟨-, executed⟩⟩ := steps
      · exact sound
      · exact ⟨sound.1.execute (fun row inserted =>
          announced row (inserts_of_pendingWrite due row inserted)) executed,
          (Write.execute_frame sound.2 executed).2⟩

/-- Every move keeps what every pool has. -/
theorem sound_preserved (pool : StoragePool) (move : StorageMove) (next : StoragePool)
    (holds : Holds Sound Announced pool) (moved : storageRequests.system pool move = some next) :
    Holds Sound Announced next := by
  refine holds_preserved (fun _ _ => True) ?_ ?_ ?_ pool move next holds trivial moved
  · intro pool now store holds _ passed
    simp only [storageRequests, Shares.shareRequests] at passed
    split_ifs at passed
    cases passed
    exact ⟨⟨⟨holds.1.1.attachments, holds.1.1.shares, holds.1.1.shareAttachments⟩,
      holds.1.2⟩, fun _ => id⟩
  · intro pool request store new holds _ arrived
    cases request with
    | inl request =>
        cases arrived
        exact ⟨holds.1, announced_shareArrival request, fun _ => id⟩
    | inr request =>
        cases arrived
        exact ⟨holds.1, announced_attachmentArrival holds.1.1 request, fun _ => id⟩
  · intro pool thread act before store after holds _ present known action
    exact ⟨holds.1.advance known (steps_of_advance action),
      fun row announced => known row (announcement_advance action row announced),
      fun _ => id⟩

/-- A store in which nothing has been announced yet. -/
def unused (db : Database) (objects : Objects) (settings : InstanceSettings)
    (clock : DateTime) : Store :=
  .unshared { db with attachments := .empty } objects settings clock

theorem sound_unused (db : Database) (objects : Objects) (settings : InstanceSettings)
    (clock : DateTime) : Sound (unused db objects settings clock) :=
  ⟨⟨by simp [unused, Store.unshared, Table.empty],
    by simp [unused, Store.unshared, Table.empty],
    by simp [unused, Store.unshared, Table.empty]⟩,
    by simp [Store.AttachmentsOwned, unused, Store.unshared, Table.empty]⟩

/-- The body of an upload of some size. -/
def uploadOf (size : Int) : Accounts.InitAttachmentRequest where
  name := "notes.pdf"
  contentType := "application/pdf"
  size := size
  nodeId := none
  encrypted := false
  encryptionMeta := none

end Storage
end MindMapVault
