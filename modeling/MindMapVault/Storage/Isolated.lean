import MindMapVault.Storage.Requesters

/-!
# Every vault is left to its owner

A step of a request leads it to something else in its scope, and writes for vaults of its scope.
So in every run whose arrivals do not cross, what belongs to a vault changes in steps of its
owner's requests, and of the purge where a share of the vault is over, and every answer is about
vaults in the scope of the request. What a completion that crosses can do is told exactly: where
the object of another's shared attachment is stored, a statement that fails makes the handler
delete it.
-/

namespace MindMapVault
namespace Storage

open Remote Threads Transition Result
open Accounts (Database StoredMindMapAttachment findOwned findAttachment)
open Shares (Store StoreWrite StoredMindMapShare StoredMindMapShareAttachment ShareFlight
  ShareReply ShareRequest ShareAct UploadUpdate)
open Vault (StoredMindMap DateTime)

/-! ### Steps -/

section Steps

variable {store : Store} {scope : String → Prop}

section Reads

variable (tenancy : Tenancy store)

include tenancy

/-- A read leads a request on shares to something else in scope. -/
theorem isAt_shareRead {flight after : ShareFlight} (isAt : IsAt store scope (.inl flight))
    (read : flight.read store = some after) : IsAt store scope (.inl after) := by
  cases flight with
  | creating | completing | completingAttachment =>
      cases read
      refine Shares.answerOr_ensures (ShareFlightIsFor store scope) ?_ fun _ => trivial
      exact ensures_bind fun _ _ => ensures_ok isAt
  | reloading mapId shareId =>
      cases read
      refine Shares.answerOr_ensures (ShareFlightIsFor store scope) ?_ fun _ => trivial
      exact ensures_bind fun share found =>
        ensures_ok (tenancy.holdsShare isAt found).1.1
  | listing share =>
      cases read
      exact ⟨isAt, tenancy.ownsKeys isAt⟩
  | attaching userId mapId sourceAttachmentId attachment =>
      cases read
      refine Shares.answerOr_ensures (ShareFlightIsFor store scope) ?_ fun _ => trivial
      cases sourceAttachmentId with
      | none => exact ensures_bind fun _ _ => ensures_ok isAt
      | some sourceAttachmentId =>
          exact ensures_bind fun _ _ => ensures_bind fun _ _ =>
            ensures_ok isAt
  | finding shareId attachmentId body =>
      cases read
      refine Shares.answerOr_ensures (ShareFlightIsFor store scope) ?_ fun _ => trivial
      exact ensures_bind fun attachment found =>
        ensures_ok (tenancy.ownsShared_of_found isAt found).ownsKey
  | reloadingAttachment shareId attachmentId =>
      cases read
      refine Shares.answerOr_ensures (ShareFlightIsFor store scope) ?_ fun _ => trivial
      exact ensures_bind fun attachment found =>
        ensures_ok (tenancy.ownsShared_of_found isAt found).ownsShare
  | sweeping cleared shares =>
      cases shares with
      | nil =>
          cases read
          trivial
      | cons share rest =>
          cases read
          obtain ⟨holds, others⟩ := List.forall_mem_cons.mp isAt
          exact ⟨holds, tenancy.ownsKeys holds, others⟩
  | looking | fetching =>
      cases read
      refine Shares.answerOr_ensures (ShareFlightIsFor store scope) ?_ fun _ => trivial
      exact ensures_bind fun _ _ => ensures_ok trivial
  | found endpoint share =>
      cases endpoint with
      | share | blob =>
          cases read
          trivial
      | attachmentDownload attachmentId | attachmentBlob attachmentId =>
          cases read
          refine Shares.answerOr_ensures (ShareFlightIsFor store scope) ?_ fun _ => trivial
          exact ensures_bind fun _ _ => ensures_ok trivial
  | inserting | uploading | recording | rollingBack | revoking | deleting | marking
  | insertingAttachment | recordingAttachment | sweepingObjects | sweepMarking | answered =>
      simp [ShareFlight.read] at read

end Reads

/-- A read leads a request on attachments to something else in scope. -/
theorem isAt_attachmentRead {flight after : AttachmentFlight}
    (isAt : IsAt store scope (.inr flight)) (read : flight.read store = some after) :
    IsAt store scope (.inr after) := by
  cases flight with
  | initializing | completing | admittingCopy =>
      cases read
      refine answerOr_ensures (AttachmentFlightIsFor store scope) ?_ fun _ => trivial
      exact ensures_bind fun _ _ => ensures_ok isAt
  | reloading mapId attachmentId =>
      cases read
      refine answerOr_ensures (AttachmentFlightIsFor store scope) ?_ fun _ => trivial
      refine ensures_bind fun attachment found => ensures_ok ?_
      obtain ⟨-, rfl⟩ := Accounts.mem_of_findAttachment found
      exact isAt
  | inserting | uploading | recording | rollingBack | copying | insertingCopy | deleting
  | marking | answered => simp [AttachmentFlight.read] at read

/-- After a read that failed nothing is told, or the purge goes on. -/
theorem isAt_shareReadFails {flight after : ShareFlight} {error : AppError}
    (isAt : IsAt store scope (.inl flight)) (failed : flight.readFails error = some after) :
    IsAt store scope (.inl after) := by
  unfold ShareFlight.readFails at failed
  split at failed
  case h_12 =>
      cases failed
      exact (List.forall_mem_cons.mp isAt).2
  case h_13 => cases failed
  all_goals
    cases failed
    trivial

theorem isAt_attachmentReadFails {flight after : AttachmentFlight} {error : AppError}
    (failed : flight.readFails error = some after) : IsAt store scope (.inr after) := by
  unfold AttachmentFlight.readFails at failed
  split at failed <;> cases failed <;> trivial

/-- A write of a request is for a vault in scope. -/
theorem isFor_of_pendingWrite {flight : StorageFlight} {write : Write}
    (isAt : IsAt store scope flight) (due : pendingWrite flight = some write) :
    write.IsFor store scope := by
  cases flight with
  | inl flight =>
      obtain ⟨row, next, rfl⟩ := Option.map_eq_some_iff.mp due
      cases flight with
      | inserting | uploading | rollingBack | insertingAttachment =>
          cases next
          exact isAt
      | recording | revoking =>
          cases next
          exact isAt.1.1
      | marking =>
          cases next
          exact isAt.2
      | recordingAttachment =>
          cases next
          exact isAt.ownsShare
      | deleting share objectKeys =>
          cases objectKeys with
          | nil => simp [ShareFlight.pending] at next
          | cons objectKey objectKeys =>
              cases next
              exact isAt.2 objectKey (List.mem_cons_self ..)
      | sweepingObjects cleared share objectKeys failed rest =>
          cases objectKeys with
          | nil => simp [ShareFlight.pending] at next
          | cons objectKey objectKeys =>
              cases next
              exact isAt.2.1 objectKey (List.mem_cons_self ..)
      | sweepMarking =>
          cases next
          exact isAt.1.2
      | creating | completing | reloading | listing | attaching | finding
      | completingAttachment | reloadingAttachment | sweeping | looking | found | fetching
      | answered => simp [ShareFlight.pending] at next
  | inr flight =>
      obtain ⟨row, next, rfl⟩ := Option.map_eq_some_iff.mp due
      cases flight with
      | inserting | insertingCopy | uploading | rollingBack =>
          cases next
          exact isAt
      | recording | marking =>
          cases next
          exact isAt.1
      | deleting | copying =>
          cases next
          exact isAt.ownsKey
      | initializing | completing | reloading | admittingCopy | answered =>
          simp [AttachmentFlight.pending] at next

/-- After a write a request on shares is at something else in scope. -/
theorem isAt_shareResume {flight : ShareFlight} {write : StoreWrite}
    (isAt : IsAt store scope (.inl flight)) (due : flight.pending = some write)
    (answer : Except AppError Unit) : IsAt store scope (.inl (flight.resume answer)) := by
  cases flight with
  | inserting =>
      cases answer with
      | error => trivial
      | ok => exact isAt.1
  | uploading | rollingBack => cases answer <;> trivial
  | recording =>
      cases answer with
      | error => exact isAt.1.ownsKey
      | ok => exact isAt.1.1
  | revoking =>
      cases answer with
      | error => trivial
      | ok => exact isAt
  | marking =>
      cases answer with
      | error => trivial
      | ok => exact isAt.1.1
  | insertingAttachment =>
      cases answer with
      | error => trivial
      | ok => exact isAt.ownsShare
  | recordingAttachment =>
      cases answer with
      | error => exact isAt.ownsKey
      | ok => exact isAt.ownsShare
  | deleting share objectKeys =>
      cases objectKeys with
      | nil => simp [ShareFlight.pending] at due
      | cons objectKey objectKeys =>
          simp only [ShareFlight.resume]
          split
          · trivial
          · exact isAt.1
          · exact ⟨isAt.1, fun key listed => isAt.2 key (List.mem_cons_of_mem _ listed)⟩
  | sweepingObjects cleared share objectKeys failed rest =>
      cases objectKeys with
      | nil => simp [ShareFlight.pending] at due
      | cons objectKey objectKeys =>
          simp only [ShareFlight.resume]
          split
          · exact isAt.2.2
          · exact ⟨isAt.1, isAt.2.2⟩
          · exact ⟨isAt.1, fun key listed => isAt.2.1 key (List.mem_cons_of_mem _ listed), isAt.2.2⟩
  | sweepMarking => cases answer <;> exact isAt.2
  | creating | completing | reloading | listing | attaching | finding | completingAttachment
  | reloadingAttachment | sweeping | looking | found | fetching | answered =>
      simp [ShareFlight.pending] at due

/-- After a write a request on attachments is at something else in scope. -/
theorem isAt_attachmentResume {flight : AttachmentFlight} {write : AttachmentWrite}
    (isAt : IsAt store scope (.inr flight)) (due : flight.pending = some write)
    (answer : Except AppError Unit) : IsAt store scope (.inr (flight.resume answer)) := by
  cases flight with
  | inserting =>
      cases answer with
      | error => trivial
      | ok => exact isAt.1
  | uploading | rollingBack | marking => cases answer <;> trivial
  | recording | insertingCopy =>
      cases answer with
      | error => exact isAt.ownsKey
      | ok => exact isAt.1
  | copying =>
      cases answer with
      | error => trivial
      | ok => exact isAt
  | deleting attachment =>
      simp only [AttachmentFlight.resume]
      split
      · trivial
      · exact isAt
  | initializing | completing | reloading | admittingCopy | answered =>
      simp [AttachmentFlight.pending] at due

/-- A step leads a request on by a read, a read that failed, or the answer to a write. -/
theorem advance_cases {next : Store} {flight after : StorageFlight} {act : ShareAct}
    {motive : StorageFlight → Prop}
    (shareRead : ∀ before after, flight = .inl before → before.read store = some after →
      motive (.inl after))
    (attachmentRead : ∀ before after, flight = .inr before → before.read store = some after →
      motive (.inr after))
    (shareReadFails : ∀ before after error, flight = .inl before →
      before.readFails error = some after → motive (.inl after))
    (attachmentReadFails : ∀ before after error, flight = .inr before →
      before.readFails error = some after → motive (.inr after))
    (shareResume : ∀ before write answer, flight = .inl before →
      before.pending = some write → motive (.inl (before.resume answer)))
    (attachmentResume : ∀ before write answer, flight = .inr before →
      before.pending = some write → motive (.inr (before.resume answer)))
    (action : storageRequests.advance store flight act = some (next, after)) :
    motive after := by
  cases flight with
  | inl flight =>
      obtain ⟨⟨_, _⟩, advanced, same⟩ := Option.map_eq_some_iff.mp action
      cases same
      cases act with
      | read =>
          obtain ⟨_, read, same⟩ := Option.map_eq_some_iff.mp advanced
          cases same
          exact shareRead _ _ rfl read
      | readFails error =>
          obtain ⟨_, failed, same⟩ := Option.map_eq_some_iff.mp advanced
          cases same
          exact shareReadFails _ _ _ rfl failed
      | write outcome error =>
          obtain ⟨write, due, same⟩ := Option.map_eq_some_iff.mp advanced
          cases same
          exact shareResume _ _ _ rfl (Option.filter_eq_some_iff.mp due).1
  | inr flight =>
      obtain ⟨⟨_, _⟩, advanced, same⟩ := Option.map_eq_some_iff.mp action
      cases same
      cases act with
      | read =>
          obtain ⟨_, read, same⟩ := Option.map_eq_some_iff.mp advanced
          cases same
          exact attachmentRead _ _ rfl read
      | readFails error =>
          obtain ⟨_, failed, same⟩ := Option.map_eq_some_iff.mp advanced
          cases same
          exact attachmentReadFails _ _ _ rfl failed
      | write outcome error =>
          obtain ⟨write, due, same⟩ := Option.map_eq_some_iff.mp advanced
          cases same
          exact attachmentResume _ _ _ rfl due

/-- A step leads a request to something else in scope. -/
theorem isAt_advance {next : Store} {flight after : StorageFlight} {act : ShareAct}
    (tenancy : Tenancy store) (isAt : IsAt store scope flight)
    (action : storageRequests.advance store flight act = some (next, after)) :
    IsAt store scope after := by
  refine advance_cases (motive := IsAt store scope) ?_ ?_ ?_ ?_ ?_ ?_ action
  · rintro _ _ rfl read
    exact isAt_shareRead tenancy isAt read
  · rintro _ _ rfl read
    exact isAt_attachmentRead isAt read
  · rintro _ _ _ rfl failed
    exact isAt_shareReadFails isAt failed
  · rintro _ _ _ rfl failed
    exact isAt_attachmentReadFails failed
  · rintro _ _ answer rfl due
    exact isAt_shareResume isAt due answer
  · rintro _ _ answer rfl due
    exact isAt_attachmentResume isAt due answer

/-- What a step does to the store leaves what belongs to vaults out of scope. -/
theorem leaves_advance {next : Store} {flight : StorageFlight} {act : ShareAct}
    {map : StoredMindMap} (tenancy : Tenancy store) (isAt : IsAt store scope flight)
    (steps : Steps store flight act next) (present : map ∈ store.db.mindMaps.rows)
    (other : ¬scope map.id) : belongings next map = belongings store map := by
  cases act with
  | read | readFails _ =>
      cases steps
      rfl
  | write outcome error =>
      obtain ⟨write, due, ⟨rfl, -⟩ | ⟨-, executed⟩⟩ := steps
      · rfl
      · exact (isFor_of_pendingWrite isAt due).leaves other tenancy present executed

/-- What a step does to the store keeps every row under its vault, and every vault. -/
theorem kept_advance {next : Store} {flight : StorageFlight} {act : ShareAct}
    (tenancy : Tenancy store) (isAt : IsAt store scope flight)
    (steps : Steps store flight act next) : Tenancy next ∧ Keeps store next := by
  cases act with
  | read | readFails _ =>
      cases steps
      exact ⟨tenancy, keeps_of_same rfl rfl le_rfl⟩
  | write outcome error =>
      obtain ⟨write, due, ⟨rfl, -⟩ | ⟨-, executed⟩⟩ := steps
      · exact ⟨tenancy, keeps_of_same rfl rfl le_rfl⟩
      · exact ⟨tenancy.execute (isFor_of_pendingWrite isAt due).insertsKept executed,
          keeps_execute executed⟩

end Steps

/-! ### Runs -/

/-- The store and the requests under way, each with what it asked. -/
abbrev AskedPool := Pool Store (StorageRequest × StorageFlight)

/-- The requests, each with what it asked. -/
abbrev askedRequests := storageRequests.remembering

/-- That what a request asked is remembered changes no run. -/
theorem askedRequests_exec (pool : AskedPool) (moves : List StorageMove) :
    (exec askedRequests.system pool moves).map Program.forget =
      exec storageRequests.system (Program.forget pool) moves :=
  storageRequests.forget_exec pool moves

/-- No arrival completes an attachment that is shared from a vault of another. -/
def Uncrossed (pool : AskedPool) : StorageMove → Prop
  | .spawn request => ¬Crosses pool.shared request
  | _ => True

instance (store : Store) (request : StorageRequest) : Decidable (Crosses store request) := by
  unfold Crosses
  split <;> infer_instance

instance (pool : AskedPool) (move : StorageMove) : Decidable (Uncrossed pool move) := by
  unfold Uncrossed
  split <;> infer_instance

/-- Whoever moves changes nothing that belongs to a vault out of its scope, and time alone and
arrivals change nothing. -/
def LeavesOthers (pool : AskedPool) (move : StorageMove) (next : AskedPool) : Prop :=
  ∀ map ∈ pool.shared.db.mindMaps.rows,
    belongings next.shared map = belongings pool.shared map ∨
      ∃ thread act own, move = .advance thread act ∧ pool.threads[thread]? = some own ∧
        (requester own.1).scope pool.shared map.id

/-- Every answer is about a vault in the scope of its request. -/
def TellsOwn (pool : AskedPool) : Prop :=
  ∀ own ∈ pool.threads,
    (∀ reply, own.2 = .inl (.answered reply) →
        Told (ShareReplyIsFor pool.shared ((requester own.1).scope pool.shared)) reply) ∧
      ∀ reply, own.2 = .inr (.answered reply) →
        Told (AttachmentReplyIsFor ((requester own.1).scope pool.shared)) reply

/-- What holds while nothing crosses: every row is kept under its vault, and every request is at
vaults in its scope. -/
def Isolated : AskedPool → Prop :=
  Holds Tenancy fun store own => IsAt store ((requester own.1).scope store) own.2

theorem isolated_preserved (pool : AskedPool) (move : StorageMove) (next : AskedPool)
    (isolated : Isolated pool) (uncrossed : Uncrossed pool move)
    (moved : askedRequests.system pool move = some next) : Isolated next := by
  refine holds_preserved Uncrossed ?_ ?_ ?_ pool move next isolated uncrossed moved
  · intro pool now store holds _ passed
    simp only [askedRequests, Program.remembering, storageRequests, Shares.shareRequests] at passed
    split_ifs at passed with later
    cases passed
    have keeps : Keeps pool.shared { pool.shared with clock := now } := keeps_of_same rfl rfl later
    exact ⟨⟨holds.1.keyed, holds.1.shares, holds.1.shareAttachments⟩,
      fun own isAt => keeps.isAt (fun _ => keeps.scope) isAt⟩
  · intro pool request store new holds uncrossed arrived
    obtain ⟨⟨_, _⟩, begun, same⟩ := Option.map_eq_some_iff.mp arrived
    cases same
    cases request with
    | inl request =>
        cases begun
        exact ⟨holds.1, isAt_shareArrival holds.1 request uncrossed, fun _ => id⟩
    | inr request =>
        cases begun
        exact ⟨holds.1, isAt_attachmentArrival holds.1 request, fun _ => id⟩
  · intro pool thread act before store after holds _ present isAt action
    obtain ⟨⟨_, flight⟩, advanced, same⟩ := Option.map_eq_some_iff.mp action
    cases same
    obtain ⟨tenancy, keeps⟩ := kept_advance holds.1 isAt (steps_of_advance advanced)
    exact ⟨tenancy, keeps.isAt (fun _ => keeps.scope) (isAt_advance holds.1 isAt advanced),
      fun own isAt => keeps.isAt (fun _ => keeps.scope) isAt⟩

theorem leavesOthers_of_isolated (pool : AskedPool) (move : StorageMove) (next : AskedPool)
    (isolated : Isolated pool) (moved : askedRequests.system pool move = some next) :
    LeavesOthers pool move next := by
  refine Program.system_cases (motive := fun move next => LeavesOthers pool move next)
    ?_ ?_ ?_ moved
  · intro now store passed map _
    simp only [askedRequests, Program.remembering, storageRequests, Shares.shareRequests] at passed
    split_ifs at passed
    cases passed
    exact .inl rfl
  · intro request store new arrived map _
    obtain ⟨⟨_, _⟩, begun, same⟩ := Option.map_eq_some_iff.mp arrived
    cases same
    cases request <;> cases begun <;> exact .inl rfl
  · intro thread act before store after present action map isMap
    obtain ⟨⟨_, flight⟩, advanced, same⟩ := Option.map_eq_some_iff.mp action
    cases same
    by_cases inScope : (requester before.1).scope pool.shared map.id
    · exact .inr ⟨thread, act, before, rfl, present, inScope⟩
    · have isAt := isolated.2 before (List.mem_of_getElem? present)
      exact .inl (leaves_advance isolated.1 isAt (steps_of_advance advanced) isMap inScope)

theorem Isolated.tellsOwn {pool : AskedPool} (isolated : Isolated pool) : TellsOwn pool := by
  intro own present
  have isAt : IsAt pool.shared _ own.2 := isolated.2 own present
  constructor
  · intro reply answered
    rw [answered] at isAt
    exact isAt
  · intro reply answered
    rw [answered] at isAt
    exact isAt

/-- In a run whose arrivals do not cross, every request leaves what belongs to the vaults out of
its scope, and is told about those in scope only. -/
theorem everyStep_leavesOthers (store : Store) (tenancy : Tenancy store) (moves : List StorageMove)
    (uncrossed : EveryStepAllowed askedRequests.system Uncrossed ⟨store, []⟩ moves) :
    EveryStep askedRequests.system LeavesOthers ⟨store, []⟩ moves ∧
      EveryState askedRequests.system TellsOwn ⟨store, []⟩ moves := by
  have start : Isolated ⟨store, []⟩ := ⟨tenancy, fun _ => nofun⟩
  constructor
  · exact everyStep_of_allowed isolated_preserved
      (fun pool move next isolated _ => leavesOthers_of_isolated pool move next isolated)
      start uncrossed
  · exact everyState_of_allowed isolated_preserved (fun _ isolated => isolated.tellsOwn) start
      uncrossed

/-- Two users with a vault each. -/
def twoVaults : Database where
  users := .empty
  mindMaps := .insert
    (.insert .empty (Vault.createMindMap "62ea0a57-8b2a-4fd2-8046-cf8769d81489" "u1"
      "4d1f0a11-0d5e-4a2c-9a1e-2f7d4c8b1a33"
      { titleEncrypted := "title", ephClassicalPublic := "eph", ephPqCiphertext := "pq",
        wrappedDek := "dek" } 0) (by simp [Table.empty]))
    (Vault.createMindMap "7c9e6679-7425-40de-944b-e07fc1f90ae7" "u2"
      "0b8e7a52-3f0e-4c55-9a52-7c1f1f3c7d10"
      { titleEncrypted := "title", ephClassicalPublic := "eph", ephPqCiphertext := "pq",
        wrappedDek := "dek" } 0) (by decide)
  attachments := .empty
  unlockMethods := .empty

/-- An attachment of a share. -/
def attachmentRequest : Shares.InitMapShareAttachmentRequest where
  name := "notes.pdf"
  contentType := "application/pdf"
  size := 1
  nodeId := none
  sourceAttachmentId := none
  encryptionMeta := some .null

/-- A share of the second vault, until a given time. -/
def secondShare : StoredMindMapShare :=
  (Shares.createShare "s2" "7c9e6679-7425-40de-944b-e07fc1f90ae7" "u2"
    { Shares.shareRequest (some 10) with includeAttachments := true } .null 0).completed
      ⟨"", none⟩ 0

/-- The second vault is shared, with an attachment that is stored. -/
def sharedFromSecond : Store :=
  { Store.unshared twoVaults
      (fun key => if key = "maps/7c9e6679-7425-40de-944b-e07fc1f90ae7/shares/s2/attachments/a2/" ++
        "notes.pdf" then some [1] else none) ⟨0, 0⟩ 0 with
    shares := .insert .empty secondShare (by simp [Table.empty])
    shareAttachments := .insert .empty
      (Shares.initShareAttachment "a2" "7c9e6679-7425-40de-944b-e07fc1f90ae7" "s2"
        attachmentRequest .null 0) (by simp [Table.empty]) }

theorem tenancy_sharedFromSecond : Tenancy sharedFromSecond where
  keyed :=
    { drawn := by decide
      objectKeys := by decide
      attachments := by decide }
  shares := by decide
  shareAttachments := by decide

/-- The first user shares, the second completes, time passes, and the purge comes by. -/
theorem everyStep_leavesOthers_example :
    let moves : List StorageMove :=
      [.spawn (.inl (.createShare "u1" "62ea0a57-8b2a-4fd2-8046-cf8769d81489" "s1"
          (Shares.shareRequest none))),
        .advance 0 .read,
        .spawn (.inl (.completeShareAttachmentUpload "u2"
          "7c9e6679-7425-40de-944b-e07fc1f90ae7" "s2" "a2" ⟨"", none⟩)),
        .advance 1 .read, .advance 0 (.write .done (.storage "")),
        .advance 1 (.write .done (.storage "")), .advance 1 .read, .outside 20,
        .spawn (.inl .purgeExpiredShares), .advance 2 .read,
        .advance 2 (.write .done (.storage ""))]
    EveryStep askedRequests.system LeavesOthers ⟨sharedFromSecond, []⟩ moves ∧
      EveryState askedRequests.system TellsOwn ⟨sharedFromSecond, []⟩ moves :=
  everyStep_leavesOthers sharedFromSecond tenancy_sharedFromSecond _ (by decide)

/-! ### A completion that crosses -/

/-- The completion passes its checks, and the attachment it finds is stored, and shared from a
vault of another. -/
def Intrudes (store : Store) : StorageRequest → Prop
  | .inl (.completeShareAttachmentUpload userId mapId shareId attachmentId body) =>
      ownsMap store.db userId mapId = true ∧
        Shares.validateShareComplete body.checksumSha256 = .ok () ∧
          ∃ attachment, store.findShareAttachment shareId attachmentId = .ok attachment ∧
            (store.objects attachment.s3Key).isSome = true ∧
              ∃ share ∈ store.shares.rows, share.id = shareId ∧
                ownsMap store.db userId share.mapId = false
  | _ => False

section Alone

variable {store : Store}

/-- The request is over, or on the way to look for an object that is not stored. -/
def Idles (store : Store) : StorageFlight → Prop
  | .inl (.completingAttachment attachment _) => store.objects attachment.s3Key = none
  | .inl (.answered _) => True
  | _ => False

theorem idles_shareRead {flight after : ShareFlight} (idles : Idles store (.inl flight))
    (read : flight.read store = some after) : Idles store (.inl after) := by
  cases flight with
  | completingAttachment attachment update =>
      cases read
      refine Shares.answerOr_ensures (fun after => Idles store (.inl after)) ?_ fun _ => trivial
      refine ensures_bind fun _ stored => ?_
      have absent : store.objects attachment.s3Key = none := idles
      rw [Vault.Objects.headSize, absent] at stored
      cases stored
  | answered reply => simp [ShareFlight.read] at read
  | creating | inserting | uploading | completing | recording | rollingBack | reloading
  | revoking | listing | deleting | marking | attaching | insertingAttachment | finding
  | recordingAttachment | reloadingAttachment | sweeping | sweepingObjects | sweepMarking
  | looking | found | fetching => exact idles.elim

theorem idles_shareReadFails {flight after : ShareFlight} {error : AppError}
    (idles : Idles store (.inl flight)) (failed : flight.readFails error = some after) :
    Idles store (.inl after) := by
  unfold ShareFlight.readFails at failed
  split at failed
  case h_12 => exact idles.elim
  case h_13 => cases failed
  all_goals
    cases failed
    trivial

theorem pendingWrite_of_idles {flight : StorageFlight} (idles : Idles store flight) :
    pendingWrite flight = none := by
  cases flight with
  | inr flight => exact idles.elim
  | inl flight =>
      cases flight with
      | completingAttachment | answered => rfl
      | creating | inserting | uploading | completing | recording | rollingBack | reloading
      | revoking | listing | deleting | marking | attaching | insertingAttachment | finding
      | recordingAttachment | reloadingAttachment | sweeping | sweepingObjects | sweepMarking
      | looking | found | fetching => exact idles.elim

/-- A request that idles leaves the store as it is, and idles on. -/
theorem idles_advance {next : Store} {flight after : StorageFlight} {act : ShareAct}
    (idles : Idles store flight)
    (action : storageRequests.advance store flight act = some (next, after)) :
    next = store ∧ Idles store after := by
  have nothing := pendingWrite_of_idles idles
  constructor
  · have steps := steps_of_advance action
    cases act with
    | read | readFails error => exact steps
    | write outcome error =>
        obtain ⟨write, due, -⟩ := steps
        rw [nothing] at due
        cases due
  · refine advance_cases (motive := Idles store) ?_ ?_ ?_ ?_ ?_ ?_ action
    · rintro _ _ rfl read
      exact idles_shareRead idles read
    · rintro _ _ rfl -
      exact idles.elim
    · rintro _ _ _ rfl failed
      exact idles_shareReadFails idles failed
    · rintro _ _ _ rfl -
      exact idles.elim
    · rintro _ _ _ rfl due
      rw [pendingWrite, due] at nothing
      cases nothing
    · rintro _ _ _ rfl -
      exact idles.elim

/-- A completion that crosses and does not intrude has nothing to do. -/
theorem idles_arrival {request : ShareRequest} (crosses : Crosses store (.inl request))
    (harmless : ¬Intrudes store (.inl request)) :
    Idles store (.inl (Shares.answerOr (Shares.admitShareRequest store request))) := by
  cases request with
  | completeShareAttachmentUpload userId mapId shareId attachmentId body =>
      refine Shares.answerOr_ensures (fun flight => Idles store (.inl flight)) ?_
        fun _ => trivial
      refine ensures_bind fun map owned => ensures_bind fun _ valid => ?_
      refine ensures_bind fun attachment found => ensures_ok ?_
      by_contra isStored
      have stored := Option.isSome_iff_ne_none.mpr isStored
      exact harmless ⟨ownsMap_of_findOwned owned, valid, attachment, found, stored, crosses⟩
  | createShare | uploadShareBlob | completeShareUpload | revokeShare | initShareAttachment
  | uploadShareAttachmentBlob | purgeExpiredShares | read => exact crosses.elim

/-- The vault that an intruder's attachment is shared from has its key. -/
theorem Tenancy.vault_of_found (tenancy : Tenancy store) {userId shareId attachmentId : String}
    {attachment : StoredMindMapShareAttachment}
    (found : store.findShareAttachment shareId attachmentId = .ok attachment)
    {share : StoredMindMapShare} (isShare : share ∈ store.shares.rows) (same : share.id = shareId)
    (other : ownsMap store.db userId share.mapId = false) :
    ∃ map ∈ store.db.mindMaps.rows, ownsKey map attachment.s3Key = true ∧
      ¬(Requester.user userId).scope store map.id := by
  obtain ⟨present, rfl⟩ := of_findShareAttachment found
  obtain ⟨its, isIts, sameId, under⟩ := tenancy.shareAttachments attachment present
  obtain rfl := store.shares.eq_of_key_eq isIts isShare (sameId.trans same.symm)
  obtain ⟨map, isMap, mapId⟩ := (tenancy.shares its isIts).2
  refine ⟨map, isMap, ?_, ?_⟩
  · rw [ownsKey, mapId, under, Bool.or_true]
  · rw [mapId]
    exact ne_true_of_eq_false other

/-- A request that does not intrude begins at vaults of its scope, or idles. -/
theorem begins_of_not_intrudes (tenancy : Tenancy store) {request : StorageRequest}
    (harmless : ¬Intrudes store request) :
    ∃ flight, storageRequests.spawn store request = some (store, flight) ∧
      (IsAt store ((requester request).scope store) flight ∨ Idles store flight) := by
  cases request with
  | inr request => exact ⟨_, rfl, .inl (isAt_attachmentArrival tenancy request)⟩
  | inl request =>
      refine ⟨_, rfl, ?_⟩
      by_cases crosses : Crosses store (.inl request)
      · exact .inr (idles_arrival crosses harmless)
      · exact .inl (isAt_shareArrival tenancy request crosses)

/-- An intruding completion goes on with a stored attachment of another's vault. -/
theorem Intrudes.begins (tenancy : Tenancy store) {request : StorageRequest}
    (intrudes : Intrudes store request) :
    ∃ attachment update,
      storageRequests.spawn store request =
          some (store, .inl (.completingAttachment attachment update)) ∧
        (store.objects attachment.s3Key).isSome = true ∧
          ∃ map ∈ store.db.mindMaps.rows, ownsKey map attachment.s3Key = true ∧
            ¬(requester request).scope store map.id := by
  cases request with
  | inr request => exact intrudes.elim
  | inl request =>
      cases request with
      | createShare | uploadShareBlob | completeShareUpload | revokeShare | initShareAttachment
      | uploadShareAttachmentBlob | purgeExpiredShares | read => exact intrudes.elim
      | completeShareAttachmentUpload userId mapId shareId attachmentId body =>
          obtain ⟨owns, valid, attachment, found, stored, share, isShare, same, other⟩ := intrudes
          refine ⟨attachment, Shares.uploadUpdate body, ?_, stored,
            tenancy.vault_of_found found isShare same other⟩
          obtain ⟨map, present, rfl, isOwn⟩ := ownsMap_eq_true.mp owns
          have owned : findOwned store.db map.id userId = .ok map :=
            Accounts.findOwned_eq_ok.mpr ⟨present, rfl, isOwn⟩
          have admitted : Shares.admitShareRequest store (.completeShareAttachmentUpload userId
              map.id shareId attachmentId body) =
                .ok (.completingAttachment attachment (Shares.uploadUpdate body)) := by
            rw [Shares.admitShareRequest, owned, valid, found]
            rfl
          simp [storageRequests, admitted, Shares.answerOr]

/-- Where the statement that records an intruding completion fails, the object of another is
deleted. -/
theorem not_leavesOthers_of_intrudes (tenancy : Tenancy store) {request : StorageRequest}
    (intrudes : Intrudes store request) :
    ¬EveryStep askedRequests.system LeavesOthers ⟨store, []⟩ (.spawn request ::
      [.read, .write .refused (.storage ""), .write .done (.storage "")].map (.advance 0)) := by
  obtain ⟨attachment, update, begins, stored, map, isMap, ownKey, outside⟩ :=
    intrudes.begins tenancy
  obtain ⟨bytes, isBytes⟩ := Option.isSome_iff_exists.mp stored
  intro leaves
  have arrives : askedRequests.system ⟨store, []⟩ (.spawn request) =
      some ⟨store, [(request, .inl (.completingAttachment attachment update))]⟩ := by
    simp [Program.system, Program.remembering, begins]
  have looks : ShareFlight.read store (.completingAttachment attachment update) =
      some (.recordingAttachment attachment update) := by
    rw [ShareFlight.read, Vault.Objects.headSize, isBytes]
    rfl
  have reads : askedRequests.system
      ⟨store, [(request, .inl (.completingAttachment attachment update))]⟩ (.advance 0 .read) =
        some ⟨store, [(request, .inl (.recordingAttachment attachment update))]⟩ := by
    simp [Program.system, Program.remembering, storageRequests, Shares.advanceShare, looks]
  have fails : askedRequests.system
      ⟨store, [(request, .inl (.recordingAttachment attachment update))]⟩
      (.advance 0 (.write .refused (.storage ""))) =
        some ⟨store, [(request, .inl (.rollingBack attachment.s3Key (.storage "")))]⟩ := rfl
  have rollsBack : askedRequests.system
      ⟨store, [(request, .inl (.rollingBack attachment.s3Key (.storage "")))]⟩
      (.advance 0 (.write .done (.storage ""))) =
        some ⟨{ store with objects := store.objects.delete attachment.s3Key },
          [(request, .inl (.answered (.error (.storage ""))))]⟩ := rfl
  obtain ⟨-, leaves⟩ := (everyStep_cons arrives).mp leaves
  obtain ⟨-, leaves⟩ := (everyStep_cons reads).mp leaves
  obtain ⟨-, leaves⟩ := (everyStep_cons fails).mp leaves
  obtain ⟨deletes, -⟩ := (everyStep_cons rollsBack).mp leaves
  rcases deletes map isMap with unchanged | ⟨thread, act, own, moves, isOwn, inScope⟩
  · have gone := congrFun (congrArg Belongings.objects unchanged) attachment.s3Key
    simp [belongings, ownKey, isBytes] at gone
  · cases moves
    cases isOwn
    exact outside inScope

end Alone

/-- Alone, and however its statements and calls fail, a request leaves what belongs to vaults out
of its scope exactly if it does not intrude. -/
theorem leavesOthers_iff (store : Store) (tenancy : Tenancy store) (request : StorageRequest) :
    (∀ acts : List ShareAct, EveryStep askedRequests.system LeavesOthers ⟨store, []⟩
        (.spawn request :: acts.map (.advance 0))) ↔
      ¬Intrudes store request := by
  constructor
  · intro leaves intrudes
    exact not_leavesOthers_of_intrudes tenancy intrudes (leaves _)
  · intro harmless acts
    obtain ⟨flight, begins, harmless⟩ := begins_of_not_intrudes tenancy harmless
    have arrives : askedRequests.system ⟨store, []⟩ (.spawn request) =
        some ⟨store, [(request, flight)]⟩ := by
      simp [Program.system, Program.remembering, begins]
    refine (everyStep_cons arrives).mpr ⟨fun _ _ => .inl rfl, ?_⟩
    rcases harmless with isAt | idles
    · refine Program.everyStep_alone (fun shared own => Isolated ⟨shared, [own]⟩) ?_
        ⟨tenancy, List.forall_mem_singleton.mpr isAt⟩ acts
      intro shared before act next after isolated action
      have taken : askedRequests.system ⟨shared, [before]⟩ (.advance 0 act) =
          some ⟨next, [after]⟩ := by
        simp [Program.system, action]
      exact ⟨isolated_preserved _ (.advance 0 act) _ isolated trivial taken,
        leavesOthers_of_isolated _ _ _ isolated taken⟩
    · refine Program.everyStep_alone (fun shared own => shared = store ∧ Idles store own.2) ?_
        ⟨rfl, idles⟩ acts
      rintro shared before act next after ⟨rfl, idles⟩ action
      obtain ⟨⟨_, _⟩, advanced, same⟩ := Option.map_eq_some_iff.mp action
      cases same
      obtain ⟨rfl, stillIdles⟩ := idles_advance idles advanced
      exact ⟨⟨rfl, stillIdles⟩, fun _ _ => .inl rfl⟩

/-- With the ids of the second user's share, the first user's completion intrudes, and its upload
does not. -/
theorem leavesOthers_iff_example :
    (¬∀ acts : List ShareAct, EveryStep askedRequests.system LeavesOthers
        ⟨sharedFromSecond, []⟩
        (.spawn (.inl (.completeShareAttachmentUpload "u1"
          "62ea0a57-8b2a-4fd2-8046-cf8769d81489" "s2" "a2" ⟨"", none⟩)) :: acts.map (.advance 0))) ∧
      ∀ acts : List ShareAct, EveryStep askedRequests.system LeavesOthers
        ⟨sharedFromSecond, []⟩
        (.spawn (.inl (.uploadShareAttachmentBlob "u1"
          "62ea0a57-8b2a-4fd2-8046-cf8769d81489" "s2" "a2" [2])) :: acts.map (.advance 0)) :=
  ⟨(leavesOthers_iff _ tenancy_sharedFromSecond _).not.mpr (not_not.mpr
      ⟨by decide, by decide, _, rfl, by decide, secondShare, .head _, rfl, by decide⟩),
    (leavesOthers_iff _ tenancy_sharedFromSecond _).mpr not_false⟩

end Storage
end MindMapVault
