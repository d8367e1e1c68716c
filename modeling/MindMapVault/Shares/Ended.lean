import MindMapVault.Shares.Purge

/-!
# A share that is over stays over

Nothing takes a revocation back and nothing moves an expiry, so a share that was
revoked or has expired is so for good, and every public lookup from then on refuses
it. A visitor whose lookup had succeeded before is not stopped: its handler reads the
bytes without looking again.
-/

namespace MindMapVault
namespace Shares

open Remote Threads Transition Result
open Vault (DateTime Bytes Objects)

/-- The share was revoked, or its expiry has come. -/
def Store.Ended (store : Store) (shareId : String) : Prop :=
  ∃ share ∈ store.shares.rows, share.id = shareId ∧
    (share.revoked = true ∨
      (share.expiresAt.any fun expiresAt => decide (expiresAt ≤ store.clock)) = true)

/-- The share a public answer is about. -/
def ShareReply.servedShare : ShareReply → Option String
  | .publicShare served _ | .publicAttachment served _ | .publicBlob served _ _ =>
      some served.id
  | .share .. | .attachment _ | .uploaded | .purged _ => none

/-- The share a visitor is being served or has been. -/
def ShareFlight.serves : ShareFlight → Option String
  | .answered (.ok reply) => reply.servedShare
  | _ => none

/-- The share whose public lookup the request has passed. -/
def ShareFlight.passedLookup : ShareFlight → Option String
  | .found _ share | .fetching share _ _ => some share.id
  | .answered (.ok reply) => reply.servedShare
  | _ => none

/-- Nobody is served a share that is over. -/
def ServesOnlyLive (_ : SharePool) (move : ShareMove) (next : SharePool) : Prop :=
  match move with
  | .advance thread _ =>
      ∀ flight ∈ next.threads[thread]?, ∀ shareId ∈ flight.serves, ¬ next.shared.Ended shareId
  | .outside _ | .spawn _ => True

section Decidable

instance (store : Store) (shareId : String) : Decidable (store.Ended shareId) :=
  List.decidableBEx (fun share : StoredMindMapShare => share.id = shareId ∧
    (share.revoked = true ∨
      (share.expiresAt.any fun expiresAt => decide (expiresAt ≤ store.clock)) = true))
    store.shares.rows

instance (pool next : SharePool) (move : ShareMove) :
    Decidable (ServesOnlyLive pool move next) :=
  match move with
  | .advance thread _ =>
      inferInstanceAs (Decidable (∀ flight ∈ next.threads[thread]?,
        ∀ shareId ∈ flight.serves, ¬ next.shared.Ended shareId))
  | .outside _ | .spawn _ => .isTrue trivial

end Decidable

namespace Store

variable {store after : Store} {shareId : String}

/-- A share that is over is not found. -/
theorem Ended.not_found (ended : store.Ended shareId) {share : StoredMindMapShare}
    (found : findPublicShare store shareId = .ok share) : False := by
  obtain ⟨row, present, sameId, past⟩ := ended
  have looked : store.shares.find? shareId = some row := Table.find?_eq_some.mpr ⟨present, sameId⟩
  simp only [findPublicShare, looked] at found
  obtain ⟨live, unexpired⟩ := refuse_eq_ok.mp found
  obtain ⟨unexpired, -⟩ := refuse_eq_ok.mp unexpired
  rcases past with revoked | expired
  · simp [revoked] at live
  · exact unexpired expired

/-- What is found has the id that was asked for. -/
theorem id_of_found {share : StoredMindMapShare}
    (found : findPublicShare store shareId = .ok share) : share.id = shareId := by
  unfold findPublicShare at found
  cases looked : store.shares.find? shareId with
  | none => simp [looked] at found
  | some row =>
      simp only [looked] at found
      obtain ⟨-, unexpired⟩ := refuse_eq_ok.mp found
      obtain ⟨-, same⟩ := refuse_eq_ok.mp unexpired
      cases same
      exact (Table.find?_eq_some.mp looked).2

/-- A change of rows that takes no revocation back and moves no expiry leaves what is
over. -/
theorem Ended.update (ended : store.Ended shareId) (condition : StoredMindMapShare → Bool)
    (change : StoredMindMapShare → StoredMindMapShare)
    (keepsId : ∀ share, (change share).id = share.id)
    (keepsRevoked : ∀ share, share.revoked = true → (change share).revoked = true)
    (keepsExpiry : ∀ share, (change share).expiresAt = share.expiresAt) :
    ({ store with shares := store.shares.update condition change keepsId } :
        Store).Ended shareId := by
  obtain ⟨share, present, sameId, past⟩ := ended
  refine ⟨_, List.mem_map.mpr ⟨share, present, rfl⟩, ?_⟩
  split_ifs
  · rw [keepsId, keepsExpiry]
    exact ⟨sameId, past.imp_left (keepsRevoked share)⟩
  · exact ⟨sameId, past⟩

/-- No write brings back a share that is over. -/
theorem Ended.execute (ended : store.Ended shareId) {write : StoreWrite}
    (executed : store.execute write = .ok after) : after.Ended shareId := by
  cases write with
  | createMindMapShare new =>
      simp only [Store.execute] at executed
      split_ifs at executed with unused
      cases executed
      obtain ⟨share, present, past⟩ := ended
      exact ⟨share, (Table.mem_rows_insert unused).mpr (.inl present), past⟩
  | completeMindMapShareUpload _ _ update =>
      cases executed
      exact ended.update _ _ (StoredMindMapShare.completed_id update store.clock)
        (fun _ => id) fun _ => rfl
  | setMindMapShareRevoked _ _ =>
      cases executed
      exact ended.update _ _ (StoredMindMapShare.withdrawn_id store.clock)
        (fun _ _ => rfl) fun _ => rfl
  | markMindMapSharePurged _ =>
      cases executed
      exact ended.update _ _ (StoredMindMapShare.purged_id store.clock)
        (fun _ _ => rfl) fun _ => rfl
  | createMindMapShareAttachment new =>
      simp only [Store.execute] at executed
      split_ifs at executed
      cases executed
      exact ended
  | completeMindMapShareAttachmentUpload _ _ _ | uploadBlob _ _ | deleteObject _ =>
      cases executed
      exact ended

/-- Time does not bring back a share that is over. -/
theorem Ended.later (ended : store.Ended shareId) {now : DateTime} (passes : store.clock ≤ now) :
    ({ store with clock := now } : Store).Ended shareId := by
  obtain ⟨share, present, sameId, past⟩ := ended
  refine ⟨share, present, sameId, past.imp_right fun expired => ?_⟩
  obtain ⟨expiresAt, there, before⟩ := (Option.any_eq_true _ _).mp expired
  refine (Option.any_eq_true _ _).mpr ⟨expiresAt, there, ?_⟩
  exact decide_eq_true ((of_decide_eq_true before).trans passes)

end Store

/-- What a sequence of checks ensures where it goes on holds of the request, if it
holds of an answered error. -/
theorem answerOr_ensures (property : ShareFlight → Prop) {result : Except AppError ShareFlight}
    (ensured : Ensures property result) (refused : ∀ error, property (.answered (.error error))) :
    property (answerOr result) := by
  cases result with
  | error error => exact refused error
  | ok flight => exact ensured flight rfl

/-- A request that has just arrived has looked nothing up. -/
theorem passedLookup_arrival (store : Store) (request : ShareRequest) :
    (answerOr (admitShareRequest store request)).passedLookup = none := by
  refine answerOr_ensures (fun flight => flight.passedLookup = none) ?_ fun _ => rfl
  cases request with
  | createShare userId mapId shareId body =>
      refine ensures_bind fun _ _ => ensures_bind fun _ _ => ?_
      split
      · exact ensures_error _
      · exact ensures_ok rfl
  | uploadShareBlob userId mapId shareId body
  | uploadShareAttachmentBlob userId mapId shareId attachmentId body =>
      refine ensures_ite (ensures_error _) ?_
      refine ensures_bind fun _ _ => ensures_bind fun _ _ => ?_
      exact ensures_ite (ensures_error _) (ensures_ok rfl)
  | completeShareUpload userId mapId shareId body
  | completeShareAttachmentUpload userId mapId shareId attachmentId body =>
      refine ensures_bind fun _ _ => ensures_bind fun _ _ => ?_
      exact ensures_bind fun _ _ => ensures_ok rfl
  | revokeShare userId mapId shareId =>
      exact ensures_bind fun _ _ => ensures_bind fun _ _ =>
        ensures_ok rfl
  | initShareAttachment userId mapId shareId attachmentId body =>
      refine ensures_bind fun _ _ => ensures_bind fun _ _ =>
        ensures_bind fun _ _ => ?_
      refine ensures_ite (ensures_error _) ?_
      refine ensures_ite (ensures_error _) ?_
      split
      · exact ensures_error _
      · exact ensures_ok rfl
  | purgeExpiredShares | read endpoint shareId => exact ensures_ok rfl

/-- What is left of a request once a write of it has ended: it is answered without serving a
share, looks its row up again, cleans up, or goes on with the purge. -/
def ShareFlight.FollowsUp : ShareFlight → Prop
  | .answered (.ok reply) => reply.servedShare = none
  | .answered (.error _) | .reloading _ _ | .reloadingAttachment _ _ | .rollingBack _ _
  | .listing _ | .deleting _ _ | .marking _ | .sweeping _ _ | .sweepingObjects _ _ _ _ _
  | .sweepMarking _ _ _ => True
  | _ => False

/-- After its write a request follows it up. -/
theorem followsUp_resume {flight : ShareFlight} {write : StoreWrite}
    (due : flight.pending = some write) (answer : Except AppError Unit) :
    (flight.resume answer).FollowsUp := by
  cases flight with
  | inserting _ | uploading _ _ | recording _ _ | revoking _ | marking _
  | insertingAttachment _ | recordingAttachment _ _ | sweepMarking _ _ _
  | rollingBack _ _ => cases answer <;> trivial
  | deleting share objectKeys =>
      cases objectKeys with
      | nil => simp [ShareFlight.pending] at due
      | cons objectKey objectKeys =>
          simp only [ShareFlight.resume]
          split <;> trivial
  | sweepingObjects cleared share objectKeys failed rest =>
      cases objectKeys with
      | nil => simp [ShareFlight.pending] at due
      | cons objectKey objectKeys =>
          simp only [ShareFlight.resume]
          split <;> trivial
  | creating _ _ | completing _ _ | reloading _ _ | listing _ | attaching _ _ _ _
  | finding _ _ _ | completingAttachment _ _ | reloadingAttachment _ _
  | sweeping _ _ | looking _ _ | found _ _ | fetching _ _ _ | answered _ =>
      simp [ShareFlight.pending] at due

/-- After a failed read a request is answered, or the purge goes on. -/
theorem followsUp_readFails {flight after : ShareFlight} {error : AppError}
    (failed : flight.readFails error = some after) : after.FollowsUp := by
  unfold ShareFlight.readFails at failed
  split at failed <;> cases failed <;> trivial

/-- What follows a write up has looked nothing up. -/
theorem passedLookup_of_followsUp {flight : ShareFlight} (follows : flight.FollowsUp) :
    flight.passedLookup = none := by
  unfold ShareFlight.passedLookup
  split
  · exact follows.elim
  · exact follows.elim
  · exact follows
  · rfl

/-- Where a read leads a request on towards a share, its lookup had been passed or is
passed now. -/
def ShareFlight.LedBy (store : Store) (before after : ShareFlight) : Prop :=
  ∀ shareId, after.passedLookup = some shareId →
    before.passedLookup = some shareId ∨ ∃ share, findPublicShare store shareId = .ok share

/-- A read passes the lookup of a share only where the share is found. -/
theorem ledBy_read {store : Store} {flight after : ShareFlight}
    (read : flight.read store = some after) : flight.LedBy store after := by
  cases flight with
  | creating _ _ | completing _ _ | reloading _ _ | finding _ _ _
  | completingAttachment _ _ | reloadingAttachment _ _ =>
      cases read
      refine answerOr_ensures (ShareFlight.LedBy store _) ?_ fun _ _ => nofun
      exact ensures_bind fun _ _ => ensures_ok fun _ => nofun
  | listing share =>
      cases read
      exact fun _ => nofun
  | attaching userId mapId sourceAttachmentId attachment =>
      cases read
      refine answerOr_ensures (ShareFlight.LedBy store _) ?_ fun _ _ => nofun
      cases sourceAttachmentId with
      | none => exact ensures_bind fun _ _ => ensures_ok fun _ => nofun
      | some sourceAttachmentId =>
          exact ensures_bind fun _ _ =>
            ensures_bind fun _ _ => ensures_ok fun _ => nofun
  | sweeping cleared shares =>
      cases shares <;> cases read <;> exact fun _ => nofun
  | looking endpoint shareId =>
      cases read
      refine answerOr_ensures (ShareFlight.LedBy store _) ?_ fun _ _ => nofun
      refine ensures_bind fun share found => ensures_ok ?_
      rintro _ ⟨⟩
      rw [Store.id_of_found found]
      exact .inr ⟨share, found⟩
  | found endpoint share =>
      cases endpoint with
      | share | blob =>
          cases read
          exact fun _ => .inl
      | attachmentDownload attachmentId | attachmentBlob attachmentId =>
          cases read
          refine answerOr_ensures (ShareFlight.LedBy store _) ?_ fun _ _ => nofun
          exact ensures_bind fun _ _ => ensures_ok fun _ => .inl
  | fetching share contentType objectKey =>
      cases read
      refine answerOr_ensures (ShareFlight.LedBy store _) ?_ fun _ _ => nofun
      exact ensures_bind fun _ _ => ensures_ok fun _ => .inl
  | inserting _ | uploading _ _ | recording _ _ | rollingBack _ _ | revoking _
  | deleting _ _ | marking _ | insertingAttachment _ | recordingAttachment _ _
  | sweepingObjects _ _ _ _ _ | sweepMarking _ _ _ | answered _ =>
      simp [ShareFlight.read] at read

/-- Whoever is served a share has passed its lookup. -/
theorem passedLookup_of_serves {flight : ShareFlight} {shareId : String}
    (served : flight.serves = some shareId) : flight.passedLookup = some shareId := by
  unfold ShareFlight.serves at served
  split at served
  · exact served
  · simp at served

/-- Since an earlier state the share has been over, and whoever has passed its lookup
by now had passed it then. -/
structure OverSince (shareId : String) (earlier pool : SharePool) : Prop where
  ended : pool.shared.Ended shareId
  lookups : ∀ (thread : Nat) (flight : ShareFlight), pool.threads[thread]? = some flight →
    flight.passedLookup = some shareId →
      ∃ before, earlier.threads[thread]? = some before ∧ before.passedLookup = some shareId

/-- A step of a request on a share that is over passes no lookup of it. -/
theorem advanceShare_over {store next : Store} {before after : ShareFlight} {act : ShareAct}
    {shareId : String} (ended : store.Ended shareId)
    (action : advanceShare store before act = some (next, after)) :
    next.Ended shareId ∧
      (after.passedLookup = some shareId → before.passedLookup = some shareId) := by
  cases act with
  | read =>
      obtain ⟨_, read, same⟩ := Option.map_eq_some_iff.mp action
      cases same
      refine ⟨ended, fun passed => (ledBy_read read shareId passed).resolve_right ?_⟩
      rintro ⟨share, found⟩
      exact ended.not_found found
  | readFails error =>
      obtain ⟨_, failed, same⟩ := Option.map_eq_some_iff.mp action
      cases same
      refine ⟨ended, fun passed => ?_⟩
      rw [passedLookup_of_followsUp (followsUp_readFails failed)] at passed
      exact absurd passed nofun
  | write outcome error =>
      obtain ⟨write, due, same⟩ := Option.map_eq_some_iff.mp action
      cases same
      obtain ⟨due, -⟩ := Option.filter_eq_some_iff.mp due
      constructor
      · rcases outcome.perform_cases store (store.execute write) error with
          ⟨unchanged, -⟩ | ⟨-, executed⟩
        · rw [Store.perform, unchanged]
          exact ended
        · exact ended.execute executed
      · intro passed
        rw [passedLookup_of_followsUp (followsUp_resume due _)] at passed
        exact absurd passed nofun

/-- One move leaves a share over, and passes no lookup of it. -/
theorem overSince_preserved {shareId : String} {earlier : SharePool}
    (pool : SharePool) (move : ShareMove) (next : SharePool) (past : OverSince shareId earlier pool)
    (moved : shareRequests.system pool move = some next) :
    OverSince shareId earlier next := by
  obtain ⟨ended, lookups⟩ := past
  refine Program.system_cases
    (motive := fun _ next => OverSince shareId earlier next) ?_ ?_ ?_ moved
  · intro now store passed
    simp only [shareRequests] at passed
    split_ifs at passed with passes
    cases passed
    exact ⟨ended.later passes, lookups⟩
  · intro request store new arrived
    cases arrived
    refine ⟨ended, fun thread flight present passed => ?_⟩
    rcases getElem?_append_singleton present with old | rfl
    · exact lookups thread flight old passed
    · rw [passedLookup_arrival] at passed
      contradiction
  · intro thread act before store after present action
    obtain ⟨stillEnded, noLookup⟩ := advanceShare_over ended action
    refine ⟨stillEnded, fun other flight there passed => ?_⟩
    rcases getElem?_set_cases there with ⟨rfl, rfl⟩ | old
    · exact lookups other before present (noLookup passed)
    · exact lookups other flight old passed

/-- Once a share has been revoked or has expired it stays over: in every later state
its public lookup refuses it, and whoever is served it had passed that lookup
before. -/
theorem ended_stays_ended {pool later : SharePool} {shareId : String} {moves : List ShareMove}
    (ended : pool.shared.Ended shareId) (run : exec shareRequests.system pool moves = some later) :
    later.shared.Ended shareId ∧
      (∀ share, findPublicShare later.shared shareId ≠ .ok share) ∧
        ∀ (thread : Nat) (flight : ShareFlight), later.threads[thread]? = some flight →
          flight.serves = some shareId →
            ∃ before, pool.threads[thread]? = some before ∧ before.passedLookup = some shareId := by
  have past : OverSince shareId pool later :=
    exec_invariant overSince_preserved
      ⟨ended, fun _ flight present passed => ⟨flight, present, passed⟩⟩ run
  refine ⟨past.ended, fun _ found => past.ended.not_found found, ?_⟩
  intro thread flight present served
  refine past.lookups thread flight present ?_
  exact passedLookup_of_serves served

/-- A vault with one share that was uploaded and then revoked. -/
def revokedShare : Store :=
  { Store.unshared oneVault (fun _ => some [1]) ⟨0, 0⟩ 0 with
    shares := .insert .empty
      ((createShare "s1" "m1" "u1" (shareRequest none) .null 0).withdrawn 0)
      (by simp [Table.empty]) }

/-- The owner completes the upload of a revoked share once more, and a visitor comes. -/
def lateCompletion : List ShareMove :=
  [.spawn (.completeShareUpload "u1" "m1" "s1" ⟨"", none⟩), .advance 0 .read,
    .advance 0 (.write .done (.storage "")), .spawn (.read .blob "s1"),
    .advance 1 .read]

/-- Where that leads. -/
def afterLateCompletion : SharePool :=
  (exec shareRequests.system ⟨revokedShare, []⟩ lateCompletion).getD ⟨revokedShare, []⟩

/-- The row is `available` again, and the visitor is refused. -/
theorem ended_stays_ended_example :
    afterLateCompletion.shared.Ended "s1" ∧
      (∀ share, findPublicShare afterLateCompletion.shared "s1" ≠ .ok share) ∧
        ∀ (thread : Nat) (flight : ShareFlight),
          afterLateCompletion.threads[thread]? = some flight →
            flight.serves = some "s1" →
              ∃ before, ([] : List ShareFlight)[thread]? = some before ∧
                before.passedLookup = some "s1" := by
  have ended : revokedShare.Ended "s1" := by decide
  have run : exec shareRequests.system ⟨revokedShare, []⟩ lateCompletion =
      some afterLateCompletion := rfl
  exact ended_stays_ended ended run

/-- A visitor's lookup succeeds, the revocation commits, and the visitor still gets
the blob. -/
theorem late_visitor_is_served :
    ¬ ∀ db objects settings clock moves,
      EveryStep shareRequests.system ServesOnlyLive
        ⟨.unshared db objects settings clock, []⟩ moves := by
  intro always
  have live := always oneVault (fun _ => none) ⟨0, 0⟩ 0
    (uploadedShare ++
      [.spawn (.read .blob "s1"), .advance 3 .read, .advance 3 .read,
        .spawn (.revokeShare "u1" "m1" "s1"), .advance 4 (.write .done (.storage "")),
        .advance 3 .read])
  revert live
  decide

end Shares
end MindMapVault
