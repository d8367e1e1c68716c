import MindMapVault.Accounts.KeyMaterial
import MindMapVault.Accounts.Rotated

/-!
# Keys stay

Once an account has a salt, nothing but a rotation touches its keys, the sweep passes
it by, and a rotation leaves the public keys. A rotation is authorised by the token of
the moment as long as the hash it verified is still in the row when its transaction
takes the lock; where another rotation came in between, a token that is no longer
current replaces the keys.
-/

namespace MindMapVault
namespace Accounts

open Remote Transition Threads
open Vault (trim)

/-- The keys others seal to. -/
def StoredUser.publicKeys (user : StoredUser) : String × String :=
  (user.classicalPublicKey, user.pqPublicKey)

/-- The salt, and the private keys wrapped under what is derived from it. -/
def StoredUser.wrappedKeys (user : StoredUser) :
    String × Argon2Params × String × String :=
  (user.argon2Salt, user.argon2Params, user.classicalPrivEncrypted, user.pqPrivEncrypted)

/-- Accounts with a salt are there still, with a salt and the same public keys; their
wrapped keys are the same, or they may have been replaced. -/
def KeepsKeys (replaced : StoredUser → Prop) (before after : Table StoredUser.id) :
    Prop :=
  ∀ user ∈ before.rows, user.argon2Salt ≠ "" →
    ∃ kept ∈ after.rows, kept.id = user.id ∧ kept.argon2Salt ≠ "" ∧
      kept.publicKeys = user.publicKeys ∧ (kept.wrappedKeys = user.wrappedKeys ∨ replaced user)

instance (replaced : StoredUser → Prop) [DecidablePred replaced]
    (before after : Table StoredUser.id) : Decidable (KeepsKeys replaced before after) :=
  inferInstanceAs (Decidable (∀ _ ∈ _, _ → ∃ _ ∈ _, _ ∧ _ ∧ _ ∧ (_ ∨ replaced _)))

/-- The request rotates the account, and its current token is that of the row as it
is. -/
def KeyFlight.Authorises (argon2 : Argon2) (user : StoredUser) : KeyFlight → Prop
  | .rotation (.verified userId body _) =>
      userId = user.id ∧ argon2.verifyAuthToken body.currentAuthToken user.authHash = .ok ()
  | _ => False

instance (argon2 : Argon2) (user : StoredUser) (flight : KeyFlight) :
    Decidable (flight.Authorises argon2 user) :=
  match flight with
  | .rotation (.verified userId body _) =>
      inferInstanceAs (Decidable (userId = user.id ∧
        argon2.verifyAuthToken body.currentAuthToken user.authHash = .ok ()))
  | .rotation (.checked _ _) | .rotation (.answered _) | .registration _
  | .callback _ | .enrolment _ => .isFalse id

/-- The move is the transaction of a rotation that the account's current token
authorises. -/
def Authorised (argon2 : Argon2) (pool : KeyPool) (move : KeyMove) (user : StoredUser) :
    Prop :=
  match move with
  | .advance thread (.rotation (.transact _ _)) =>
      ∃ flight ∈ pool.threads[thread]?, flight.Authorises argon2 user
  | _ => False

instance (argon2 : Argon2) (pool : KeyPool) (move : KeyMove) :
    DecidablePred (Authorised argon2 pool move) := fun user =>
  match move with
  | .advance thread (.rotation (.transact _ _)) =>
      inferInstanceAs (Decidable (∃ flight ∈ pool.threads[thread]?, flight.Authorises argon2 user))
  | .advance _ (.rotation (.loadUser _)) | .advance _ (.registration _)
  | .advance _ (.callback _) | .advance _ (.enrolment _) | .outside _ | .spawn _ =>
      .isFalse id

/-- What a move leaves of the keys. -/
def KeysKept (argon2 : Argon2) (pool : KeyPool) (move : KeyMove) (next : KeyPool) :
    Prop :=
  KeepsKeys (Authorised argon2 pool move) pool.shared.users next.shared.users

instance (argon2 : Argon2) (pool : KeyPool) (move : KeyMove) (next : KeyPool) :
    Decidable (KeysKept argon2 pool move next) :=
  inferInstanceAs (Decidable (KeepsKeys _ _ _))

/-- The hash the rotation verified is still the one of its account. -/
def KeyFlight.StillCurrent (store : KeyStore) : KeyFlight → Prop
  | .rotation (.verified userId _ verifiedHash) =>
      ∀ user ∈ store.users.find? userId, user.authHash = verifiedHash
  | _ => True

instance (store : KeyStore) (flight : KeyFlight) :
    Decidable (flight.StillCurrent store) :=
  match flight with
  | .rotation (.verified userId _ verifiedHash) =>
      inferInstanceAs (Decidable (∀ user ∈ store.users.find? userId, user.authHash = verifiedHash))
  | .rotation (.checked _ _) | .rotation (.answered _) | .registration _
  | .callback _ | .enrolment _ => .isTrue trivial

/-- A transaction of a rotation finds the hash that was verified. -/
def CommitsCurrent (pool : KeyPool) : KeyMove → Prop
  | .advance thread _ =>
      ∀ flight ∈ pool.threads[thread]?, flight.StillCurrent pool.shared
  | _ => True

instance (pool : KeyPool) (move : KeyMove) : Decidable (CommitsCurrent pool move) :=
  match move with
  | .advance thread _ =>
      inferInstanceAs (Decidable (∀ flight ∈ pool.threads[thread]?,
        flight.StillCurrent pool.shared))
  | .outside _ | .spawn _ => .isTrue trivial

/-- What a rotation under way has checked. -/
def KeyFlight.Known (argon2 : Argon2) : KeyFlight → Prop
  | .rotation (.checked _ body) => checkNewCredentials body.update = .ok ()
  | .rotation (.verified _ body verifiedHash) =>
      checkNewCredentials body.update = .ok () ∧
        argon2.verifyAuthToken body.currentAuthToken verifiedHash = .ok ()
  | _ => True

section Tables

variable {replaced : StoredUser → Prop} {before after : Table StoredUser.id}

/-- No account goes and none changes. -/
theorem keepsKeys_of_subset (stay : ∀ user ∈ before.rows, user ∈ after.rows) :
    KeepsKeys replaced before after := by
  intro user present salted
  exact ⟨user, stay user present, rfl, salted, rfl, .inl rfl⟩

/-- The sweep leaves accounts with a salt. -/
theorem keepsKeys_purge (directory : Directory) (now : Vault.DateTime) :
    KeepsKeys replaced directory.users (directory.purgeUnenrolledAccounts now).users := by
  intro user present salted
  have stays : directory.purgeable now user = false := by
    simp [Directory.purgeable, StoredUser.unenrolled, salted]
  exact ⟨user, Table.mem_rows_delete.mpr ⟨present, stays⟩, rfl, salted, rfl, .inl rfl⟩

/-- An update that leaves salts and public keys, or passes over accounts with a
salt. -/
theorem keepsKeys_update (table : Table StoredUser.id) (condition : StoredUser → Bool)
    (change : StoredUser → StoredUser) (keepsKey : ∀ user, (change user).id = user.id)
    (changes : ∀ user ∈ table.rows, user.argon2Salt ≠ "" → condition user = true →
      (change user).argon2Salt ≠ "" ∧ (change user).publicKeys = user.publicKeys ∧ replaced user) :
    KeepsKeys replaced table (table.update condition change keepsKey) := by
  intro user present salted
  have listed : (if condition user then change user else user) ∈
      (table.update condition change keepsKey).rows :=
    Table.mem_rows_update.mpr ⟨user, present, rfl⟩
  refine ⟨_, listed, ?_⟩
  split_ifs with matching
  · obtain ⟨salt, publicKeys, allowed⟩ := changes user present salted matching
    exact ⟨keepsKey user, salt, publicKeys, .inr allowed⟩
  · exact ⟨rfl, salted, rfl, .inl rfl⟩

/-- An enrolment writes to accounts without a salt. -/
theorem keepsKeys_enrol (directory : Directory) (userId : String) (keys : EnrolKeysRequest) :
    KeepsKeys replaced directory.users (directory.enrolAccountKeys userId keys).users := by
  refine keepsKeys_update directory.users _ (StoredUser.enrolled keys) (fun _ => rfl)
    fun user _ salted matching => ?_
  simp [salted] at matching

/-- A rotation writes to its account and leaves the public keys. -/
theorem keepsKeys_rotate {db : Database} {userId newAuthHash : String}
    {update : RotateCredentialsUpdate} (salt : update.newArgon2Salt ≠ "")
    (own : ∀ user ∈ db.users.find? userId, replaced user) :
    KeepsKeys replaced db.users (writeUser db userId update newAuthHash).users := by
  refine keepsKeys_update db.users _ (StoredUser.rotate update newAuthHash)
    (fun _ => rfl) fun user present _ matching => ?_
  have found : db.users.find? userId = some user :=
    Table.find?_eq_some.mpr ⟨present, beq_iff_eq.mp matching⟩
  exact ⟨salt, rfl, own user found⟩

end Tables

section Operations

theorem createUser_eq_ok {registry after : Registry} {user : StoredUser}
    {invite : Option RegistrationInvite} (created : registry.createUser user invite = .ok after) :
    ∃ new, after.users = registry.users.insert user new ∧
      ∀ other ∈ registry.users.rows, other.username ≠ user.username := by
  unfold Registry.createUser at created
  split_ifs at created with new taken
  cases created
  refine ⟨new, rfl, fun other present same => taken ?_⟩
  exact List.any_eq_true.mpr ⟨other, present, beq_iff_eq.mpr same⟩

/-- A registration leaves the accounts or writes its own. -/
theorem advanceRegister_writes
    {registry after : Registry} {before next : Registration} {act : RegistrationAct}
    (taken : advanceRegister registry before act = some (after, next)) :
    after.users = registry.users ∨
      ∃ body invite now minted authHash outcome, before = .free body invite now ∧
        act = .createUser minted authHash outcome ∧ outcome ≠ .refused ∧
        registry.createUser (registeredUser minted (trim body.username) authHash body now)
          invite = .ok after := by
  have applied : ∀ (change : Registry → Registry) (outcome : Outcome),
      (∀ registry : Registry, (change registry).users = registry.users) →
        (outcome.applied change registry).users = registry.users := by
    intro change outcome same
    rcases outcome.applied_eq change registry with unchanged | changed
    · rw [unchanged]
    · rw [changed, same]
  unfold advanceRegister at taken
  split at taken
  case h_1 body code now outcome =>
    have claimed := applied (Registry.claim code (trim body.username) now) outcome fun _ => rfl
    dsimp only at taken
    split at taken
    · split at taken <;> cases taken <;> exact .inl claimed
    · cases taken
      exact .inl claimed
    · cases taken
      exact .inl claimed
  case h_2 =>
    split_ifs at taken <;> cases taken <;> exact .inl rfl
  case h_3 | h_4 =>
    cases taken
    exact .inl rfl
  case h_5 body invite now minted authHash outcome =>
    dsimp only at taken
    split at taken
    case h_1 created | h_3 created =>
      cases taken
      exact .inr ⟨body, invite, now, minted, authHash, _, rfl, rfl, by simp, created⟩
    all_goals
      cases taken
      exact .inl rfl
  case h_6 invite account error outcome =>
    cases taken
    exact .inl (applied (Registry.release invite.id) outcome fun _ => rfl)
  case h_7 => cases taken

/-- A callback leaves the accounts or writes a shell. -/
theorem advanceCallback_writes
    {directory after : Directory} {before next : Callback} {act : CallbackAct}
    (taken : advanceCallback directory before act = some (after, next)) :
    after.users = directory.users ∨
      ∃ minted now new, after.users = directory.users.insert (shellUser minted now) new := by
  unfold advanceCallback at taken
  split at taken
  · split at taken
    · split_ifs at taken <;> cases taken <;> exact .inl rfl
    · split_ifs at taken <;> cases taken <;> exact .inl rfl
  case h_2 minted now =>
    split at taken
    case h_1 created =>
      cases taken
      unfold Directory.createUser at created
      split_ifs at created with new
      cases created
      exact .inr ⟨minted, now, new, rfl⟩
    case h_2 =>
      cases taken
      exact .inl rfl
  · split at taken
    case h_1 linked =>
      cases taken
      unfold Directory.linkFederatedIdentity at linked
      split_ifs at linked <;> cases linked <;> exact .inl rfl
    case h_2 =>
      cases taken
      exact .inl rfl
  all_goals cases taken <;> exact .inl rfl

/-- An enrolment leaves the accounts or finishes one. -/
theorem advanceEnrol_writes {directory after : Directory} {before next : Enrolment} {act : EnrolAct}
    (taken : advanceEnrol directory before act = some (after, next)) :
    after.users = directory.users ∨
      ∃ userId keys, before = .free userId keys ∧
        after.users = (directory.enrolAccountKeys userId keys).users := by
  have written : ∀ {userId keys} {changed : Directory} {found : Bool},
      directory.writeEnrolment userId keys = .ok (changed, found) →
        changed.users = directory.users ∨
          changed.users = (directory.enrolAccountKeys userId keys).users := by
    intro userId keys changed found writes
    unfold Directory.writeEnrolment at writes
    split_ifs at writes <;> cases writes
    · exact .inr rfl
    · exact .inl rfl
  unfold advanceEnrol at taken
  split at taken
  · split_ifs at taken <;> cases taken <;> exact .inl rfl
  · cases taken
    exact .inl rfl
  case h_3 userId keys outcome =>
    split at taken
    case h_1 writes | h_4 writes =>
      cases taken
      exact (written writes).imp_right fun same => ⟨userId, keys, rfl, same⟩
    all_goals
      cases taken
      exact .inl rfl
  · cases taken

/-- A registration adds an account or leaves them as they are. -/
theorem advanceRegister_users
    {registry after : Registry} {before next : Registration} {act : RegistrationAct}
    (taken : advanceRegister registry before act = some (after, next)) :
    ∀ user ∈ registry.users.rows, user ∈ after.users.rows := by
  intro user present
  rcases advanceRegister_writes taken with same | ⟨_, _, _, _, _, _, _, _, _, created⟩
  · rw [same]
    exact present
  · obtain ⟨new, written, _⟩ := createUser_eq_ok created
    rw [written]
    exact (Table.mem_rows_insert new).mpr (.inl present)

/-- A callback adds an account or leaves them as they are. -/
theorem advanceCallback_users
    {directory after : Directory} {before next : Callback} {act : CallbackAct}
    (taken : advanceCallback directory before act = some (after, next)) :
    ∀ user ∈ directory.users.rows, user ∈ after.users.rows := by
  intro user present
  rcases advanceCallback_writes taken with same | ⟨minted, now, new, written⟩
  · rw [same]
    exact present
  · rw [written]
    exact (Table.mem_rows_insert new).mpr (.inl present)

/-- An enrolment leaves accounts with a salt as they are. -/
theorem advanceEnrol_keepsKeys {replaced : StoredUser → Prop} {directory after : Directory}
    {before next : Enrolment} {act : EnrolAct}
    (taken : advanceEnrol directory before act = some (after, next)) :
    KeepsKeys replaced directory.users after.users := by
  rcases advanceEnrol_writes taken with same | ⟨userId, keys, _, written⟩
  · rw [same]
    exact keepsKeys_of_subset fun _ present => present
  · rw [written]
    exact keepsKeys_enrol directory userId keys

/-- A rotation leaves the accounts, or has written its own. -/
theorem rotateUserCredentials_users
    (hashToken : String → Except AppError String) (driver : Driver) (db : Database)
    (userId : String) (update : RotateCredentialsUpdate) :
    (rotateUserCredentials hashToken driver db userId update).2.users = db.users ∨
      ∃ newAuthHash, (rotateUserCredentials hashToken driver db userId update).2.users =
        (writeUser db userId update newAuthHash).users := by
  unfold rotateUserCredentials
  cases hashToken update.newAuthToken with
  | error error => exact .inl rfl
  | ok newAuthHash =>
      cases run : rotationTransaction driver db userId update newAuthHash with
      | error error =>
          simp only [run]
          exact .inl trivial
      | ok committed =>
          obtain ⟨_, rfl⟩ := rotationTransaction_eq_ok run
          simp only [run, writeBundle_users]
          exact .inr ⟨newAuthHash, rfl⟩

/-- A rotation may replace the wrapped keys of its own account, where its transaction
commits. -/
theorem advanceRotate_keepsKeys
    {argon2 : Argon2} {db after : Database} {before next : RotationFlight}
    {act : RotationAct} {replaced : StoredUser → Prop}
    (taken : advanceRotate argon2 db before act = some (after, next))
    (allowed : ∀ userId body verifiedHash driver heard,
      before = .verified userId body verifiedHash → act = .transact driver heard →
        body.update.newArgon2Salt ≠ "" ∧ ∀ user ∈ db.users.find? userId, replaced user) :
    KeepsKeys replaced db.users after.users := by
  have same : KeepsKeys replaced db.users db.users := keepsKeys_of_subset fun _ present => present
  unfold advanceRotate at taken
  split at taken
  · cases taken
    exact same
  · cases taken
    exact same
  case h_3 userId body verifiedHash driver heard =>
    obtain ⟨salt, own⟩ := allowed userId body verifiedHash driver heard rfl rfl
    have committed : (rotateUserCredentials argon2.hashAuthToken driver db userId
        body.update).2 = after :=
      (Prod.mk.inj (Option.some.inj taken)).1
    rw [← committed]
    rcases rotateUserCredentials_users argon2.hashAuthToken driver db userId
      body.update with unchanged | ⟨newAuthHash, written⟩
    · rw [unchanged]
      exact same
    · rw [written]
      exact keepsKeys_rotate salt own
  · cases taken

end Operations

section Runs

variable {argon2 : Argon2} {pool next : KeyPool} {move : KeyMove}

/-- A rotation that begins has checked the new credentials. -/
theorem known_beginKeyRequest (store : KeyStore) (request : KeyRequest) :
    (beginKeyRequest store request).Known argon2 := by
  cases request with
  | register body => trivial
  | callback providerId subject => trivial
  | enrol userId body => trivial
  | rotateCredentials userId body =>
      simp only [beginKeyRequest, beginRotate]
      cases checked : checkNewCredentials body.update with
      | error error => trivial
      | ok accepted => exact checked

/-- A rotation that goes on to its transaction has verified its token. -/
theorem known_advanceKeyRequest {store after : KeyStore} {before flight : KeyFlight} {act : KeyAct}
    (known : before.Known argon2)
    (taken : advanceKeyRequest argon2 store before act = some (after, flight)) :
    flight.Known argon2 := by
  unfold advanceKeyRequest at taken
  split at taken
  case h_4 rotation act =>
    obtain ⟨⟨db, next⟩, advanced, same⟩ := Option.map_eq_some_iff.mp taken
    cases same
    unfold advanceRotate at advanced
    split at advanced
    case h_1 userId body =>
      cases advanced
      unfold verifyCurrent
      split
      · trivial
      · split
        · trivial
        case h_2 verified =>
          split
          · trivial
          · exact ⟨known, verified⟩
    case h_4 => cases advanced
    all_goals
      cases advanced
      trivial
  case h_5 => cases taken
  all_goals
    obtain ⟨_, _, same⟩ := Option.map_eq_some_iff.mp taken
    cases same
    trivial

/-- What requests have checked they go on having checked. -/
theorem known_step (known : ∀ flight ∈ pool.threads, flight.Known argon2)
    (taken : (keyRequests argon2).system pool move = some next) :
    ∀ flight ∈ next.threads, flight.Known argon2 := by
  refine Program.system_cases (motive := fun _ next =>
    ∀ flight ∈ next.threads, flight.Known argon2) ?_ ?_ ?_ taken
  · exact fun _ _ _ => known
  · intro request store flight begun
    cases begun
    exact forall_mem_append_singleton known (known_beginKeyRequest _ request)
  · intro thread act before store flight present advanced
    exact forall_mem_set known
      (known_advanceKeyRequest (known before (List.mem_of_getElem? present)) advanced)

/-- Beside the requests the accounts are changed by a purge only. -/
theorem keyEvent_cases {store after : KeyStore} {event : KeyEvent}
    (taken : keyEvent store event = some after) :
    after.users = store.users ∨ ∃ now, event = .purge now := by
  cases event with
  | purge now => exact .inr ⟨now, rfl⟩
  | registry event =>
      left
      cases event with
      | setUsers users => cases taken
      | createInvite id code label expiresInDays =>
          obtain ⟨registry, done, rfl⟩ := Option.map_eq_some_iff.mp taken
          simp only [registryEvent] at done
          split_ifs at done
          cases done
          rfl
      | wait now =>
          obtain ⟨registry, done, rfl⟩ := Option.map_eq_some_iff.mp taken
          simp only [registryEvent] at done
          split_ifs at done
          cases done
          rfl
      | revokeInvite _ | setRegistration _ =>
          cases taken
          rfl
  | setVaults mindMaps attachments unlockMethods =>
      cases taken
      exact .inl rfl

/-- Beside the requests, no account with a salt goes or changes. -/
theorem keyEvent_keepsKeys
    {replaced : StoredUser → Prop} {store after : KeyStore} {event : KeyEvent}
    (taken : keyEvent store event = some after) :
    KeepsKeys replaced store.users after.users := by
  rcases keyEvent_cases taken with same | ⟨now, rfl⟩
  · rw [same]
    exact keepsKeys_of_subset fun _ present => present
  · cases taken
    exact keepsKeys_purge store.directory now

/-- A request replaces the wrapped keys of an account with a salt only by the
transaction of a rotation. -/
theorem advanceKeyRequest_keepsKeys
    {store after : KeyStore} {before flight : KeyFlight} {act : KeyAct}
    {replaced : StoredUser → Prop}
    (taken : advanceKeyRequest argon2 store before act = some (after, flight))
    (allowed : ∀ userId body verifiedHash driver heard,
      before = .rotation (.verified userId body verifiedHash) →
        act = .rotation (.transact driver heard) →
          body.update.newArgon2Salt ≠ "" ∧ ∀ user ∈ store.users.find? userId, replaced user) :
    KeepsKeys replaced store.users after.users := by
  unfold advanceKeyRequest at taken
  split at taken
  case h_1 =>
    obtain ⟨⟨registry, next⟩, advanced, same⟩ := Option.map_eq_some_iff.mp taken
    cases same
    exact keepsKeys_of_subset (advanceRegister_users advanced)
  case h_2 =>
    obtain ⟨⟨directory, next⟩, advanced, same⟩ := Option.map_eq_some_iff.mp taken
    cases same
    exact keepsKeys_of_subset (advanceCallback_users advanced)
  case h_3 =>
    obtain ⟨⟨directory, next⟩, advanced, same⟩ := Option.map_eq_some_iff.mp taken
    cases same
    exact advanceEnrol_keepsKeys advanced
  case h_4 rotation act =>
    obtain ⟨⟨db, next⟩, advanced, same⟩ := Option.map_eq_some_iff.mp taken
    cases same
    refine advanceRotate_keepsKeys advanced ?_
    rintro userId body verifiedHash driver heard rfl rfl
    exact allowed userId body verifiedHash driver heard rfl rfl
  case h_5 => cases taken

/-- A move whose transaction finds the hash that was verified keeps the keys. -/
theorem keysKept_step (known : ∀ flight ∈ pool.threads, flight.Known argon2)
    (commits : CommitsCurrent pool move)
    (taken : (keyRequests argon2).system pool move = some next) :
    KeysKept argon2 pool move next := by
  revert commits
  refine Program.system_cases
    (motive := fun move next => CommitsCurrent pool move → KeysKept argon2 pool move next)
    ?_ ?_ ?_ taken
  · exact fun event store happened _ => keyEvent_keepsKeys happened
  · intro request store flight begun _
    cases begun
    exact keepsKeys_of_subset fun _ present => present
  · intro thread act before store flight present advanced commits
    refine advanceKeyRequest_keepsKeys advanced ?_
    rintro userId body verifiedHash driver heard rfl rfl
    obtain ⟨checked, verified⟩ := known _ (List.mem_of_getElem? present)
    refine ⟨salt_of_checkNewCredentials checked, fun user found => ?_⟩
    have current : user.authHash = verifiedHash := commits _ present user found
    have named : user.id = userId := (Table.find?_eq_some.mp found).2
    refine ⟨_, present, named.symm, ?_⟩
    rw [current]
    exact verified

/-- In every run of registrations, callbacks, enrolments, rotations and sweeps whose
transactions find the hash that was verified, accounts keep their keys once they have
a salt, but for the wrapped ones that a rotation with the current token replaces. -/
theorem keysKept_of_commitsCurrent (argon2 : Argon2) (store : KeyStore) (run : List KeyMove)
    (commits : EveryStepAllowed (keyRequests argon2).system CommitsCurrent
      { shared := store, threads := [] } run) :
    EveryStep (keyRequests argon2).system (KeysKept argon2)
      { shared := store, threads := [] } run := by
  have preserved : ∀ (pool : KeyPool) move next,
      (∀ flight ∈ pool.threads, flight.Known argon2) → CommitsCurrent pool move →
        (keyRequests argon2).system pool move = some next →
          ∀ flight ∈ next.threads, flight.Known argon2 :=
    fun _ _ _ known _ taken => known_step known taken
  refine everyStep_of_allowed preserved ?_ ?_ commits
  · intro pool move next known commits taken
    exact keysKept_step known commits taken
  · exact List.forall_mem_nil _

end Runs

/-- A driver whose statements all go through. -/
def healthyDriver : Driver := fun _ => .ok ()

/-- A server with one account, whose token is 64 times the digit `a`. -/
def aliceStore : KeyStore where
  registry := .fresh (.insert .empty
    { id := "alice", username := "alice"
      authHash := "aaaaaaaaaaaaaaaaaaaaaaaaaaaaaaaaaaaaaaaaaaaaaaaaaaaaaaaaaaaaaaaa"
      argon2Salt := "salt", argon2Params := ⟨65536, 3, 4⟩
      classicalPublicKey := "classical", pqPublicKey := "pq"
      classicalPrivEncrypted := "wrapped", pqPrivEncrypted := "wrapped"
      keyVersion := 1, createdAt := 0, isLocked := false } (by simp [Table.empty]))
    true 0
  identities := .empty
  mindMaps := .empty
  attachments := .empty
  unlockMethods := .empty

/-- A rotation of that account by its first token. -/
def aliceRotates (newAuthToken : String) (newKeyVersion : UInt32) : KeyRequest :=
  .rotateCredentials "alice"
    { currentAuthToken := "aaaaaaaaaaaaaaaaaaaaaaaaaaaaaaaaaaaaaaaaaaaaaaaaaaaaaaaaaaaaaaaa"
      update :=
        { newAuthToken := newAuthToken, newArgon2Salt := newAuthToken
          newArgon2Params := ⟨65536, 3, 4⟩
          newClassicalPrivEncrypted := newAuthToken, newPqPrivEncrypted := newAuthToken
          newKeyVersion := newKeyVersion, updatedVaults := [], updatedAttachments := [] } }

theorem keysKept_of_commitsCurrent_alice :
    EveryStep (keyRequests plainArgon2).system (KeysKept plainArgon2)
      { shared := aliceStore, threads := [] }
      [.spawn (aliceRotates
          "bbbbbbbbbbbbbbbbbbbbbbbbbbbbbbbbbbbbbbbbbbbbbbbbbbbbbbbbbbbbbbbb" 2),
        .advance 0 (.rotation (.loadUser .done)),
        .advance 0 (.rotation (.transact healthyDriver true))] :=
  keysKept_of_commitsCurrent _ _ _ (by decide +kernel)

/-- Two rotations verify the same token, and the one that asks for the version after
the other's commits after it. -/
theorem old_token_replaces_keys :
    ¬ EveryStep (keyRequests plainArgon2).system (KeysKept plainArgon2)
      { shared := aliceStore, threads := [] }
      [.spawn (aliceRotates
          "cccccccccccccccccccccccccccccccccccccccccccccccccccccccccccccccc" 3),
        .advance 0 (.rotation (.loadUser .done)),
        .spawn (aliceRotates "bbbbbbbbbbbbbbbbbbbbbbbbbbbbbbbbbbbbbbbbbbbbbbbbbbbbbbbbbbbbbbbb" 2),
        .advance 1 (.rotation (.loadUser .done)),
        .advance 1 (.rotation (.transact healthyDriver true)),
        .advance 0 (.rotation (.transact healthyDriver true))] := by
  decide +kernel

end Accounts
end MindMapVault
