import MindMapVault.Accounts.KeysKept

/-!
# Names of accounts that are not finished

The account of a new subject carries a name made of its id behind `pending-`, until its
owner picks one. An enrolment refuses names that begin like that, in any letter case, so
that the names are reserved; a registration does not look. As long as no registration
with such a name is written, whoever has one is a shell, and a new shell finds its name
free. Every other writer of accounts is here as well.
-/

namespace MindMapVault
namespace Accounts

open Remote Transition Threads
open Vault (trim)

/-- The name begins with `pending-` in some letter case. -/
def reservedName (name : String) : Bool :=
  "pending-".toList.isPrefixOf (name.toList.map Char.toLower)

/-- A federated account that is not enrolled, under the name the server gave it. -/
def StoredUser.Placeholder (user : StoredUser) : Prop :=
  user.unenrolled = true ∧ user.username = s!"pending-{user.id}"

instance (user : StoredUser) : Decidable user.Placeholder :=
  inferInstanceAs (Decidable (_ ∧ _))

/-- Reserved names are those of placeholders, and a shell account can be created under
every new id. -/
structure NamesReserved (store : KeyStore) : Prop where
  placeholder : ∀ user ∈ store.users.rows, reservedName user.username = true → user.Placeholder
  creatable : ∀ minted now, minted ∉ store.users.rows.map StoredUser.id →
    ∃ after, store.directory.createUser (shellUser minted now) = .ok after

/-- The registration would write an account with a reserved name, unless the database
refuses. -/
def KeyFlight.RefusesReserved
    (store : KeyStore) (minted : String) (outcome : Outcome) : KeyFlight → Prop
  | .registration (.free body _ _) =>
      reservedName (trim body.username) = true →
        outcome = .refused ∨ minted ∈ store.users.rows.map StoredUser.id ∨
          ∃ user ∈ store.users.rows, user.username = trim body.username
  | _ => True

instance (store : KeyStore) (minted : String) (outcome : Outcome) (flight : KeyFlight) :
    Decidable (flight.RefusesReserved store minted outcome) :=
  match flight with
  | .registration (.free body _ _) =>
      inferInstanceAs (Decidable (reservedName (trim body.username) = true →
        outcome = .refused ∨ minted ∈ store.users.rows.map StoredUser.id ∨
          ∃ user ∈ store.users.rows, user.username = trim body.username))
  | .registration (.claiming _ _ _) | .registration (.claimed _ _ _)
  | .registration (.releasing _ _ _) | .registration (.answered _ _ _)
  | .callback _ | .enrolment _ | .rotation _ => .isTrue trivial

/-- No registration writes an account with a reserved name. -/
def RegistersUnreserved (pool : KeyPool) : KeyMove → Prop
  | .advance thread (.registration (.createUser minted _ outcome)) =>
      ∀ flight ∈ pool.threads[thread]?, flight.RefusesReserved pool.shared minted outcome
  | _ => True

instance (pool : KeyPool) (move : KeyMove) : Decidable (RegistersUnreserved pool move) :=
  match move with
  | .advance thread (.registration (.createUser minted _ outcome)) =>
      inferInstanceAs (Decidable (∀ flight ∈ pool.threads[thread]?,
        flight.RefusesReserved pool.shared minted outcome))
  | .advance _ (.registration (.claim _)) | .advance _ (.registration (.loadUser _))
  | .advance _ (.registration (.hashFails _)) | .advance _ (.registration (.release _))
  | .advance _ (.callback _) | .advance _ (.enrolment _) | .advance _ (.rotation _)
  | .outside _ | .spawn _ => .isTrue trivial

/-! ### Names -/

theorem reservedName_shell (minted : String) :
    reservedName s!"pending-{minted}" = true := by
  have listed : (s!"pending-{minted}").toList = "pending-".toList ++ minted.toList := by
    simp [toString]
  rw [reservedName, listed, List.map_append, List.isPrefixOf_iff_prefix]
  exact ⟨_, rfl⟩

/-- Two shells of one name have one id. -/
theorem shell_name_inj {first second : String}
    (same : s!"pending-{first}" = s!"pending-{second}") : first = second := by
  have chars := congrArg String.toList same
  exact String.toList_inj.mp (by simpa [toString] using chars)

/-- A name an enrolment accepts is not reserved. -/
theorem reservedName_normalizeUsername {raw name : String}
    (accepted : normalizeUsername raw = .ok name) : reservedName name = false := by
  unfold normalizeUsername at accepted
  dsimp only at accepted
  split_ifs at accepted with _ _ unreserved _
  cases accepted
  exact Bool.eq_false_iff.mpr unreserved

/-! ### The table of accounts -/

/-- Who has a reserved name or no salt is a placeholder. -/
def OnlyPlaceholders (users : Table StoredUser.id) : Prop :=
  ∀ user ∈ users.rows, reservedName user.username = true ∨ user.argon2Salt = "" → user.Placeholder

section Tables

variable {users : Table StoredUser.id}

/-- A placeholder has no password. -/
theorem StoredUser.Placeholder.hash {user : StoredUser} (placeholder : user.Placeholder) :
    user.authHash = "" := by
  have bare := placeholder.1
  simp only [StoredUser.unenrolled, Bool.and_eq_true, beq_iff_eq] at bare
  exact bare.2

/-- A placeholder has no salt. -/
theorem StoredUser.Placeholder.salt {user : StoredUser} (placeholder : user.Placeholder) :
    user.argon2Salt = "" := by
  have bare := placeholder.1
  simp only [StoredUser.unenrolled, Bool.and_eq_true, beq_iff_eq] at bare
  exact bare.1

theorem onlyPlaceholders_of_eq {after : Table StoredUser.id} (same : after = users)
    (only : OnlyPlaceholders users) : OnlyPlaceholders after := same ▸ only

theorem onlyPlaceholders_insert (only : OnlyPlaceholders users) {user : StoredUser}
    (new : user.id ∉ users.rows.map StoredUser.id)
    (added : reservedName user.username = true ∨ user.argon2Salt = "" → user.Placeholder) :
    OnlyPlaceholders (users.insert user new) := by
  intro other present
  rcases (Table.mem_rows_insert new).mp present with old | rfl
  · exact only other old
  · exact added

theorem onlyPlaceholders_update (only : OnlyPlaceholders users)
    {condition : StoredUser → Bool} (change : StoredUser → StoredUser)
    (keepsKey : ∀ user, (change user).id = user.id)
    (changed : ∀ user ∈ users.rows, condition user = true →
      reservedName (change user).username = false ∧ (change user).argon2Salt ≠ "") :
    OnlyPlaceholders (users.update condition change keepsKey) := by
  intro other present
  obtain ⟨user, listed, rfl⟩ := Table.mem_rows_update.mp present
  split_ifs with matching
  · obtain ⟨unreserved, salted⟩ := changed user listed matching
    rintro (reserved | bare)
    · rw [unreserved] at reserved
      cases reserved
    · exact absurd bare salted
  · exact only user listed

/-- Where reserved names are those of placeholders, no account has the name of a shell
that is not there. -/
theorem username_ne_shell (only : OnlyPlaceholders users) {minted : String}
    (new : minted ∉ users.rows.map StoredUser.id) {user : StoredUser}
    (present : user ∈ users.rows) : user.username ≠ s!"pending-{minted}" := by
  intro same
  have reserved : reservedName user.username = true := by
    rw [same]
    exact reservedName_shell minted
  have placeholder := only user present (.inl reserved)
  have own : user.id = minted := shell_name_inj (placeholder.2.symm.trans same)
  exact new (own ▸ List.mem_map_of_mem present)

theorem namesReserved_of_onlyPlaceholders {store : KeyStore}
    (only : OnlyPlaceholders store.users) : NamesReserved store where
  placeholder := fun user present reserved => only user present (.inl reserved)
  creatable := by
    intro minted now new
    have unlisted : (shellUser minted now).id ∉ store.directory.users.rows.map StoredUser.id := new
    have free : store.directory.users.rows.any
        (·.username == (shellUser minted now).username) = false := by
      refine List.any_eq_false.mpr fun user present taken => ?_
      exact username_ne_shell only new present (beq_iff_eq.mp taken)
    unfold Directory.createUser
    rw [dif_pos unlisted, if_neg (by rw [free]; exact Bool.false_ne_true)]
    exact ⟨_, rfl⟩

end Tables

/-! ### Every run -/

/-- What a request under way has checked. -/
def KeyFlight.Checked (store : KeyStore) : KeyFlight → Prop
  | .registration (.claiming body _ _) | .registration (.claimed body _ _)
  | .registration (.free body _ _) => body.argon2Salt ≠ ""
  | .enrolment (.checked _ keys) | .enrolment (.free _ keys) =>
      reservedName keys.username = false ∧ keys.argon2Salt ≠ ""
  | .rotation (.checked _ body) => checkNewCredentials body.update = .ok ()
  | .rotation (.verified userId body _) =>
      checkNewCredentials body.update = .ok () ∧
        ∃ user ∈ store.users.rows, user.id = userId ∧ user.argon2Salt ≠ ""
  | _ => True

section Runs

variable {argon2 : Argon2}

theorem checked_beginKeyRequest (store : KeyStore) (request : KeyRequest) :
    (beginKeyRequest store request).Checked store := by
  cases request with
  | register body =>
      by_cases missing : body.authToken = "" ∨ body.argon2Salt = ""
      · simp only [beginKeyRequest, beginRegister, if_pos missing]
        split_ifs <;> trivial
      · have salted : body.argon2Salt ≠ "" := fun bare => missing (.inr bare)
        simp only [beginKeyRequest, beginRegister, if_neg missing]
        split_ifs
        · trivial
        · trivial
        · exact salted
        · split
          · exact salted
          · trivial
  | callback providerId subject => trivial
  | enrol userId body =>
      simp only [beginKeyRequest, beginEnrol]
      cases accepted : normalizeUsername body.username with
      | error error => trivial
      | ok name =>
          dsimp only
          split_ifs with missing
          · trivial
          · refine ⟨reservedName_normalizeUsername accepted, fun bare => missing (.inl ?_)⟩
            rw [show body.argon2Salt = "" from bare]
            rfl
  | rotateCredentials userId body =>
      simp only [beginKeyRequest, beginRotate]
      cases accepted : checkNewCredentials body.update with
      | error error => trivial
      | ok passed => exact accepted

/-- A salt stays, and so does what a request has checked. -/
theorem KeyFlight.Checked.mono {store after : KeyStore} {flight : KeyFlight}
    (kept : KeepsKeys (fun _ => True) store.users after.users)
    (checked : flight.Checked store) : flight.Checked after := by
  unfold KeyFlight.Checked at checked ⊢
  split at checked
  case h_7 userId body verifiedHash =>
    obtain ⟨accepted, user, present, own, salted⟩ := checked
    obtain ⟨row, listed, same, stillSalted, _⟩ := kept user present salted
    exact ⟨accepted, row, listed, same.trans own, stillSalted⟩
  all_goals exact checked

/-- The accounts and the requests under way are as they should be. -/
abbrev Reserved (pool : KeyPool) : Prop :=
  Holds (fun store => OnlyPlaceholders store.users) (fun store flight => flight.Checked store) pool

/-- Beside the requests accounts only go. -/
theorem keyEvent_users {store after : KeyStore} {event : KeyEvent}
    (taken : keyEvent store event = some after) :
    ∀ user ∈ after.users.rows, user ∈ store.users.rows := by
  intro user present
  rcases keyEvent_cases taken with same | ⟨now, rfl⟩
  · rwa [same] at present
  · cases taken
    exact (Table.mem_rows_delete.mp present).1

/-- A loaded account whose token is verified has a salt, where Argon2 refuses the empty
hash. -/
theorem checked_verifyCurrent (refuses : ∀ token, argon2.verifyAuthToken token "" ≠ .ok ())
    {store : KeyStore} (only : OnlyPlaceholders store.users) {userId : String}
    {body : RotateCredentialsRequest} (accepted : checkNewCredentials body.update = .ok ()) :
    (KeyFlight.rotation (verifyCurrent argon2 store.database userId body)).Checked store := by
  unfold verifyCurrent
  cases loaded : findUser store.database userId with
  | error error => trivial
  | ok user =>
      simp only
      cases verified : argon2.verifyAuthToken body.currentAuthToken user.authHash with
      | error error => trivial
      | ok passed =>
          cases checkRotatedAttachments body.update.updatedAttachments with
          | error error => trivial
          | ok attachments =>
              obtain ⟨present, own⟩ := Table.find?_eq_some.mp (findUser_eq_ok.mp loaded)
              refine ⟨accepted, user, present, own, fun bare => ?_⟩
              have placeholder := only user present (.inr bare)
              rw [placeholder.hash] at verified
              exact refuses body.currentAuthToken verified

/-- An operation of a request leaves salts and what was checked. -/
theorem checked_keepsKeys {store after : KeyStore} {before flight : KeyFlight}
    {act : KeyAct} (checked : before.Checked store)
    (taken : advanceKeyRequest argon2 store before act = some (after, flight)) :
    KeepsKeys (fun _ => True) store.users after.users := by
  refine advanceKeyRequest_keepsKeys taken ?_
  rintro userId body verifiedHash driver heard rfl rfl
  exact ⟨salt_of_checkNewCredentials checked.1, fun _ _ => trivial⟩

theorem checked_releaseInvite {store : KeyStore} (invite : Option RegistrationInvite)
    (account : Option String) (error : AppError) :
    (KeyFlight.registration (releaseInvite invite account error)).Checked store := by
  cases invite with
  | none => trivial
  | some invite => trivial

/-- A request goes on with what it has checked. -/
theorem checked_advanceKeyRequest (refuses : ∀ token, argon2.verifyAuthToken token "" ≠ .ok ())
    {store after : KeyStore} (only : OnlyPlaceholders store.users)
    {before flight : KeyFlight} {act : KeyAct} (checked : before.Checked store)
    (taken : advanceKeyRequest argon2 store before act = some (after, flight)) :
    flight.Checked after := by
  unfold advanceKeyRequest at taken
  split at taken
  case h_1 registration act =>
    obtain ⟨⟨registry, next⟩, advanced, same⟩ := Option.map_eq_some_iff.mp taken
    cases same
    unfold advanceRegister at advanced
    split at advanced
    · dsimp only at advanced
      split at advanced
      · split at advanced <;> cases advanced
        · exact checked
        · trivial
      · cases advanced
        trivial
      · cases advanced
        trivial
    · split_ifs at advanced <;> cases advanced
      · exact checked_releaseInvite _ _ _
      · exact checked
    · cases advanced
      trivial
    · cases advanced
      exact checked_releaseInvite _ _ _
    · dsimp only at advanced
      split at advanced <;> cases advanced
      · trivial
      all_goals exact checked_releaseInvite _ _ _
    · cases advanced
      trivial
    · cases advanced
  case h_2 =>
    obtain ⟨_, _, same⟩ := Option.map_eq_some_iff.mp taken
    cases same
    trivial
  case h_3 enrolment act =>
    obtain ⟨⟨directory, next⟩, advanced, same⟩ := Option.map_eq_some_iff.mp taken
    cases same
    unfold advanceEnrol at advanced
    split at advanced
    · split_ifs at advanced <;> cases advanced
      · trivial
      · exact checked
    · cases advanced
      trivial
    · split at advanced <;> cases advanced <;> trivial
    · cases advanced
  case h_4 rotation act =>
    obtain ⟨⟨db, next⟩, advanced, same⟩ := Option.map_eq_some_iff.mp taken
    cases same
    unfold advanceRotate at advanced
    split at advanced
    · cases advanced
      exact checked_verifyCurrent refuses only checked
    · cases advanced
      trivial
    · have answered := (Prod.mk.inj (Option.some.inj advanced)).2
      subst answered
      trivial
    · cases advanced
  case h_5 => cases taken

/-- What a rotation writes has a salt, and the name it had. -/
theorem onlyPlaceholders_rotate {users : Table StoredUser.id} (only : OnlyPlaceholders users)
    {userId newAuthHash : String} {update : RotateCredentialsUpdate}
    (salt : update.newArgon2Salt ≠ "")
    (salted : ∃ user ∈ users.rows, user.id = userId ∧ user.argon2Salt ≠ "") :
    OnlyPlaceholders (users.update (·.id == userId) (StoredUser.rotate update newAuthHash)
      fun _ => rfl) := by
  obtain ⟨row, listed, own, rowSalted⟩ := salted
  refine onlyPlaceholders_update only (StoredUser.rotate update newAuthHash)
    (fun _ => rfl) fun user present matching => ⟨?_, salt⟩
  have same : user = row :=
    users.eq_of_key_eq present listed ((beq_iff_eq.mp matching).trans own.symm)
  subst same
  refine Bool.eq_false_iff.mpr fun reserved => rowSalted ?_
  exact (only user present (.inl reserved)).salt

/-- An operation writes no reserved name, if it is not that of a registration with
one. -/
theorem onlyPlaceholders_advance {store after : KeyStore} {before flight : KeyFlight}
    {act : KeyAct} (only : OnlyPlaceholders store.users) (checked : before.Checked store)
    (refused : ∀ minted authHash outcome,
      act = .registration (.createUser minted authHash outcome) →
        before.RefusesReserved store minted outcome)
    (taken : advanceKeyRequest argon2 store before act = some (after, flight)) :
    OnlyPlaceholders after.users := by
  unfold advanceKeyRequest at taken
  split at taken
  case h_1 registration act =>
    obtain ⟨⟨registry, next⟩, advanced, same⟩ := Option.map_eq_some_iff.mp taken
    cases same
    rcases advanceRegister_writes advanced with unchanged |
      ⟨body, invite, now, minted, authHash, outcome, rfl, rfl, went, created⟩
    · exact onlyPlaceholders_of_eq unchanged only
    · obtain ⟨new, written, free⟩ := createUser_eq_ok created
      have added : OnlyPlaceholders (store.registry.users.insert
          (registeredUser minted (trim body.username) authHash body now) new) := by
        refine onlyPlaceholders_insert only new ?_
        rintro (reserved | bare)
        · rcases refused minted authHash outcome rfl reserved with
            stopped | known | ⟨user, present, same⟩
          · exact absurd stopped went
          · exact absurd known new
          · exact absurd same (free user present)
        · exact absurd bare checked
      exact onlyPlaceholders_of_eq written added
  case h_2 =>
    obtain ⟨⟨directory, next⟩, advanced, same⟩ := Option.map_eq_some_iff.mp taken
    cases same
    rcases advanceCallback_writes advanced with unchanged | ⟨minted, now, new, written⟩
    · exact onlyPlaceholders_of_eq unchanged only
    · have added := onlyPlaceholders_insert only new fun _ => ⟨rfl, rfl⟩
      exact onlyPlaceholders_of_eq written added
  case h_3 =>
    obtain ⟨⟨directory, next⟩, advanced, same⟩ := Option.map_eq_some_iff.mp taken
    cases same
    rcases advanceEnrol_writes advanced with unchanged | ⟨userId, keys, rfl, written⟩
    · exact onlyPlaceholders_of_eq unchanged only
    · have finished : OnlyPlaceholders
          (store.directory.enrolAccountKeys userId keys).users :=
        onlyPlaceholders_update only (StoredUser.enrolled keys) (fun _ => rfl) fun _ _ _ => checked
      exact onlyPlaceholders_of_eq written finished
  case h_4 rotation act =>
    obtain ⟨⟨db, next⟩, advanced, same⟩ := Option.map_eq_some_iff.mp taken
    cases same
    unfold advanceRotate at advanced
    split at advanced
    · cases advanced
      exact only
    · cases advanced
      exact only
    · rename_i userId body verifiedHash driver heard
      have committed : (rotateUserCredentials argon2.hashAuthToken driver store.database
          userId body.update).2 = db :=
        (Prod.mk.inj (Option.some.inj advanced)).1
      rcases rotateUserCredentials_users argon2.hashAuthToken driver store.database userId
        body.update with unchanged | ⟨newAuthHash, written⟩
      · rw [committed] at unchanged
        exact onlyPlaceholders_of_eq unchanged only
      · rw [committed] at written
        exact onlyPlaceholders_of_eq written
          (onlyPlaceholders_rotate only (salt_of_checkNewCredentials checked.1) checked.2)
    · cases advanced
  case h_5 => cases taken

/-- A move that writes no registration with a reserved name keeps what holds. -/
theorem reserved_step (refuses : ∀ token, argon2.verifyAuthToken token "" ≠ .ok ())
    (pool : KeyPool) (move : KeyMove) (next : KeyPool) (holds : Reserved pool)
    (unreserved : RegistersUnreserved pool move)
    (taken : (keyRequests argon2).system pool move = some next) : Reserved next := by
  refine holds_preserved RegistersUnreserved ?_ ?_ ?_ pool move next holds unreserved taken
  · intro pool event store held _ happened
    have kept : KeepsKeys (fun _ => True) pool.shared.users store.users :=
      keyEvent_keepsKeys happened
    exact ⟨fun user present => held.1 user (keyEvent_users happened user present),
      fun flight checked => checked.mono kept⟩
  · intro pool request store flight held _ begun
    cases begun
    exact ⟨held.1, checked_beginKeyRequest _ request, fun _ checked => checked⟩
  · intro pool thread act before store flight held unreserved present checked advanced
    have kept := checked_keepsKeys checked advanced
    refine ⟨onlyPlaceholders_advance held.1 checked ?_ advanced,
      checked_advanceKeyRequest refuses held.1 checked advanced,
      fun other known => known.mono kept⟩
    rintro minted authHash outcome rfl
    exact unreserved before present

/-- A registration that the database does not refuse is written. -/
theorem advance_createUser_writes {store after : KeyStore} {flight : KeyFlight}
    {body : RegisterRequest} {invite : Option RegistrationInvite} {now : Vault.DateTime}
    {minted authHash : String} {outcome : Outcome} (went : outcome ≠ .refused)
    (new : minted ∉ store.users.rows.map StoredUser.id)
    (free : ∀ user ∈ store.users.rows, user.username ≠ trim body.username)
    (taken : advanceKeyRequest argon2 store (.registration (.free body invite now))
      (.registration (.createUser minted authHash outcome)) = some (after, flight)) :
    registeredUser minted (trim body.username) authHash body now ∈ after.users.rows := by
  have unlisted : (registeredUser minted (trim body.username) authHash body now).id ∉
      store.registry.users.rows.map StoredUser.id := new
  have unnamed : ¬ (store.registry.users.rows.any (·.username ==
      (registeredUser minted (trim body.username) authHash body now).username)) = true := by
    intro named
    obtain ⟨user, present, same⟩ := List.any_eq_true.mp named
    exact free user present (beq_iff_eq.mp same)
  have created : ∃ registry, store.registry.createUser
      (registeredUser minted (trim body.username) authHash body now) invite = .ok registry ∧
        registeredUser minted (trim body.username) authHash body now ∈ registry.users.rows := by
    unfold Registry.createUser
    rw [dif_pos unlisted, if_neg unnamed]
    exact ⟨_, rfl, (Table.mem_rows_insert unlisted).mpr (.inr rfl)⟩
  obtain ⟨registry, created, written⟩ := created
  cases outcome with
  | refused => exact absurd rfl went
  | done =>
      simp only [advanceKeyRequest, advanceRegister, created, Option.map_some,
        Option.some.injEq, Prod.mk.injEq] at taken
      rw [← taken.1]
      exact written
  | unanswered =>
      simp only [advanceKeyRequest, advanceRegister, created, Option.map_some,
        Option.some.injEq, Prod.mk.injEq] at taken
      rw [← taken.1]
      exact written

/-- Where reserved names are still those of placeholders, no registration with one was
written. -/
theorem registersUnreserved_of_namesReserved {pool next : KeyPool} {move : KeyMove}
    (holds : Reserved pool) (taken : (keyRequests argon2).system pool move = some next)
    (names : NamesReserved next.shared) : RegistersUnreserved pool move := by
  revert names
  refine Program.system_cases (motive := fun move next =>
    NamesReserved next.shared → RegistersUnreserved pool move) ?_ ?_ ?_ taken
  · exact fun _ _ _ _ => trivial
  · exact fun _ _ _ _ _ => trivial
  · intro thread act before store flight present advanced names
    unfold RegistersUnreserved
    split
    case h_2 => trivial
    case h_1 minted authHash outcome same =>
      cases same
      intro other standing
      cases Option.some.inj (present.symm.trans standing)
      unfold KeyFlight.RefusesReserved
      split
      case h_2 => trivial
      case h_1 body invite now =>
        intro reserved
        by_contra writes
        simp only [not_or, not_exists, not_and] at writes
        obtain ⟨went, new, free⟩ := writes
        have moved : advanceKeyRequest argon2 pool.shared
            (.registration (.free body invite now))
            (.registration (.createUser minted authHash outcome)) = some (store, flight) :=
          advanced
        have written := advance_createUser_writes went new free moved
        have salted := holds.2 _ (List.mem_of_getElem? present)
        exact salted (names.placeholder _ written reserved).salt

/-- An empty database, open to sign-ups or not. -/
def emptyStore (registrationEnabled : Bool) (clock : Vault.DateTime) : KeyStore where
  registry := .fresh .empty registrationEnabled clock
  identities := .empty
  mindMaps := .empty
  attachments := .empty
  unlockMethods := .empty

/-- In a run of registrations, callbacks, enrolments, rotations and sweeps from an empty
database, reserved names are those of placeholders in every state, exactly when no
registration with such a name is written. -/
theorem namesReserved_iff_registersUnreserved
    (refuses : ∀ token, argon2.verifyAuthToken token "" ≠ .ok ())
    (registrationEnabled : Bool) (clock : Vault.DateTime) (run : List KeyMove) :
    EveryState (keyRequests argon2).system (fun pool => NamesReserved pool.shared)
        { shared := emptyStore registrationEnabled clock, threads := [] } run ↔
      EveryStepAllowed (keyRequests argon2).system RegistersUnreserved
        { shared := emptyStore registrationEnabled clock, threads := [] } run := by
  have named : ∀ pool : KeyPool, Reserved pool → NamesReserved pool.shared :=
    fun _ holds => namesReserved_of_onlyPlaceholders holds.1
  refine everyState_iff_everyStepAllowed named ?_ ?_ ⟨?_, ?_⟩ run
  · intro pool move next holds taken
    refine ⟨registersUnreserved_of_namesReserved holds taken, fun unreserved => ?_⟩
    exact named next (reserved_step refuses pool move next holds unreserved taken)
  · intro pool move next holds taken names
    have unreserved := registersUnreserved_of_namesReserved holds taken names
    exact reserved_step refuses pool move next holds unreserved taken
  · exact List.forall_mem_nil _
  · exact List.forall_mem_nil _

end Runs

/-- An Argon2 whose hash of a token is the token behind a prefix. -/
def prefixArgon2 : Argon2 where
  hashAuthToken := fun token => .ok ("$argon2id$" ++ token)
  parseHash := plainArgon2.parseHash
  verifyPassword := fun token storedHash => "$argon2id$" ++ token == storedHash

theorem prefixArgon2_refuses (token : String) :
    prefixArgon2.verifyAuthToken token "" ≠ .ok () := by
  intro accepted
  cases accepted

/-- A registration under a name. -/
def registers (name : String) : List KeyMove :=
  [.spawn (.register
      { username := name, authToken := "token", argon2Salt := "salt"
        argon2Params := ⟨65536, 3, 4⟩, classicalPublicKey := "classical"
        pqPublicKey := "pq", classicalPrivEncrypted := "wrapped"
        pqPrivEncrypted := "wrapped", inviteCode := none }),
    .advance 0 (.registration (.loadUser .done)),
    .advance 0 (.registration (.createUser "u1" "$argon2id$token" .done))]

/-- A callback of a new subject, whose account gets an id. -/
def firstCallback (minted : String) : List KeyMove :=
  [.spawn (.callback "p1" "alice"), .advance 1 (.callback .load),
    .advance 1 (.callback (.createUser minted 0))]

theorem namesReserved_iff_registersUnreserved_bob :
    EveryState (keyRequests prefixArgon2).system (fun pool => NamesReserved pool.shared)
      { shared := emptyStore true 0, threads := [] }
      (registers "bob" ++ firstCallback "u2") :=
  (namesReserved_iff_registersUnreserved prefixArgon2_refuses true 0 _).mpr (by decide +kernel)

/-- A person registers the name of the account that is about to be made, which then
cannot be created. -/
theorem pending_name_registered :
    ¬ EveryState (keyRequests prefixArgon2).system (fun pool => NamesReserved pool.shared)
        { shared := emptyStore true 0, threads := [] } (registers "pending-u2") ∧
      (exec (keyRequests prefixArgon2).system
          { shared := emptyStore true 0, threads := [] }
          (registers "pending-u2" ++ firstCallback "u2")).bind
        (fun pool => pool.threads[1]?) =
          some (.callback (.answered "p1" "alice"
            (.error (.database "duplicate key value violates unique constraint")))) := by
  refine ⟨fun names => ?_, by decide +kernel⟩
  have placeholders : EveryState (keyRequests prefixArgon2).system (fun pool =>
      ∀ user ∈ pool.shared.users.rows, reservedName user.username = true → user.Placeholder)
      { shared := emptyStore true 0, threads := [] } (registers "pending-u2") :=
    names.mono fun _ holds => holds.placeholder
  revert placeholders
  decide +kernel

end Accounts
end MindMapVault
