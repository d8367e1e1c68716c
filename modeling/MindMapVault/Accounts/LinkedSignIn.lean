import MindMapVault.Accounts.SignIn

/-!
# Tokens name the linked account

Whether a first callback may hand out the account it created depends on whether its
insert made the link. Where every link is new, no callback stops between creating
an account and linking it, and no sweep comes while an account it is due for awaits
its link or was resolved by a callback under way, every token names the account its
subject is linked to, and every sweep leaves no old account that is neither enrolled nor
linked.
-/

namespace MindMapVault
namespace Accounts

open Transition Threads

/-- The account a callback has created and has yet to link. -/
def Callback.awaitsLink : Callback → Option String
  | .created _ _ userId _ => some userId
  | _ => none

/-- The account a callback is about to issue tokens for. -/
def Callback.resolvedTo : Callback → Option String
  | .resolved _ _ userId _ _ => some userId
  | _ => none

/-- The account is enrolled, linked, or about to be linked. -/
def AccountedFor (pool : CallbackPool) (user : StoredUser) : Prop :=
  user.unenrolled = false ∨ pool.shared.isLinked user.id = true ∨
    ∃ callback ∈ pool.threads, callback.awaitsLink = some user.id

/-- The tokens a callback has just issued name the account its subject is linked
to. -/
def TokenNamesLink (move : CallbackMove) (after : CallbackPool) : Prop :=
  match move with
  | .advance thread _ =>
      match after.threads[thread]? with
      | some (.answered providerId subject (.ok session)) =>
          after.shared.linkedTo providerId subject = some session.userId
      | _ => True
  | _ => True

/-- A sweep leaves no account that is old enough for it and neither enrolled nor
linked. -/
def SweepComplete (move : CallbackMove) (after : CallbackPool) : Prop :=
  match move with
  | .outside (.purge now) =>
      ∀ user ∈ after.shared.users.rows,
        user.createdAt < now - Directory.unenrolledAccountTtl →
          user.unenrolled = false ∨ after.shared.isLinked user.id = true
  | _ => True

instance (move : CallbackMove) (after : CallbackPool) :
    Decidable (TokenNamesLink move after) := by
  unfold TokenNamesLink
  split
  · split <;> infer_instance
  · infer_instance

instance (move : CallbackMove) (after : CallbackPool) :
    Decidable (SweepComplete move after) := by
  unfold SweepComplete
  split <;> infer_instance

/-- A callback links a subject only if it has no link yet, and does not fail between
creating an account and linking it. -/
def Callback.Cleanly (directory : Directory) : Callback → CallbackAct → Prop
  | .created providerId subject _ _, .link =>
      directory.linkedTo providerId subject = none
  | .created _ _ _ _, .fail => False
  | _, _ => True

instance (directory : Directory) (callback : Callback) (act : CallbackAct) :
    Decidable (callback.Cleanly directory act) := by
  unfold Callback.Cleanly
  split <;> infer_instance

/-- Callbacks act cleanly, and a sweep removes no account a callback has resolved and
finds none that is old enough for it and awaits its link. -/
def SignsInCleanly (pool : CallbackPool) : CallbackMove → Prop
  | .outside (.purge now) =>
      ∀ callback ∈ pool.threads, ∀ user ∈ pool.shared.users.rows,
        (callback.resolvedTo = some user.id → pool.shared.purgeable now user = false) ∧
        (callback.awaitsLink = some user.id →
          ¬ user.createdAt < now - Directory.unenrolledAccountTtl)
  | .advance thread act =>
      ∀ callback ∈ pool.threads[thread]?, callback.Cleanly pool.shared act
  | _ => True

instance (pool : CallbackPool) (move : CallbackMove) :
    Decidable (SignsInCleanly pool move) := by
  unfold SignsInCleanly
  split <;> infer_instance

namespace Directory

variable {directory after : Directory}

theorem isLinked_iff {userId : String} :
    directory.isLinked userId = true ↔
      ∃ identity ∈ directory.identities.rows, identity.userId = userId := by
  simp [isLinked]

theorem linkedTo_eq_some {providerId subject userId : String} :
    directory.linkedTo providerId subject = some userId ↔
      ∃ identity ∈ directory.identities.rows,
        identity.key = (providerId, subject) ∧ identity.userId = userId := by
  simp only [linkedTo, Option.map_eq_some_iff, Table.find?_eq_some, and_assoc]

/-- Only the table of links matters. -/
theorem linkedTo_congr
    (same : after.identities = directory.identities) (providerId subject : String) :
    after.linkedTo providerId subject = directory.linkedTo providerId subject := by
  rw [linkedTo, same, linkedTo]

theorem isLinked_congr (same : after.identities = directory.identities) (userId : String) :
    after.isLinked userId = directory.isLinked userId := by
  rw [isLinked, same, isLinked]

/-- The account that is loaded is the one the subject is linked to. -/
theorem loadUserByFederatedIdentity_id {providerId subject : String} {user : StoredUser}
    (loaded : directory.loadUserByFederatedIdentity providerId subject = some user) :
    directory.linkedTo providerId subject = some user.id := by
  obtain ⟨userId, linked, found⟩ := Option.bind_eq_some_iff.mp loaded
  rw [linked, (Table.find?_eq_some.mp found).2]

/-- A new account is added to the others. -/
theorem createUser_ok {user : StoredUser} (done : directory.createUser user = .ok after) :
    after.identities = directory.identities ∧
      ∀ other ∈ after.users.rows, other ∈ directory.users.rows ∨ other = user := by
  unfold createUser at done
  split_ifs at done with new taken
  cases done
  exact ⟨rfl, fun _ => (Table.mem_rows_insert new).mp⟩

/-- A link that is new is made, if its account is there. -/
theorem linkFederatedIdentity_of_new (identity : FederatedIdentity)
    (unlinked : directory.linkedTo identity.providerId identity.subject = none) :
    (∃ new : identity.key ∉ directory.identities.rows.map FederatedIdentity.key,
      directory.linkFederatedIdentity identity =
        .ok { directory with identities := directory.identities.insert identity new }) ∨
    (∀ user ∈ directory.users.rows, user.id ≠ identity.userId) ∧
      ∃ error, directory.linkFederatedIdentity identity = .error error := by
  have new : identity.key ∉ directory.identities.rows.map FederatedIdentity.key := by
    intro present
    obtain ⟨other, stored, same⟩ := List.mem_map.mp present
    have linked := linkedTo_eq_some.mpr ⟨other, stored, same, rfl⟩
    rw [unlinked] at linked
    cases linked
  by_cases there : directory.users.rows.any (·.id == identity.userId) = true
  · exact .inl ⟨new, by rw [linkFederatedIdentity, dif_pos new, if_pos there]⟩
  · refine .inr ⟨by simpa using there, .database "insert violates foreign key constraint",
      ?_⟩
    rw [linkFederatedIdentity, dif_pos new, if_neg there]

/-- An insert that makes a link keeps the others. -/
theorem linkedTo_insert {identity : FederatedIdentity}
    {new : identity.key ∉ directory.identities.rows.map FederatedIdentity.key}
    {providerId subject userId : String}
    (linked : directory.linkedTo providerId subject = some userId) :
    { directory with identities := directory.identities.insert identity new }.linkedTo
      providerId subject = some userId := by
  obtain ⟨other, stored, same, named⟩ := linkedTo_eq_some.mp linked
  exact linkedTo_eq_some.mpr ⟨other, (Table.mem_rows_insert new).mpr (.inl stored), same, named⟩

section Purge

variable {now : Vault.DateTime}

/-- The links of an account that a sweep leaves alone stay. -/
theorem mem_identities_purge
    {identity : FederatedIdentity} (stored : identity ∈ directory.identities.rows)
    (stays : ∀ user ∈ directory.users.rows, user.id = identity.userId →
      directory.purgeable now user = false) :
    identity ∈ (directory.purgeUnenrolledAccounts now).identities.rows := by
  refine Table.mem_rows_delete.mpr ⟨stored, ?_⟩
  rw [List.any_eq_false]
  intro user present
  rw [Bool.and_eq_true, beq_iff_eq]
  rintro ⟨same, purged⟩
  rw [stays user present same] at purged
  cases purged

theorem linkedTo_purge {providerId subject userId : String}
    (linked : directory.linkedTo providerId subject = some userId)
    (stays : ∀ user ∈ directory.users.rows, user.id = userId →
      directory.purgeable now user = false) :
    (directory.purgeUnenrolledAccounts now).linkedTo providerId subject = some userId := by
  obtain ⟨identity, stored, same, rfl⟩ := linkedTo_eq_some.mp linked
  exact linkedTo_eq_some.mpr ⟨identity, mem_identities_purge stored stays, same, rfl⟩

theorem isLinked_purge {user : StoredUser} (present : user ∈ directory.users.rows)
    (stays : directory.purgeable now user = false) (linked : directory.isLinked user.id = true) :
    (directory.purgeUnenrolledAccounts now).isLinked user.id = true := by
  obtain ⟨identity, stored, named⟩ := isLinked_iff.mp linked
  refine isLinked_iff.mpr ⟨identity, mem_identities_purge stored ?_, named⟩
  intro other otherPresent same
  rw [directory.users.eq_of_key_eq otherPresent present (same.trans named)]
  exact stays

end Purge

/-- An enrolment touches no link, and the account it changes is enrolled. -/
theorem enrol_ok {userId : String} {body : EnrolKeysRequest}
    (done : directory.enrol userId body = .ok after) :
    after.identities = directory.identities ∧
      ∀ user ∈ after.users.rows, user ∈ directory.users.rows ∨ user.unenrolled = false := by
  unfold enrol at done
  cases named : normalizeUsername body.username with
  | error error => simp [named, bind, Except.bind] at done
  | ok username =>
      simp only [named, bind, Except.bind] at done
      split_ifs at done with incomplete taken pending
      cases done
      have salt : body.argon2Salt ≠ "" := by
        intro empty
        refine incomplete (.inl ?_)
        rw [empty]
        decide
      refine ⟨rfl, ?_⟩
      intro user present
      obtain ⟨old, stored, rfl⟩ := List.mem_map.mp present
      split_ifs
      · exact .inr (by simp [StoredUser.unenrolled, StoredUser.enrolled, salt])
      · exact .inl stored

end Directory

/-- What a callback that has resolved an account relies on. -/
def Callback.Known (directory : Directory) : Callback → Prop
  | .resolved providerId subject userId _ _ =>
      directory.linkedTo providerId subject = some userId
  | _ => True

/-- What one operation of a callback can do: it removes no link and no account, and
an account it adds or has yet to link is linked or waits to be. -/
structure CallbackStep
    (directory : Directory) (before : Callback) (next : Directory) (after : Callback) :
    Prop where
  known : after.Known next
  links : ∀ providerId subject userId,
    directory.linkedTo providerId subject = some userId →
      next.linkedTo providerId subject = some userId
  linked : ∀ userId, directory.isLinked userId = true → next.isLinked userId = true
  users : ∀ user ∈ next.users.rows, user ∈ directory.users.rows ∨ after.awaitsLink = some user.id
  awaited : ∀ user ∈ next.users.rows, before.awaitsLink = some user.id →
    next.isLinked user.id = true
  named : ∀ providerId subject session,
    after = .answered providerId subject (.ok session) →
      next.linkedTo providerId subject = some session.userId

namespace CallbackStep

variable {directory next : Directory} {before after : Callback}

/-- An operation that leaves the directory alone. -/
theorem idle (known : after.Known directory) (settled : before.awaitsLink = none)
    (named : ∀ providerId subject session,
      after = .answered providerId subject (.ok session) →
        directory.linkedTo providerId subject = some session.userId) :
    CallbackStep directory before directory after where
  known := known
  links := fun _ _ _ => id
  linked := fun _ => id
  users := fun _ => .inl
  awaited := by simp [settled]
  named := named

end CallbackStep

/-- A new account waits to be linked. -/
theorem callbackStep_createUser
    {directory next : Directory} {before after : Callback} {user : StoredUser}
    (done : directory.createUser user = .ok next)
    (settled : before.awaitsLink = none) (waits : after.awaitsLink = some user.id)
    (known : after.Known next)
    (named : ∀ providerId subject session, after ≠ .answered providerId subject (.ok session)) :
    CallbackStep directory before next after := by
  obtain ⟨same, users⟩ := Directory.createUser_ok done
  refine ⟨known, ?_, ?_, ?_, by simp [settled], ?_⟩
  · intro providerId subject userId linked
    rw [Directory.linkedTo_congr same]
    exact linked
  · intro userId linked
    rw [Directory.isLinked_congr same]
    exact linked
  · intro other present
    rcases users other present with old | rfl
    · exact .inl old
    · exact .inr waits
  · exact fun providerId subject session equal =>
      absurd equal (named providerId subject session)

/-- A link that is new accounts for the account it names. -/
theorem callbackStep_link {directory next : Directory} {after : Callback}
    {providerId subject userId : String} {now : Vault.DateTime}
    (unlinked : directory.linkedTo providerId subject = none)
    (taken : advanceCallback directory (.created providerId subject userId now) .link =
      some (next, after)) :
    CallbackStep directory (.created providerId subject userId now) next after := by
  simp only [advanceCallback] at taken
  rcases Directory.linkFederatedIdentity_of_new
    ⟨providerId, subject, userId, now⟩ unlinked with
    ⟨new, done⟩ | ⟨absent, error, done⟩
  · simp only [done] at taken
    cases taken
    have made := (Table.mem_rows_insert new).mpr (.inr rfl)
    refine ⟨?_, ?_, ?_, fun _ => .inl, ?_, nofun⟩
    · exact Directory.linkedTo_eq_some.mpr ⟨_, made, rfl, rfl⟩
    · exact fun _ _ _ => Directory.linkedTo_insert
    · intro other linked
      obtain ⟨identity, stored, named⟩ := Directory.isLinked_iff.mp linked
      exact Directory.isLinked_iff.mpr
        ⟨identity, (Table.mem_rows_insert new).mpr (.inl stored), named⟩
    · intro user _ same
      exact Directory.isLinked_iff.mpr ⟨_, made, Option.some.inj same⟩
  · simp only [done] at taken
    cases taken
    refine ⟨trivial, fun _ _ _ => id, fun _ => id, fun _ => .inl, ?_, nofun⟩
    intro user present same
    exact absurd (Option.some.inj same).symm (absent user present)

/-- Every clean operation is such a step. -/
theorem callbackStep_of_advance
    {directory next : Directory} {before after : Callback} {act : CallbackAct}
    (known : before.Known directory) (cleanly : before.Cleanly directory act)
    (taken : advanceCallback directory before act = some (next, after)) :
    CallbackStep directory before next after := by
  cases before with
  | verified providerId subject =>
      cases act with
      | load =>
          simp only [advanceCallback] at taken
          cases loaded : directory.loadUserByFederatedIdentity providerId subject with
          | some user =>
              simp only [loaded] at taken
              split_ifs at taken
              · cases taken
                exact .idle trivial rfl nofun
              · cases taken
                exact .idle (Directory.loadUserByFederatedIdentity_id loaded) rfl nofun
          | none =>
              simp only [loaded] at taken
              split_ifs at taken
              · cases taken
                exact .idle trivial rfl nofun
              · cases taken
                exact .idle trivial rfl nofun
      | fail =>
          cases taken
          exact .idle trivial rfl nofun
      | createUser _ _ | link | issue => cases taken
  | unknown providerId subject =>
      cases act with
      | createUser minted now =>
          simp only [advanceCallback] at taken
          cases done : directory.createUser (shellUser minted now) with
          | ok added =>
              simp only [done] at taken
              cases taken
              exact callbackStep_createUser done rfl rfl trivial nofun
          | error error =>
              simp only [done] at taken
              cases taken
              exact .idle trivial rfl nofun
      | fail =>
          cases taken
          exact .idle trivial rfl nofun
      | load | link | issue => cases taken
  | created providerId subject userId now =>
      cases act with
      | link => exact callbackStep_link cleanly taken
      | fail => exact cleanly.elim
      | load | createUser _ _ | issue => cases taken
  | resolved providerId subject userId keyVersion needsEnrolment =>
      cases act with
      | issue =>
          cases taken
          refine .idle trivial rfl ?_
          intro _ _ session same
          cases same
          exact known
      | fail =>
          cases taken
          exact .idle trivial rfl nofun
      | load | createUser _ _ | link => cases taken
  | answered providerId subject reply => cases act <;> cases taken

/-- Every callback knows what it relies on, and every account is accounted for. -/
structure Orderly (pool : CallbackPool) : Prop where
  known : ∀ callback ∈ pool.threads, callback.Known pool.shared
  accounted : ∀ user ∈ pool.shared.users.rows, AccountedFor pool user

namespace Orderly

variable {pool : CallbackPool}

/-- An operation of a callback keeps the order. -/
theorem advance (orderly : Orderly pool) {thread : Nat} {before after : Callback}
    {next : Directory} (present : pool.threads[thread]? = some before)
    (step : CallbackStep pool.shared before next after) :
    Orderly { shared := next, threads := pool.threads.set thread after } where
  known := by
    apply forall_mem_set _ step.known
    intro other stays
    have holds := orderly.known other stays
    cases other with
    | resolved => exact step.links _ _ _ holds
    | verified | unknown | created | answered => trivial
  accounted := by
    intro user stored
    have moved : after ∈ pool.threads.set thread after := by
      obtain ⟨inRange, _⟩ := List.getElem?_eq_some_iff.mp present
      exact List.mem_set inRange _
    rcases step.users user stored with old | waits
    · rcases orderly.accounted user old with enrolled | linked | ⟨other, stays, waits⟩
      · exact .inl enrolled
      · exact .inr (.inl (step.linked _ linked))
      · by_cases same : other = before
        · rw [same] at waits
          exact .inr (.inl (step.awaited user stored waits))
        · exact .inr (.inr ⟨other, mem_set_of_ne present stays same, waits⟩)
    · exact .inr (.inr ⟨after, moved, waits⟩)

/-- A sweep that removes no account a callback has resolved keeps the order. -/
theorem purge (orderly : Orderly pool) {now : Vault.DateTime}
    (cleanly : SignsInCleanly pool (.outside (.purge now))) :
    Orderly { pool with shared := pool.shared.purgeUnenrolledAccounts now } where
  known := by
    intro callback present
    have holds := orderly.known callback present
    cases callback with
    | resolved providerId subject userId keyVersion needsEnrolment =>
        apply Directory.linkedTo_purge holds
        intro user stored same
        exact (cleanly _ present user stored).1 (by rw [same]; rfl)
    | verified | unknown | created | answered => trivial
  accounted := by
    intro user stored
    obtain ⟨old, stays⟩ := Table.mem_rows_delete.mp stored
    rcases orderly.accounted user old with enrolled | linked | waits
    · exact .inl enrolled
    · exact .inr (.inl (Directory.isLinked_purge old stays linked))
    · exact .inr (.inr waits)

/-- An enrolment keeps the order. -/
theorem enrol (orderly : Orderly pool) {userId : String} {body : EnrolKeysRequest}
    {next : Directory} (done : pool.shared.enrol userId body = .ok next) :
    Orderly { pool with shared := next } := by
  obtain ⟨same, users⟩ := Directory.enrol_ok done
  constructor
  · intro callback present
    have holds := orderly.known callback present
    cases callback with
    | resolved => exact (Directory.linkedTo_congr same _ _).trans holds
    | verified | unknown | created | answered => trivial
  · intro user stored
    rcases users user stored with old | enrolled
    · rcases orderly.accounted user old with enrolled | linked | waits
      · exact .inl enrolled
      · exact .inr (.inl ((Directory.isLinked_congr same _).trans linked))
      · exact .inr (.inr waits)
    · exact .inl enrolled

end Orderly

/-- Clean moves keep the order. -/
theorem orderly_preserved (pool : CallbackPool) (move : CallbackMove) (next : CallbackPool)
    (orderly : Orderly pool) (cleanly : SignsInCleanly pool move)
    (taken : callbacks.system pool move = some next) : Orderly next := by
  revert cleanly
  refine Program.system_cases (motive := fun move next =>
    SignsInCleanly pool move → Orderly next) ?_ ?_ ?_ taken
  · intro event shared action cleanly
    cases event with
    | purge now =>
        cases action
        exact orderly.purge cleanly
    | enrol userId body =>
        cases done : pool.shared.enrol userId body with
        | error error => simp [callbacks, directoryEvent, done, Except.toOption] at action
        | ok after =>
            simp only [callbacks, directoryEvent, done, Except.toOption] at action
            cases action
            exact orderly.enrol done
    | setRegistration enabled =>
        cases action
        exact ⟨orderly.known, orderly.accounted⟩
  · rintro ⟨providerId, subject⟩ shared own action _
    cases action
    refine ⟨forall_mem_append_singleton orderly.known trivial, ?_⟩
    intro user stored
    refine (orderly.accounted user stored).imp_right (Or.imp_right ?_)
    exact fun ⟨callback, present, waits⟩ =>
      ⟨callback, List.mem_append_left _ present, waits⟩
  · intro thread act before shared after present action cleanly
    exact orderly.advance present (callbackStep_of_advance
      (orderly.known before (List.mem_of_getElem? present))
      (cleanly before present) action)

/-- A clean sweep of an orderly directory is complete: what is old and awaits its link
was not there. -/
theorem sweepComplete_purge {pool : CallbackPool} {now : Vault.DateTime}
    (orderly : Orderly pool) (cleanly : SignsInCleanly pool (.outside (.purge now))) :
    SweepComplete (.outside (.purge now))
      { pool with shared := pool.shared.purgeUnenrolledAccounts now } := by
  intro user stored old
  obtain ⟨present, -⟩ := Table.mem_rows_delete.mp stored
  rcases (orderly.purge cleanly).accounted user stored with enrolled | linked | waits
  · exact .inl enrolled
  · exact .inr linked
  · obtain ⟨callback, underWay, awaits⟩ := waits
    exact absurd old ((cleanly callback underWay user present).2 awaits)

/-- In an orderly state, a clean move issues tokens for the linked account only, and
a sweep leaves no account behind. -/
theorem signsIn_step (pool : CallbackPool) (move : CallbackMove) (next : CallbackPool)
    (orderly : Orderly pool) (cleanly : SignsInCleanly pool move)
    (taken : callbacks.system pool move = some next) :
    TokenNamesLink move next ∧ SweepComplete move next := by
  constructor
  · revert cleanly
    refine Program.system_cases (motive := fun move next =>
      SignsInCleanly pool move → TokenNamesLink move next) ?_ ?_ ?_ taken
    · exact fun _ _ _ _ => trivial
    · exact fun _ _ _ _ _ => trivial
    · intro thread act before shared after present action cleanly
      have step := callbackStep_of_advance
        (orderly.known before (List.mem_of_getElem? present))
        (cleanly before present) action
      obtain ⟨inRange, _⟩ := List.getElem?_eq_some_iff.mp present
      simp only [TokenNamesLink, List.getElem?_set_self inRange]
      split
      case h_1 issued => exact step.named _ _ _ (Option.some.inj issued)
      case h_2 => trivial
  · revert cleanly
    refine Program.system_cases (motive := fun move next =>
      SignsInCleanly pool move → SweepComplete move next) ?_ ?_ ?_ taken
    · intro event shared action cleanly
      cases event with
      | purge now =>
          cases action
          exact sweepComplete_purge orderly cleanly
      | enrol _ _ | setRegistration _ => trivial
    · exact fun _ _ _ _ _ => trivial
    · exact fun _ _ _ _ _ _ _ _ => trivial

/-- From a directory in which every account is enrolled or linked, any number of
callbacks that sign in cleanly get tokens for the linked accounts, and no sweep leaves an
old account that is neither enrolled nor linked. -/
theorem signsIn_of_cleanly (directory : Directory)
    (accounted : ∀ user ∈ directory.users.rows,
      user.unenrolled = false ∨ directory.isLinked user.id = true)
    (moves : List CallbackMove)
    (cleanly : EveryStepAllowed callbacks.system SignsInCleanly
      { shared := directory, threads := [] } moves) :
    EveryStep callbacks.system
      (fun _ move next => TokenNamesLink move next ∧ SweepComplete move next)
      { shared := directory, threads := [] } moves := by
  have orderly : Orderly { shared := directory, threads := [] } :=
    ⟨nofun, fun user stored => (accounted user stored).imp_right .inl⟩
  exact everyStep_of_allowed orderly_preserved signsIn_step orderly cleanly

/-- A directory without accounts, open to sign-ups. -/
def emptyDirectory : Directory where
  users := Table.empty
  identities := Table.empty
  registrationEnabled := true

/-- The second callback starts when the first has linked the subject, and the
account, never enrolled, is swept a day later. -/
theorem signsIn_of_cleanly_example :
    EveryStep callbacks.system
      (fun _ move next => TokenNamesLink move next ∧ SweepComplete move next)
      { shared := emptyDirectory, threads := [] }
      [.spawn ("provider", "subject"), .advance 0 .load,
        .advance 0 (.createUser "u1" 0), .advance 0 .link,
        .spawn ("provider", "subject"), .advance 1 .load, .advance 0 .issue,
        .advance 1 .issue, .outside (.purge 90000000000)] :=
  signsIn_of_cleanly _ (by decide) _ (by decide)

/-- Two first callbacks that both look before either has linked: the second gets
tokens for an account that is not the linked one, and no sweep removes it. -/
theorem second_first_callback_gets_unlinked_account :
    ¬ EveryStep callbacks.system
        (fun _ move next => TokenNamesLink move next)
        { shared := emptyDirectory, threads := [] }
        [.spawn ("provider", "subject"), .spawn ("provider", "subject"),
          .advance 0 .load, .advance 1 .load, .advance 0 (.createUser "u1" 0),
          .advance 1 (.createUser "u2" 0), .advance 0 .link, .advance 1 .link,
          .advance 0 .issue, .advance 1 .issue] ∧
      ¬ EveryStep callbacks.system
        (fun _ move next => SweepComplete move next)
        { shared := emptyDirectory, threads := [] }
        [.spawn ("provider", "subject"), .spawn ("provider", "subject"),
          .advance 0 .load, .advance 1 .load, .advance 0 (.createUser "u1" 0),
          .advance 1 (.createUser "u2" 0), .advance 0 .link, .advance 1 .link,
          .advance 0 .issue, .advance 1 .issue, .outside (.purge 90000000000)] := by
  decide

end Accounts
end MindMapVault
