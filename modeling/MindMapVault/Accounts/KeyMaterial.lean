import MindMapVault.Accounts.Invites
import MindMapVault.Accounts.RotateCredentials
import MindMapVault.Accounts.SignIn

/-!
# Everything that writes the keys of an account

Registrations, callbacks of federated sign-ins, enrolments and rotations over one
database, each cut at its database operations, beside the sweep of accounts nobody
finished. The registrations and the callbacks are those of their own modules. A
rotation verifies the current token against the row it has loaded, and its transaction
locks the row later, where it compares the key version and nothing else.
-/

namespace MindMapVault
namespace Accounts

open Remote Threads
open Vault (StoredMindMap DateTime trim)

/-- The tables that the keys of an account are in or depend on, with the settings. -/
structure KeyStore where
  registry : Registry
  identities : Table FederatedIdentity.key
  mindMaps : Table StoredMindMap.id
  attachments : Table StoredMindMapAttachment.id
  unlockMethods : Table UnlockMethod.id

namespace KeyStore

/-- What the federated sign-ins see. -/
def directory (store : KeyStore) : Directory where
  users := store.registry.users
  identities := store.identities
  registrationEnabled := store.registry.registrationEnabled

/-- What the federated sign-ins leave. -/
def withDirectory (store : KeyStore) (directory : Directory) : KeyStore :=
  { store with
    registry :=
      { store.registry with
        users := directory.users
        registrationEnabled := directory.registrationEnabled }
    identities := directory.identities }

/-- What a rotation sees. -/
def database (store : KeyStore) : Database where
  users := store.registry.users
  mindMaps := store.mindMaps
  attachments := store.attachments
  unlockMethods := store.unlockMethods

/-- What a rotation leaves. -/
def withDatabase (store : KeyStore) (db : Database) : KeyStore :=
  { store with
    registry := { store.registry with users := db.users }
    mindMaps := db.mindMaps
    attachments := db.attachments
    unlockMethods := db.unlockMethods }

/-- The accounts. -/
def users (store : KeyStore) : Table StoredUser.id := store.registry.users

@[simp] theorem withDirectory_users (store : KeyStore) (directory : Directory) :
    (store.withDirectory directory).users = directory.users := rfl

@[simp] theorem withDatabase_users (store : KeyStore) (db : Database) :
    (store.withDatabase db).users = db.users := rfl

@[simp] theorem directory_users (store : KeyStore) :
    store.directory.users = store.users := rfl

@[simp] theorem database_users (store : KeyStore) :
    store.database.users = store.users := rfl

end KeyStore

/-! ### Enrolments -/

/-- An enrolment under way. -/
inductive Enrolment
  | checked (userId : String) (keys : EnrolKeysRequest)
  | free (userId : String) (keys : EnrolKeysRequest)
  | answered (reply : Except AppError String)
  deriving DecidableEq

/-- An operation of an enrolment, and how it ends. -/
inductive EnrolAct
  | loadUser (outcome : Outcome)
  | enrolKeys (outcome : Outcome)
  deriving DecidableEq

/-- `POST /auth/oidc/enrol` up to its first operation. -/
def beginEnrol (userId : String) (body : EnrolKeysRequest) : Enrolment :=
  match normalizeUsername body.username with
  | .error error => .answered (.error error)
  | .ok username =>
      if trim body.argon2Salt = "" ∨ trim body.classicalPublicKey = "" ∨
          trim body.pqPublicKey = "" ∨ trim body.classicalPrivEncrypted = "" ∨
          trim body.pqPrivEncrypted = "" then
        .answered (.error (.badRequest "the key bundle is incomplete"))
      else
        .checked userId { body with username := username }

/-- `enrol_account_keys`, with whether it found an account to change. The name of
another account violates the constraint on names. -/
def Directory.writeEnrolment (directory : Directory) (userId : String) (keys : EnrolKeysRequest) :
    Except AppError (Directory × Bool) :=
  if directory.users.rows.any fun user =>
      user.id == userId && user.argon2Salt == "" then
    if directory.users.rows.any fun user =>
        user.id != userId && user.username == keys.username then
      .error (.database "duplicate key value violates unique constraint")
    else
      .ok (directory.enrolAccountKeys userId keys, true)
  else
    .ok (directory, false)

/-- The next operation of an enrolment. -/
def advanceEnrol (directory : Directory) :
    Enrolment → EnrolAct → Option (Directory × Enrolment)
  | .checked userId keys, .loadUser .done =>
      if directory.users.rows.any (·.username == keys.username) then
        some (directory, .answered (.error (.conflict "that username is taken")))
      else
        some (directory, .free userId keys)
  | .checked _ _, .loadUser _ =>
      some (directory, .answered (.error connectionClosed))
  | .free userId keys, .enrolKeys outcome =>
      match outcome, directory.writeEnrolment userId keys with
      | .done, .ok (after, true) => some (after, .answered (.ok keys.username))
      | .done, .ok (_, false) => some (directory,
          .answered (.error (.conflict "this account has already been set up")))
      | .done, .error error => some (directory, .answered (.error error))
      | .unanswered, .ok (after, _) =>
          some (after, .answered (.error connectionClosed))
      | .unanswered, .error _ | .refused, _ =>
          some (directory, .answered (.error connectionClosed))
  | _, _ => none

/-! ### Rotations -/

/-- A rotation under way, with the hash its current token was verified against. -/
inductive RotationFlight
  | checked (userId : String) (body : RotateCredentialsRequest)
  | verified (userId : String) (body : RotateCredentialsRequest) (verifiedHash : String)
  | answered (reply : Except AppError Unit)
  deriving DecidableEq

/-- An operation of a rotation: the account is loaded, or the transaction runs and is
heard of or not. -/
inductive RotationAct
  | loadUser (outcome : Outcome)
  | transact (driver : Driver) (heard : Bool)

/-- `rotate_credentials` up to its first operation. -/
def beginRotate (userId : String) (body : RotateCredentialsRequest) : RotationFlight :=
  match checkNewCredentials body.update with
  | .error error => .answered (.error error)
  | .ok () => .checked userId body

/-- `rotate_credentials` between its two operations. -/
def verifyCurrent (argon2 : Argon2) (db : Database) (userId : String)
    (body : RotateCredentialsRequest) : RotationFlight :=
  match findUser db userId with
  | .error error => .answered (.error error)
  | .ok user =>
      match argon2.verifyAuthToken body.currentAuthToken user.authHash with
      | .error error => .answered (.error error)
      | .ok () =>
          match checkRotatedAttachments body.update.updatedAttachments with
          | .error error => .answered (.error error)
          | .ok () => .verified userId body user.authHash

/-- The next operation of a rotation. -/
def advanceRotate (argon2 : Argon2) (db : Database) :
    RotationFlight → RotationAct → Option (Database × RotationFlight)
  | .checked userId body, .loadUser .done =>
      some (db, verifyCurrent argon2 db userId body)
  | .checked _ _, .loadUser _ => some (db, .answered (.error connectionClosed))
  | .verified userId body _, .transact driver heard =>
      let (reply, after) := rotateUserCredentials argon2.hashAuthToken driver db userId body.update
      some (after, .answered (if heard then reply else .error connectionClosed))
  | _, _ => none

/-! ### All of them -/

/-- A request that may write keys. -/
inductive KeyRequest
  | register (body : RegisterRequest)
  | callback (providerId subject : String)
  | enrol (userId : String) (body : EnrolKeysRequest)
  | rotateCredentials (userId : String) (body : RotateCredentialsRequest)
  deriving DecidableEq

/-- A request under way. -/
inductive KeyFlight
  | registration (registration : Registration)
  | callback (callback : Callback)
  | enrolment (enrolment : Enrolment)
  | rotation (rotation : RotationFlight)
  deriving DecidableEq

/-- An operation of a request. -/
inductive KeyAct
  | registration (act : RegistrationAct)
  | callback (act : CallbackAct)
  | enrolment (act : EnrolAct)
  | rotation (act : RotationAct)

/-- What happens beside the requests: the sweep, the invites, the settings and the
clock, and whatever becomes of vaults, attachments and devices. -/
inductive KeyEvent
  | purge (now : DateTime)
  | registry (event : RegistryEvent)
  | setVaults (mindMaps : Table StoredMindMap.id)
      (attachments : Table StoredMindMapAttachment.id)
      (unlockMethods : Table UnlockMethod.id)

/-- A request arrives. -/
def beginKeyRequest (store : KeyStore) : KeyRequest → KeyFlight
  | .register body => .registration (beginRegister store.registry body)
  | .callback providerId subject => .callback (.verified providerId subject)
  | .enrol userId body => .enrolment (beginEnrol userId body)
  | .rotateCredentials userId body => .rotation (beginRotate userId body)

/-- The next operation of a request. -/
def advanceKeyRequest (argon2 : Argon2) (store : KeyStore) :
    KeyFlight → KeyAct → Option (KeyStore × KeyFlight)
  | .registration registration, .registration act =>
      (advanceRegister store.registry registration act).map fun (registry, after) =>
        ({ store with registry := registry }, .registration after)
  | .callback callback, .callback act =>
      (advanceCallback store.directory callback act).map fun (directory, after) =>
        (store.withDirectory directory, .callback after)
  | .enrolment enrolment, .enrolment act =>
      (advanceEnrol store.directory enrolment act).map fun (directory, after) =>
        (store.withDirectory directory, .enrolment after)
  | .rotation rotation, .rotation act =>
      (advanceRotate argon2 store.database rotation act).map fun (db, after) =>
        (store.withDatabase db, .rotation after)
  | _, _ => none

/-- What happens beside the requests. Accounts come in by requests and go with the
sweep. -/
def keyEvent (store : KeyStore) : KeyEvent → Option KeyStore
  | .purge now =>
      some (store.withDirectory (store.directory.purgeUnenrolledAccounts now))
  | .registry (.setUsers _) => none
  | .registry event =>
      (registryEvent store.registry event).map fun registry =>
        { store with registry := registry }
  | .setVaults mindMaps attachments unlockMethods =>
      some { store with
        mindMaps := mindMaps
        attachments := attachments
        unlockMethods := unlockMethods }

/-- Any number of requests, interleaved operation by operation. -/
def keyRequests (argon2 : Argon2) :
    Program KeyStore KeyFlight KeyEvent KeyRequest KeyAct where
  outside := keyEvent
  spawn := fun store request => some (store, beginKeyRequest store request)
  advance := advanceKeyRequest argon2

/-- The tables and the requests under way. -/
abbrev KeyPool := Pool KeyStore KeyFlight

/-- A move of the requests. -/
abbrev KeyMove := Move KeyEvent KeyRequest KeyAct

end Accounts
end MindMapVault
