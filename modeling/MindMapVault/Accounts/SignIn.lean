import MindMapVault.Accounts.Database
import MindMapVault.Foundations.Threads
import MindMapVault.Vault.VersionId

/-!
# Signing in with a provider

The callbacks of federated sign-ins, cut at their database operations, beside the
enrolment of accounts and the sweep that removes those nobody came back to. The
first callback of a subject creates an account without keys and then links it; the
link is an insert that leaves an existing one in place and says nothing about it.
A callback whose database operation fails, whether it took effect or not, ends
with an error.
-/

namespace MindMapVault
namespace Accounts

open Threads
open Vault (DateTime trim)

/-- A row of `federated_identities`. -/
structure FederatedIdentity where
  providerId : String
  subject : String
  userId : String
  createdAt : DateTime
  deriving DecidableEq

/-- `PRIMARY KEY (provider_id, subject)`. -/
def FederatedIdentity.key (identity : FederatedIdentity) : String × String :=
  (identity.providerId, identity.subject)

/-- The accounts, the subjects they are linked to, and whether the instance is open
to sign-ups. -/
structure Directory where
  users : Table StoredUser.id
  identities : Table FederatedIdentity.key
  registrationEnabled : Bool

/-- The body that finishes an account: a name and the key material. -/
structure EnrolKeysRequest where
  username : String
  argon2Salt : String
  argon2Params : Argon2Params
  classicalPublicKey : String
  pqPublicKey : String
  classicalPrivEncrypted : String
  pqPrivEncrypted : String
  deriving DecidableEq

/-- What a callback hands to the browser: the account its tokens name, their key
version, and whether the account has yet to be finished. -/
structure Session where
  userId : String
  keyVersion : UInt32
  needsEnrolment : Bool
  deriving DecidableEq

/-- `normalize_username`. -/
def normalizeUsername (raw : String) : Except AppError String :=
  let trimmed := trim raw
  if trimmed = "" then
    .error (.badRequest "a username is required")
  else if 64 < trimmed.utf8ByteSize then
    .error (.badRequest "that username is too long")
  -- no character outside ASCII has a lower case in this prefix
  else if "pending-".toList.isPrefixOf (trimmed.toList.map Char.toLower) then
    .error (.badRequest "that username is reserved")
  else if !trimmed.toList.all fun char =>
      char.isAlphanum || char ∈ ['_', '-', '.'] then
    .error (.badRequest "a username may use letters, digits, dot, dash and underscore")
  else
    .ok trimmed

/-- The account a new subject gets: a placeholder for a name, no password and no
keys. -/
def shellUser (userId : String) (now : DateTime) : StoredUser where
  id := userId
  username := s!"pending-{userId}"
  authHash := ""
  argon2Salt := ""
  argon2Params := { mCost := 65536, tCost := 3, pCost := 4 }
  classicalPublicKey := ""
  pqPublicKey := ""
  classicalPrivEncrypted := ""
  pqPrivEncrypted := ""
  keyVersion := 1
  createdAt := now
  isLocked := false

/-- The row an enrolment leaves. -/
def StoredUser.enrolled (keys : EnrolKeysRequest) (user : StoredUser) : StoredUser :=
  { user with
    username := keys.username
    argon2Salt := keys.argon2Salt
    argon2Params := keys.argon2Params
    classicalPublicKey := keys.classicalPublicKey
    pqPublicKey := keys.pqPublicKey
    classicalPrivEncrypted := keys.classicalPrivEncrypted
    pqPrivEncrypted := keys.pqPrivEncrypted }

/-- `argon2_salt = '' AND auth_hash = ''`. -/
def StoredUser.unenrolled (user : StoredUser) : Bool := user.argon2Salt == "" && user.authHash == ""

namespace Directory

/-- The account a subject is linked to. -/
def linkedTo (directory : Directory) (providerId subject : String) : Option String :=
  (directory.identities.find? (providerId, subject)).map FederatedIdentity.userId

/-- `EXISTS (SELECT 1 FROM federated_identities f WHERE f.user_id = u.id)`. -/
def isLinked (directory : Directory) (userId : String) : Bool :=
  directory.identities.rows.any (·.userId == userId)

/-- `load_user_by_federated_identity`. -/
def loadUserByFederatedIdentity
    (directory : Directory) (providerId subject : String) : Option StoredUser :=
  (directory.linkedTo providerId subject).bind directory.users.find?

/-- `create_user`. -/
def createUser (directory : Directory) (user : StoredUser) :
    Except AppError Directory :=
  if new : user.id ∉ directory.users.rows.map StoredUser.id then
    if directory.users.rows.any (·.username == user.username) then
      .error (.database "duplicate key value violates unique constraint")
    else
      .ok { directory with users := directory.users.insert user new }
  else
    .error (.database "duplicate key value violates unique constraint")

/-- `link_federated_identity`, with `ON CONFLICT (provider_id, subject) DO
NOTHING`. -/
def linkFederatedIdentity (directory : Directory) (identity : FederatedIdentity) :
    Except AppError Directory :=
  if new : identity.key ∉ directory.identities.rows.map FederatedIdentity.key then
    if directory.users.rows.any (·.id == identity.userId) then
      .ok { directory with identities := directory.identities.insert identity new }
    else
      .error (.database "insert violates foreign key constraint")
  else
    .ok directory

/-- `UNENROLLED_ACCOUNT_TTL_HOURS`, in microseconds. -/
def unenrolledAccountTtl : DateTime := 24 * 3600 * 1000000

/-- The condition of the sweep: no key material, no password, old enough, and a
federated link. -/
def purgeable (directory : Directory) (now : DateTime) (user : StoredUser) : Bool :=
  user.unenrolled && decide (user.createdAt < now - unenrolledAccountTtl) &&
    directory.isLinked user.id

/-- `purge_unenrolled_accounts`; the links of an account go with it. -/
def purgeUnenrolledAccounts (directory : Directory) (now : DateTime) : Directory :=
  { directory with
    users := directory.users.delete (directory.purgeable now)
    identities := directory.identities.delete fun identity =>
      directory.users.rows.any fun user =>
        user.id == identity.userId && directory.purgeable now user }

/-- `enrol_account_keys`, where the account has no salt yet. -/
def enrolAccountKeys
    (directory : Directory) (userId : String) (keys : EnrolKeysRequest) : Directory :=
  { directory with
    users := directory.users.update
      (fun user => user.id == userId && user.argon2Salt == "")
      (StoredUser.enrolled keys) fun _ => rfl }

/-- `POST /auth/oidc/enrol`. -/
def enrol (directory : Directory) (userId : String) (body : EnrolKeysRequest) :
    Except AppError Directory := do
  let username ← normalizeUsername body.username
  if trim body.argon2Salt = "" ∨ trim body.classicalPublicKey = "" ∨
      trim body.pqPublicKey = "" ∨ trim body.classicalPrivEncrypted = "" ∨
      trim body.pqPrivEncrypted = "" then
    throw (.badRequest "the key bundle is incomplete")
  if directory.users.rows.any (·.username == username) then
    throw (.conflict "that username is taken")
  if directory.users.rows.any fun user =>
      user.id == userId && user.argon2Salt == "" then
    return directory.enrolAccountKeys userId { body with username := username }
  else
    throw (.conflict "this account has already been set up")

end Directory

/-- A callback under way, with the subject its claims name. -/
inductive Callback
  | verified (providerId subject : String)
  | unknown (providerId subject : String)
  | created (providerId subject userId : String) (now : DateTime)
  | resolved (providerId subject userId : String) (keyVersion : UInt32) (needsEnrolment : Bool)
  | answered (providerId subject : String) (reply : Except AppError Session)
  deriving DecidableEq

/-- An operation of a callback. -/
inductive CallbackAct
  | load
  | createUser (minted : String) (now : DateTime)
  | link
  | issue
  | fail
  deriving DecidableEq

/-- What callbacks do not do: the sweep, enrolments, and the settings. -/
inductive DirectoryEvent
  | purge (now : DateTime)
  | enrol (userId : String) (body : EnrolKeysRequest)
  | setRegistration (enabled : Bool)
  deriving DecidableEq

/-- The next operation of a callback: `resolve_account`, statement by statement,
and then the tokens. -/
def advanceCallback (directory : Directory) :
    Callback → CallbackAct → Option (Directory × Callback)
  | .verified providerId subject, .load =>
      match directory.loadUserByFederatedIdentity providerId subject with
      | some user =>
          if user.isLocked then
            some (directory, .answered providerId subject
              (.error (.unauthorized "account is locked")))
          else
            some (directory, .resolved providerId subject user.id user.keyVersion
              (user.argon2Salt == ""))
      | none =>
          if directory.registrationEnabled then
            some (directory, .unknown providerId subject)
          else
            some (directory, .answered providerId subject
              (.error (.forbidden "registration is closed on this server")))
  | .unknown providerId subject, .createUser minted now =>
      match directory.createUser (shellUser minted now) with
      | .ok after => some (after, .created providerId subject minted now)
      | .error error => some (directory, .answered providerId subject (.error error))
  | .created providerId subject userId now, .link =>
      match directory.linkFederatedIdentity ⟨providerId, subject, userId, now⟩ with
      | .ok after => some (after, .resolved providerId subject userId 1 true)
      | .error error => some (directory, .answered providerId subject (.error error))
  | .resolved providerId subject userId keyVersion needsEnrolment, .issue =>
      some (directory, .answered providerId subject (.ok ⟨userId, keyVersion, needsEnrolment⟩))
  | .verified providerId subject, .fail | .unknown providerId subject, .fail
  | .created providerId subject _ _, .fail
  | .resolved providerId subject _ _ _, .fail =>
      some (directory, .answered providerId subject (.error (.database "connection closed")))
  | _, _ => none

/-- What happens to the directory outside the callbacks. -/
def directoryEvent (directory : Directory) : DirectoryEvent → Option Directory
  | .purge now => some (directory.purgeUnenrolledAccounts now)
  | .enrol userId body => (directory.enrol userId body).toOption
  | .setRegistration enabled =>
      some { directory with registrationEnabled := enabled }

/-- Any number of callbacks for any subjects, interleaved operation by
operation. -/
def callbacks :
    Program Directory Callback DirectoryEvent (String × String) CallbackAct where
  outside := directoryEvent
  spawn := fun directory (providerId, subject) =>
    some (directory, .verified providerId subject)
  advance := advanceCallback

/-- The directory and the callbacks under way. -/
abbrev CallbackPool := Pool Directory Callback

/-- A move of the sign-ins. -/
abbrev CallbackMove := Move DirectoryEvent (String × String) CallbackAct

end Accounts
end MindMapVault
